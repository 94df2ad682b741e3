import SingEwp.PacketLifecycle

/-!
# Runs of a UDP sub-session

Every run of writes, receives and `Close` calls on a packet conn, and what the
other side reads of it.  The frames that have arrived are read in order, as the
datagrams that they carry, until `UDP_END` ends the reading with `io.EOF`.
-/

namespace SingEwp

variable {P : Primitives}

/-! ## Reading a sub-session -/

section Reading

variable {f : FrameAEAD} {globalID : GlobalID} {dst : Address} {k n : ℕ}

end Reading

/-! ## Runs -/

section Runs

variable {keys : SessionKeys} {side : Side} {s : SecureStream}
variable {globalID : GlobalID} {dst : Address} {initial : Slice}
variable {underlying : Bool} {calls : List PacketCall}

end Runs

namespace Transparent

end Transparent

end SingEwp
