import SingEwp.StreamRuns

/-!
# The UDP adapter

`packetConn` of `packetconn.go` and the `CommandUDP` arm of `handleTransport` in
`server.go`.  A write is a thread whose actions are the unlocked test of
`opened`, the section of `ensureOpen` under `openedMu` with the whole of
`SendUDPNew` inside it, and the two actions of `sendFrame`.  Messages reach the
reading end in a queue, and `none` stands for a call that waits for the next
one.
-/

namespace SingEwp

inductive NetAddr where
  | udp (ip : Bytes) (port : UInt16) (zone : Bytes)
  | fqdn (name : Bytes) (port : UInt16)
  deriving DecidableEq

/-- `ewpToNetAddr`; `none` is the nil address. -/
def ewpToNetAddr (a : Address) : Option NetAddr :=
  if a.domain ≠ [] then some (.fqdn a.domain a.port)
  else
    match a.addr.addr with
    | .v4 ip => some (.udp ip.val a.addr.port [])
    | .v6 ip zone => some (.udp ip.val a.addr.port zone)
    | .invalid => none

structure PacketConn where
  stream : SecureStream
  globalID : GlobalID
  defaultDst : Address
  isServer : Bool := false
  pendingFirst : Slice := none
  pendingFirstSrc : Address := {}
  opened : Bool := false

def newClientPacketConn (stream : SecureStream) (globalID : GlobalID)
    (dst : Address) : PacketConn where
  stream := stream
  globalID := globalID
  defaultDst := dst

def newServerPacketConn (stream : SecureStream) (globalID : GlobalID)
    (defaultDst : Address) (initial : Slice) : PacketConn where
  stream := stream
  globalID := globalID
  defaultDst := defaultDst
  isServer := true
  opened := true
  pendingFirst := initial
  pendingFirstSrc := defaultDst

/-! ## Writing -/

inductive PacketLabel where
  | openedTest
  | ensureOpen
  | stream (label : StreamLabel)
  deriving DecidableEq

abbrev PacketProc (α : Type) := Proc PacketLabel StreamEnv PacketConn α

def PacketConn.setStream (s : SecureStream) (p : PacketConn) : PacketConn :=
  { p with stream := s }

/-- A method of the stream, called on the stream of the packet conn. -/
def onStream {α : Type} (p : StreamProc α) : PacketProc α :=
  p.zoom PacketLabel.stream PacketConn.stream PacketConn.setStream

/-- The section of `ensureOpen` under `openedMu`, as the other writers see it: they
wait for the lock. -/
def ensureOpenLocked (P : Primitives) (payload : Bytes) (env : StreamEnv)
    (p : PacketConn) : Outcome EwpError Unit × PacketConn :=
  -- another call came first: this payload is not sent
  if p.opened then (.ok (), p)
  else
    -- the sub-session is opened for the anchor, whatever the call's target
    match (sendUDPNew P p.globalID p.defaultDst payload).exec (fun _ => env)
      p.stream with
    | (.ok (), stream, _) => (.ok (), { p with stream := stream, opened := true })
    | (failed, stream, _) => (failed, { p with stream := stream })

def writeToAddress (P : Primitives) (b : Bytes) (target : Address) :
    PacketProc (ℕ × Outcome EwpError Unit) := do
  let (unopened, globalID) ← Proc.observe .openedTest
    (fun p => (!p.isServer && !p.opened, p.globalID))
  if unopened then
    match ← Proc.atomic .ensureOpen (ensureOpenLocked P b) with
    | .ok () => pure (b.length, .ok ())
    | failed => pure (0, failed)
  else
    match ← onStream (sendUDPData P globalID target b) with
    | .ok () => pure (b.length, .ok ())
    | failed => pure (0, failed)

/-! ## Reading -/

/-- A packet conn with the messages that its transport has to deliver. -/
structure PacketEnd where
  conn : PacketConn
  inbox : List Bytes

def recvQueued (P : Primitives) (s : SecureStream) (inbox : List Bytes) :
    Option (Except EwpError Event × SecureStream × List Bytes) :=
  if s.closed then some (.error (.io .closedPipe), s, inbox)
  else
    match inbox with
    | [] => none
    | msg :: rest =>
        some ((recv P (readingEnv (.ok msg)) s).1,
          (recv P (readingEnv (.ok msg)) s).2, rest)

abbrev Datagram := Bytes × Option NetAddr

/-- The loop of `ReadFrom`.  Every pass takes a message, so their number is fuel
enough. -/
def readFromLoop (P : Primitives) (n : ℕ) :
    ℕ → PacketEnd → Option (Except EwpError Datagram) × PacketEnd
  | 0, c => (none, c)
  | fuel + 1, c =>
      match recvQueued P c.conn.stream c.inbox with
      | none => (none, c)
      | some (.error e, s, inbox) =>
          (some (.error e), ⟨c.conn.setStream s, inbox⟩)
      | some (.ok ev, s, inbox) =>
          let c : PacketEnd := ⟨c.conn.setStream s, inbox⟩
          if ev.type ∈ [frameUDPData, frameUDPNew] then
            if ev.globalID ≠ c.conn.globalID then readFromLoop P n fuel c
            else
              (some (.ok (ev.payload.bytes.take n,
                ewpToNetAddr (ev.address.getD c.conn.defaultDst))), c)
          else if ev.type = frameUDPEnd then
            if ev.globalID = c.conn.globalID then (some (.error (.io .eof)), c)
            else readFromLoop P n fuel c
          else if ev.type ∈ [framePing, framePong, framePaddingOnly,
              frameUDPProbeReq, frameUDPProbeResp] then
            readFromLoop P n fuel c
          else (some (.error (.unexpectedFrame ev.type.code)), c)

def readFrom (P : Primitives) (n : ℕ) (c : PacketEnd) :
    Option (Except EwpError Datagram) × PacketEnd :=
  -- a nil first payload is taken for none
  match c.conn.pendingFirst with
  | some first =>
      (some (.ok (first.take n, ewpToNetAddr c.conn.pendingFirstSrc)),
        { c with conn := { c.conn with pendingFirst := none } })
  | none => readFromLoop P n (c.inbox.length + 1) c

def readDatagrams (P : Primitives) (n : ℕ) :
    ℕ → PacketEnd → List (Except EwpError Datagram)
  | 0, _ => []
  | fuel + 1, c =>
      match readFrom P n c with
      | (none, _) => []
      | (some (.error e), _) => [.error e]
      | (some (.ok d), c) => .ok d :: readDatagrams P n fuel c

/-- The `CommandUDP` arm of `handleTransport`: the packet conn that the handler
is given. -/
def acceptPacketConn (P : Primitives) (helloAddr : Address) (s : SecureStream)
    (inbox : List Bytes) : Option (Except EwpError PacketEnd) :=
  match recvQueued P s inbox with
  | none => none
  | some (.error e, _, _) => some (.error (.readUDPNew e))
  | some (.ok ev, s, inbox) =>
      if ev.type ≠ frameUDPNew then some (.error (.expectedUDPNew ev.type.code))
      else
        some (.ok ⟨newServerPacketConn s ev.globalID
          (ev.address.getD helloAddr) ev.payload, inbox⟩)

def servedDatagrams (P : Primitives) (n : ℕ) (helloAddr : Address)
    (s : SecureStream) (inbox : List Bytes) : List (Except EwpError Datagram) :=
  match acceptPacketConn P helloAddr s inbox with
  | some (.ok c) => readDatagrams P n (c.inbox.length + 2) c
  | _ => []

end SingEwp
