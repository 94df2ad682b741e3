import SingEwp.PacketConn

/-!
# Addresses of the net package

`addrToEWP` of `packetconn.go` and its companion `ewpToNetAddr`.  What an address
denotes is an endpoint: an IP in its sixteen-byte form or a name, and a port.  An
accepted `net.Addr` keeps its endpoint exactly if its port is a port and its name
is a name; nothing checks either.  What `ReadFrom` reports as a source always
converts back.
-/

namespace SingEwp

/-- `net.UDPAddr` and `net.TCPAddr`, whose fields are the same. -/
structure SocketAddr where
  ip : Bytes
  /-- An `int`. -/
  port : ℤ
  zone : Bytes := []

/-- The dynamic types of `net.Addr` that `addrToEWP` tells apart; the first two
are pointers. -/
inductive NetAddrValue where
  | udp (addr : Option SocketAddr)
  | tcp (addr : Option SocketAddr)
  | fqdn (name : Bytes) (port : UInt16)
  | other

inductive ConvertError where
  | invalidUDPIP (ip : Bytes)
  | invalidTCPIP (ip : Bytes)
  | domainLen
  | unsupported
  deriving DecidableEq

/-- The first twelve bytes of a 4-in-6 address. -/
def mappedPrefix : Bytes := List.replicate 10 0 ++ [0xff, 0xff]

/-- `netip.AddrFromSlice`. -/
def addrFromSlice (b : Bytes) : Option NetipAddr :=
  if b.length = 4 then some (.v4 (FixedBytes.copyFrom 4 b))
  else if b.length = 16 then some (.v6 (FixedBytes.copyFrom 16 b) [])
  else none

/-- `netip.Addr.Unmap`. -/
def NetipAddr.unmap : NetipAddr → NetipAddr
  | .v6 ip zone =>
      if ip.val.take 12 = mappedPrefix then
        .v4 (FixedBytes.copyFrom 4 (ip.val.drop 12))
      else .v6 ip zone
  | .v4 ip => .v4 ip
  | .invalid => .invalid

/-- The conversion `uint16(x)` of an `int`. -/
def uint16OfInt (x : ℤ) : UInt16 := UInt16.ofNat (x % 65536).toNat

/-- The arms of `addrToEWP` for the two pointer types. -/
def socketToEWP (invalidIP : Bytes → ConvertError) :
    Option SocketAddr → Outcome ConvertError Address
  | none => .panic
  | some a =>
      match addrFromSlice a.ip with
      | none => .error (invalidIP a.ip)
      | some ip => .ok { addr := ⟨ip.unmap, uint16OfInt a.port⟩ }

def addrToEWP : NetAddrValue → Outcome ConvertError Address
  | .udp a => socketToEWP .invalidUDPIP a
  | .tcp a => socketToEWP .invalidTCPIP a
  | .fqdn name port =>
      if maxDomainLen < name.length then .error .domainLen
      else .ok { domain := name, port := port }
  | .other => .error .unsupported

/-- What `ReadFrom` reports, as a `net.Addr`. -/
def NetAddr.value : NetAddr → NetAddrValue
  | .udp ip port zone =>
      .udp (some { ip := ip, port := port.toNat, zone := zone })
  | .fqdn name port => .fqdn name port

/-! ## Endpoints -/

inductive Endpoint where
  | ip (addr : Bytes) (port : ℤ)
  | name (name : Bytes) (port : ℤ)

/-- `net.IP.To16` on the slices that are addresses. -/
def to16 (b : Bytes) : Bytes := if b.length = 4 then mappedPrefix ++ b else b

def NetipAddr.as16 : NetipAddr → Option Bytes
  | .v4 ip => some (mappedPrefix ++ ip.val)
  | .v6 ip _ => some ip.val
  | .invalid => none

def Address.endpoint (a : Address) : Option Endpoint :=
  if a.isDomain then some (.name a.domain a.port.toNat)
  else a.addr.addr.as16.map (fun ip => .ip ip a.addr.port.toNat)

def NetAddrValue.endpoint : NetAddrValue → Option Endpoint
  | .udp a => a.map (fun a => .ip (to16 a.ip) a.port)
  | .tcp a => a.map (fun a => .ip (to16 a.ip) a.port)
  | .fqdn name port => some (.name name port.toNat)
  | .other => none

/-- Not the address that `buildUDPMeta` takes for the default target. -/
def Address.IsTarget (a : Address) : Prop :=
  a.isDomain = true ∨ a.addr.isValid = true

def Address.unmap (a : Address) : Address :=
  { a with addr := ⟨a.addr.addr.unmap, a.addr.port⟩ }

/-- The port is a port, or the name is a name. -/
def NetAddrValue.Convertible : NetAddrValue → Prop
  | .udp a => ∀ s ∈ a, 0 ≤ s.port ∧ s.port < 65536
  | .tcp a => ∀ s ∈ a, 0 ≤ s.port ∧ s.port < 65536
  | .fqdn name _ => name ≠ []
  | .other => True

theorem as16_unmap (a : NetipAddr) : a.unmap.as16 = a.as16 := by
  cases a with
  | invalid => rfl
  | v4 ip => rfl
  | v6 ip zone =>
      rw [NetipAddr.unmap]
      by_cases hmapped : ip.val.take 12 = mappedPrefix
      · have htail : (ip.val.drop 12).length = 4 := by
          rw [List.length_drop, ip.property]
        rw [if_pos hmapped]
        simp only [NetipAddr.as16, FixedBytes.copyFrom_val_of_length htail,
          ← hmapped, List.take_append_drop]
      · rw [if_neg hmapped]

theorem isValid_iff_as16 (a : AddrPort) :
    a.isValid = true ↔ a.addr.as16 ≠ none := by
  obtain ⟨addr, port⟩ := a
  cases addr <;> simp [AddrPort.isValid, NetipAddr.as16]

theorem addrFromSlice_as16
    {b : Bytes} {a : NetipAddr} (hslice : addrFromSlice b = some a) :
    a.as16 = some (to16 b) := by
  unfold addrFromSlice at hslice
  unfold to16
  split at hslice
  · rename_i hlen
    rw [← Option.some.inj hslice, if_pos hlen]
    simp only [NetipAddr.as16, FixedBytes.copyFrom_val_of_length hlen]
  · rename_i hlen
    split at hslice
    · rename_i hlong
      rw [← Option.some.inj hslice, if_neg hlen]
      simp only [NetipAddr.as16, FixedBytes.copyFrom_val_of_length hlong]
    · simp at hslice

theorem uint16OfInt_toNat (x : ℤ) : ((uint16OfInt x).toNat : ℤ) = x % 65536 := by
  have hlt : (x % 65536).toNat < UInt16.size := by
    simp only [UInt16.size]
    omega
  rw [uint16OfInt, UInt16.toNat_ofNat_of_lt' hlt]
  omega

theorem uint16OfInt_eq_iff (x : ℤ) :
    ((uint16OfInt x).toNat : ℤ) = x ↔ 0 ≤ x ∧ x < 65536 := by
  rw [uint16OfInt_toNat]
  omega

/-! ## Conversion of what is accepted -/

/-- The result is a target, can be encoded and denotes the same endpoint. -/
structure KeepsEndpoint (v : NetAddrValue) (a : Address) : Prop where
  target : a.IsTarget
  encodes : ∃ e, a.append [] = .ok e
  endpoint : a.endpoint = v.endpoint

theorem socketToEWP_ok
    {invalidIP : Bytes → ConvertError} {s : Option SocketAddr} {a : Address}
    (hconv : socketToEWP invalidIP s = .ok a) :
    ∃ addr ip, s = some addr ∧ addrFromSlice addr.ip = some ip ∧
      a = { addr := ⟨ip.unmap, uint16OfInt addr.port⟩ } := by
  cases s with
  | none => simp [socketToEWP] at hconv
  | some addr =>
      rw [socketToEWP] at hconv
      cases hslice : addrFromSlice addr.ip with
      | none => simp [hslice] at hconv
      | some ip =>
          simp only [hslice, Outcome.ok.injEq] at hconv
          exact ⟨addr, ip, rfl, hslice, hconv.symm⟩

theorem endpoint_of_ip {ip : NetipAddr} {b : Bytes} (has : ip.as16 = some b)
    (port : UInt16) :
    ({ addr := ⟨ip, port⟩ } : Address).endpoint = some (.ip b port.toNat) := by
  simp [Address.endpoint, Address.isDomain, has]

/-- An IP keeps its endpoint exactly if its port fits in sixteen bits. -/
theorem socket_keepsEndpoint_iff
    {addr : SocketAddr} {ip : NetipAddr} {v : NetAddrValue}
    (hslice : addrFromSlice addr.ip = some ip)
    (hendpoint : v.endpoint = some (.ip (to16 addr.ip) addr.port)) :
    KeepsEndpoint v { addr := ⟨ip.unmap, uint16OfInt addr.port⟩ } ↔
      0 ≤ addr.port ∧ addr.port < 65536 := by
  have has : ip.unmap.as16 = some (to16 addr.ip) :=
    (as16_unmap ip).trans (addrFromSlice_as16 hslice)
  have hvalid : ∀ port : UInt16, (AddrPort.mk ip.unmap port).isValid = true := by
    intro port
    rw [isValid_iff_as16, has]
    exact Option.some_ne_none _
  rw [← uint16OfInt_eq_iff]
  constructor
  · intro hkeeps
    have hsame := hkeeps.endpoint
    rw [endpoint_of_ip has, hendpoint] at hsame
    simpa using hsame
  · intro hport
    refine ⟨Or.inr (hvalid _), ?_, ?_⟩
    · rw [Address.append_ok_iff]
      exact Or.inr ⟨rfl, hvalid _⟩
    · rw [endpoint_of_ip has, hendpoint, hport]

theorem fqdn_keepsEndpoint_iff
    {name : Bytes} (hlen : name.length ≤ maxDomainLen) (port : UInt16) :
    KeepsEndpoint (.fqdn name port) { domain := name, port := port } ↔
      name ≠ [] := by
  constructor
  · rintro ⟨htarget, -, -⟩ rfl
    simp [Address.IsTarget, Address.isDomain, AddrPort.isValid] at htarget
  · intro hne
    have hdomain : ({ domain := name, port := port } : Address).isDomain = true := by
      simpa using hne
    refine ⟨Or.inl hdomain, ?_, ?_⟩
    · rw [Address.append_ok_iff]
      exact Or.inl ⟨hdomain, hlen⟩
    · rw [Address.endpoint, if_pos hdomain]
      rfl

theorem keepsEndpoint_iff
    {v : NetAddrValue} {a : Address} (hconv : addrToEWP v = .ok a) :
    KeepsEndpoint v a ↔ v.Convertible := by
  cases v with
  | udp s =>
      obtain ⟨addr, ip, rfl, hslice, rfl⟩ := socketToEWP_ok hconv
      rw [socket_keepsEndpoint_iff hslice rfl]
      simp [NetAddrValue.Convertible]
  | tcp s =>
      obtain ⟨addr, ip, rfl, hslice, rfl⟩ := socketToEWP_ok hconv
      rw [socket_keepsEndpoint_iff hslice rfl]
      simp [NetAddrValue.Convertible]
  | fqdn name port =>
      rw [addrToEWP] at hconv
      split at hconv
      · simp at hconv
      · rename_i hlen
        rw [← Outcome.ok.inj hconv]
        exact fqdn_keepsEndpoint_iff (not_lt.mp hlen) port
  | other => simp [addrToEWP] at hconv

/-! ## Conversion of what was reported -/

theorem uint16OfInt_toNat_self (port : UInt16) : uint16OfInt port.toNat = port := by
  have hlt := port.toNat_lt
  have hsame : ((uint16OfInt port.toNat).toNat : ℤ) = port.toNat :=
    (uint16OfInt_eq_iff _).mpr (by omega)
  exact UInt16.toNat_inj.mp (by exact_mod_cast hsame)

theorem addrFromSlice_v4 (ip : FixedBytes 4) :
    addrFromSlice ip.val = some (.v4 ip) := by
  rw [addrFromSlice, if_pos ip.property, FixedBytes.copyFrom_val]

theorem addrFromSlice_v6 (ip : FixedBytes 16) :
    addrFromSlice ip.val = some (.v6 ip []) := by
  have hlen := ip.property
  rw [addrFromSlice, if_neg (by omega), if_pos hlen, FixedBytes.copyFrom_val]

theorem addrToEWP_reported_ip
    {ip : Bytes} {addr : NetipAddr} (hslice : addrFromSlice ip = some addr)
    (port : UInt16) (zone : Bytes) :
    addrToEWP (NetAddr.udp ip port zone).value =
      .ok ({ addr := ⟨addr, port⟩ } : Address).unmap := by
  simp only [NetAddr.value, addrToEWP, socketToEWP, hslice,
    uint16OfInt_toNat_self, Address.unmap]

/-- A source that `ReadFrom` reports converts back to the address it was made
from. -/
theorem addrToEWP_reported
    {a : Address} (hnorm : a.wireNorm = a) (hvalid : a.Encodable) :
    ∃ v, ewpToNetAddr a = some v ∧ addrToEWP v.value = .ok a.unmap := by
  rw [← hnorm]
  rcases hvalid with ⟨hdomain, hlen⟩ | ⟨hdomain, haddr⟩
  · have hne : a.domain ≠ [] := by simpa using hdomain
    rw [Address.wireNorm, if_pos hdomain]
    refine ⟨.fqdn a.domain a.port, if_pos hne, ?_⟩
    simp only [NetAddr.value, addrToEWP, if_neg (not_lt.mpr hlen)]
    rfl
  · rw [Address.wireNorm, if_neg (by simp [hdomain])]
    cases hip : a.addr.addr with
    | invalid => simp [AddrPort.isValid, hip] at haddr
    | v4 ip =>
        exact ⟨.udp ip.val a.addr.port [], rfl,
          addrToEWP_reported_ip (addrFromSlice_v4 ip) _ _⟩
    | v6 ip zone =>
        exact ⟨.udp ip.val a.addr.port [], rfl,
          addrToEWP_reported_ip (addrFromSlice_v6 ip) _ _⟩

/-- An accepted address keeps its endpoint exactly if its port is in the range of
ports, or its name is not empty.  Every decoded address, reported as a source,
converts back to itself up to unmapping. -/
theorem net_addr_conversion_iff (v : NetAddrValue) (buf : Bytes) :
    (∀ a, addrToEWP v = .ok a → (KeepsEndpoint v a ↔ v.Convertible)) ∧
      ∀ a n, decodeAddress buf = .ok (a, n) →
        ∃ source, ewpToNetAddr a = some source ∧
          addrToEWP source.value = .ok a.unmap := by
  refine ⟨fun a hconv => keepsEndpoint_iff hconv, ?_⟩
  intro a n hdec
  obtain ⟨-, happ, hnorm⟩ := decodeAddress_ok hdec
  exact addrToEWP_reported hnorm ((Address.append_ok_iff a).mp ⟨_, happ⟩)

/-- `192.0.2.1:53`, and an encoded 4-in-6 address on port 80. -/
theorem net_addr_conversion_kept :
    KeepsEndpoint (.udp (some { ip := [192, 0, 2, 1], port := 53 }))
        { addr := ⟨.v4 ⟨[192, 0, 2, 1], rfl⟩, 53⟩ } ∧
      ∃ source,
        ewpToNetAddr
            { addr := ⟨.v6 ⟨mappedPrefix ++ [192, 0, 2, 1], rfl⟩ [], 80⟩ } =
          some source ∧
        addrToEWP source.value =
          .ok { addr := ⟨.v4 ⟨[192, 0, 2, 1], rfl⟩, 80⟩ } := by
  obtain ⟨hkept, hreported⟩ := net_addr_conversion_iff
    (.udp (some { ip := [192, 0, 2, 1], port := 53 }))
    ([2] ++ (mappedPrefix ++ [192, 0, 2, 1]) ++ [0, 80])
  refine ⟨(hkept _ rfl).mpr ?_, hreported _ 19 rfl⟩
  intro s hs
  cases hs
  decide

/-- Port 65589 becomes port 53, port -1 becomes 65535, and the empty name becomes
an address that stands for the default target. -/
theorem net_addr_conversion_lost :
    (∃ a, addrToEWP (.udp (some { ip := [192, 0, 2, 1], port := 65589 })) = .ok a ∧
        a.addr.port = 53 ∧
        ¬KeepsEndpoint (.udp (some { ip := [192, 0, 2, 1], port := 65589 })) a) ∧
      (∃ a, addrToEWP (.tcp (some { ip := [192, 0, 2, 1], port := -1 })) = .ok a ∧
        a.addr.port = 65535) ∧
      ∃ a, addrToEWP (.fqdn [] 53) = .ok a ∧ ¬a.IsTarget ∧
        (∀ globalID, buildUDPMeta globalID a = .ok globalID.val) ∧
        ¬KeepsEndpoint (.fqdn [] 53) a := by
  refine ⟨⟨_, rfl, rfl, ?_⟩, ⟨_, rfl, rfl⟩, _, rfl, ?_, fun _ => rfl, ?_⟩
  · rw [keepsEndpoint_iff rfl]
    intro hconv
    exact absurd (hconv _ rfl).2 (by decide)
  · simp [Address.IsTarget, Address.isDomain, AddrPort.isValid]
  · rw [keepsEndpoint_iff rfl]
    exact fun hne => hne rfl

end SingEwp
