import SingEwp.Protocol

/-!
# Addresses on the wire

The unified destination type of `address.go` and its codec.  An address with a
nonempty domain is encoded as a domain; otherwise its IP decides.  The codec
forgets whatever the chosen encoding does not carry, so a round trip returns the
wire-normalised address.
-/

namespace SingEwp

/-- `netip.Addr`.  The IPv6 form covers the 4-in-6 addresses, and only it has a
zone. -/
inductive NetipAddr where
  | invalid
  | v4 (ip : FixedBytes 4)
  | v6 (ip : FixedBytes 16) (zone : Bytes)
  deriving DecidableEq

structure AddrPort where
  addr : NetipAddr := .invalid
  port : UInt16 := 0
  deriving DecidableEq

def AddrPort.isValid (a : AddrPort) : Bool :=
  match a.addr with
  | .invalid => false
  | _ => true

structure Address where
  addr : AddrPort := {}
  domain : Bytes := []
  port : UInt16 := 0
  deriving DecidableEq

namespace Address

def isDomain (a : Address) : Bool := a.domain ≠ []

def encodedLen (a : Address) : ℕ :=
  if a.isDomain then 1 + 1 + a.domain.length + 2
  else
    match a.addr.addr with
    | .v6 _ _ => 1 + 16 + 2
    | _ => 1 + 4 + 2

/-- `Address.Append`.  On an error the destination is returned unchanged, so
the error carries no bytes here. -/
def append (a : Address) (dst : Bytes) : Except EwpError Bytes :=
  if a.isDomain then
    if a.domain.length = 0 ∨ maxDomainLen < a.domain.length then
      .error .domainLen
    else
      .ok (dst ++ ([3, UInt8.ofNat a.domain.length] ++
        (a.domain ++ putBE 2 a.port.toNat)))
  else
    match a.addr.addr with
    | .v4 ip => .ok (dst ++ ([1] ++ (ip.val ++ putBE 2 a.addr.port.toNat)))
    | .v6 ip _ => .ok (dst ++ ([2] ++ (ip.val ++ putBE 2 a.addr.port.toNat)))
    | .invalid => .error .invalidAddress

/-- What the wire keeps of an address. -/
def wireNorm (a : Address) : Address :=
  if a.isDomain then { domain := a.domain, port := a.port }
  else
    match a.addr.addr with
    | .v4 ip => { addr := ⟨.v4 ip, a.addr.port⟩ }
    | .v6 ip _ => { addr := ⟨.v6 ip [], a.addr.port⟩ }
    | .invalid => {}

def Encodable (a : Address) : Prop :=
  (a.isDomain = true ∧ a.domain.length ≤ maxDomainLen) ∨
    (a.isDomain = false ∧ a.addr.isValid = true)

instance (a : Address) : Decidable a.Encodable :=
  inferInstanceAs (Decidable (_ ∨ _))

end Address

/-- `DecodeAddress`: the address at the front of `buf` and the bytes it took. -/
def decodeAddress (buf : Bytes) : Except EwpError (Address × ℕ) :=
  match buf with
  | [] => .error .addrTooShort
  | kind :: _ =>
      if kind = 1 then
        if buf.length < 1 + 4 + 2 then .error .addrTooShort
        else
          .ok ({ addr := ⟨.v4 (FixedBytes.copyFrom 4 (slice buf 1 5)),
            UInt16.ofNat (getBE (slice buf 5 7))⟩ }, 7)
      else if kind = 2 then
        if buf.length < 1 + 16 + 2 then .error .addrTooShort
        else
          .ok ({ addr := ⟨.v6 (FixedBytes.copyFrom 16 (slice buf 1 17)) [],
            UInt16.ofNat (getBE (slice buf 17 19))⟩ }, 19)
      else if kind = 3 then
        match buf[1]? with
        | none => .error .addrTooShort
        | some count =>
            let dlen := count.toNat
            if dlen = 0 ∨ maxDomainLen < dlen then .error .domainLen
            else if buf.length < 2 + dlen + 2 then .error .addrTooShort
            else
              .ok ({ domain := slice buf 2 (2 + dlen)
                     port := UInt16.ofNat
                       (getBE (slice buf (2 + dlen) (2 + dlen + 2))) },
                2 + dlen + 2)
      else .error .addrType

/-! ## Appending -/

namespace Address

@[simp] theorem isDomain_eq_true_iff (a : Address) :
    a.isDomain = true ↔ a.domain ≠ [] := by
  simp [isDomain]

theorem append_eq_map (a : Address) (dst : Bytes) :
    a.append dst = (a.append []).map (dst ++ ·) := by
  unfold append
  split
  · split <;> simp [Except.map]
  · cases a.addr.addr <;> simp [Except.map]

theorem append_ok_iff (a : Address) :
    (∃ e, a.append [] = .ok e) ↔ a.Encodable := by
  unfold append Encodable
  by_cases hdom : a.domain = []
  · cases haddr : a.addr.addr <;>
      simp [hdom, AddrPort.isValid, haddr, isDomain]
  · have hpos : a.domain.length ≠ 0 := by simpa using hdom
    by_cases hlong : maxDomainLen < a.domain.length
    · simp [isDomain, hdom, hpos, hlong]
    · simp [isDomain, hdom, hpos, hlong]
      simpa using hlong

theorem append_error
    {a : Address} {dst : Bytes} {e : EwpError} (happ : a.append dst = .error e) :
    e = .domainLen ∨ e = .invalidAddress := by
  unfold append at happ
  split at happ
  · split at happ
    · exact .inl (Except.error.inj happ).symm
    · simp at happ
  · cases haddr : a.addr.addr with
    | invalid =>
        simp only [haddr, Except.error.injEq] at happ
        exact .inr happ.symm
    | v4 ip => simp [haddr] at happ
    | v6 ip zone => simp [haddr] at happ

theorem append_length
    {a : Address} {e : Bytes} (happ : a.append [] = .ok e) :
    e.length = a.encodedLen := by
  unfold append at happ
  unfold encodedLen
  split at happ
  · rename_i hdom
    split at happ
    · simp at happ
    · simp only [List.nil_append, Except.ok.injEq] at happ
      subst happ
      simp [hdom]
      omega
  · rename_i hdom
    cases haddr : a.addr.addr with
    | invalid => simp [haddr] at happ
    | v4 ip =>
        simp only [haddr, List.nil_append, Except.ok.injEq] at happ
        subst happ
        simp [hdom, ip.property]
    | v6 ip zone =>
        simp only [haddr, List.nil_append, Except.ok.injEq] at happ
        subst happ
        simp [hdom, ip.property]

theorem encodedLen_le {a : Address} (hvalid : a.Encodable) :
    a.encodedLen ≤ 1 + 1 + maxDomainLen + 2 := by
  unfold encodedLen
  rcases hvalid with ⟨hdom, hlen⟩ | ⟨hdom, _⟩
  · simp only [hdom, if_true]
    omega
  · simp only [hdom]
    split
    · simp_all
    · split <;> simp

end Address

/-! ## Round trip -/

theorem uint16_getBE_putBE (port : UInt16) :
    UInt16.ofNat (getBE (putBE 2 port.toNat)) = port := by
  rw [getBE_putBE_of_lt (by simpa using port.toNat_lt)]
  simp

private theorem slices_ipBlock
    {n : ℕ} (kind : UInt8) (ip : FixedBytes n) (port suffix : Bytes)
    (hport : port.length = 2) :
    slice ([kind] ++ (ip.val ++ port) ++ suffix) 1 (1 + n) = ip.val ∧
      slice ([kind] ++ (ip.val ++ port) ++ suffix) (1 + n) (1 + n + 2) = port ∧
      ¬ ([kind] ++ (ip.val ++ port) ++ suffix).length < 1 + n + 2 := by
  refine ⟨?_, ?_, ?_⟩
  · simpa using slice_middle (a := [kind]) (b := ip.val) (c := port ++ suffix)
      rfl (by simp [ip.property])
  · simpa using slice_middle (a := kind :: ip.val) (b := port) (c := suffix)
      (by simp [ip.property]; omega) (by rw [hport])
  · simp [ip.property, hport]
    omega

private theorem decodeAddress_ip4
    (ip : FixedBytes 4) (port : UInt16) (suffix : Bytes) :
    decodeAddress ([1] ++ (ip.val ++ putBE 2 port.toNat) ++ suffix) =
      .ok ({ addr := ⟨.v4 ip, port⟩ }, 7) := by
  obtain ⟨hip, hport, hlong⟩ :=
    slices_ipBlock 1 ip (putBE 2 port.toNat) suffix (by simp)
  simp only [List.cons_append] at hip hport hlong ⊢
  simp only [decodeAddress, if_true, if_neg hlong, hip, hport,
    FixedBytes.copyFrom_val, uint16_getBE_putBE]

private theorem decodeAddress_ip6
    (ip : FixedBytes 16) (port : UInt16) (suffix : Bytes) :
    decodeAddress ([2] ++ (ip.val ++ putBE 2 port.toNat) ++ suffix) =
      .ok ({ addr := ⟨.v6 ip [], port⟩ }, 19) := by
  obtain ⟨hip, hport, hlong⟩ :=
    slices_ipBlock 2 ip (putBE 2 port.toNat) suffix (by simp)
  have hkind : ¬ (2 : UInt8) = 1 := by decide
  simp only [List.cons_append] at hip hport hlong ⊢
  simp only [decodeAddress, if_neg hkind, if_true, if_neg hlong, hip, hport,
    FixedBytes.copyFrom_val, uint16_getBE_putBE]

private theorem decodeAddress_domain
    (domain : Bytes) (port : UInt16) (suffix : Bytes)
    (hpos : domain ≠ []) (hmax : domain.length ≤ maxDomainLen) :
    decodeAddress ([3, UInt8.ofNat domain.length] ++
        (domain ++ putBE 2 port.toNat) ++ suffix) =
      .ok ({ domain := domain, port := port }, 2 + domain.length + 2) := by
  set count := UInt8.ofNat domain.length with hcount
  have hdlen : count.toNat = domain.length := by
    rw [hcount, UInt8.toNat_ofNat']
    exact Nat.mod_eq_of_lt (by simp at hmax; omega)
  have hdomain : slice ([3, count] ++ (domain ++ putBE 2 port.toNat) ++ suffix)
      2 (2 + domain.length) = domain := by
    simpa using slice_middle (a := [3, count]) (b := domain)
      (c := putBE 2 port.toNat ++ suffix) rfl rfl
  have hport : slice ([3, count] ++ (domain ++ putBE 2 port.toNat) ++ suffix)
      (2 + domain.length) (2 + domain.length + 2) = putBE 2 port.toNat := by
    simpa using slice_middle (a := 3 :: count :: domain)
      (b := putBE 2 port.toNat) (c := suffix) (by simp; omega) (by simp)
  have hlong : ¬ ([3, count] ++ (domain ++ putBE 2 port.toNat) ++
      suffix).length < 2 + domain.length + 2 := by
    simp
    omega
  have hone : ¬ (3 : UInt8) = 1 := by decide
  have htwo : ¬ (3 : UInt8) = 2 := by decide
  have hrange : ¬ (domain.length = 0 ∨ maxDomainLen < domain.length) := by
    have : domain.length ≠ 0 := by simpa using hpos
    omega
  simp only [List.cons_append, List.nil_append] at hdomain hport hlong ⊢
  simp only [decodeAddress, if_neg hone, if_neg htwo, if_true,
    List.getElem?_cons_succ, List.getElem?_cons_zero, hdlen, if_neg hrange,
    if_neg hlong, hdomain, hport, uint16_getBE_putBE]

theorem decodeAddress_append
    {a : Address} {e : Bytes} (happ : a.append [] = .ok e) (suffix : Bytes) :
    decodeAddress (e ++ suffix) = .ok (a.wireNorm, e.length) := by
  unfold Address.append at happ
  unfold Address.wireNorm
  split at happ
  · rename_i hdom
    split at happ
    · simp at happ
    · rename_i hrange
      simp only [List.nil_append, Except.ok.injEq] at happ
      subst happ
      rw [decodeAddress_domain _ _ _ (by simpa using hdom) (by omega),
        if_pos hdom]
      simp
      omega
  · rename_i hdom
    rw [if_neg hdom]
    cases haddr : a.addr.addr with
    | invalid => simp [haddr] at happ
    | v4 ip =>
        simp only [haddr, List.nil_append, Except.ok.injEq] at happ
        subst happ
        rw [decodeAddress_ip4]
        simp [ip.property]
    | v6 ip zone =>
        simp only [haddr, List.nil_append, Except.ok.injEq] at happ
        subst happ
        rw [decodeAddress_ip6]
        simp [ip.property]

/-! ## What is accepted is an encoding -/

theorem putBE_uint16_getBE {b : Bytes} (hlen : b.length = 2) :
    putBE 2 (UInt16.ofNat (getBE b)).toNat = b := by
  have hlt : getBE b < UInt16.size := by
    simpa [hlen, UInt16.size] using getBE_lt b
  rw [UInt16.toNat_ofNat_of_lt' hlt, putBE_getBE_of_length hlen]

private theorem ipBlock_eq_take
    {n : ℕ} {kind : UInt8} {rest : Bytes}
    (hlong : 1 + n + 2 ≤ (kind :: rest).length) :
    [kind] ++ ((FixedBytes.copyFrom n (slice (kind :: rest) 1 (1 + n))).val ++
        putBE 2 (UInt16.ofNat
          (getBE (slice (kind :: rest) (1 + n) (1 + n + 2)))).toNat) =
      (kind :: rest).take (1 + n + 2) := by
  have hip : (slice (kind :: rest) 1 (1 + n)).length = n := by
    rw [slice_length]
    omega
  have hport : (slice (kind :: rest) (1 + n) (1 + n + 2)).length = 2 := by
    rw [slice_length]
    omega
  have hkind : [kind] = slice (kind :: rest) 0 1 := rfl
  rw [FixedBytes.copyFrom_val_of_length hip, putBE_uint16_getBE hport, hkind,
    slice_append_slice _ (by omega) (by omega),
    slice_append_slice _ (by omega) (by omega)]
  rfl

private theorem domainBlock_eq_take
    {kind count : UInt8} {rest : Bytes}
    (hlong : 2 + count.toNat + 2 ≤ (kind :: count :: rest).length) :
    [kind, count] ++ (slice (kind :: count :: rest) 2 (2 + count.toNat) ++
        putBE 2 (UInt16.ofNat (getBE (slice (kind :: count :: rest)
          (2 + count.toNat) (2 + count.toNat + 2)))).toNat) =
      (kind :: count :: rest).take (2 + count.toNat + 2) := by
  have hport : (slice (kind :: count :: rest) (2 + count.toNat)
      (2 + count.toNat + 2)).length = 2 := by
    rw [slice_length]
    omega
  have hkind : [kind, count] = slice (kind :: count :: rest) 0 2 := rfl
  rw [putBE_uint16_getBE hport, hkind,
    slice_append_slice _ (by omega) (by omega),
    slice_append_slice _ (by omega) (by omega)]
  rfl

/-- The bytes an address was read from are its encoding, and it has nothing but
what they carry. -/
theorem decodeAddress_ok
    {buf : Bytes} {a : Address} {n : ℕ} (hdec : decodeAddress buf = .ok (a, n)) :
    n ≤ buf.length ∧ a.append [] = .ok (buf.take n) ∧ a.wireNorm = a := by
  unfold decodeAddress at hdec
  split at hdec
  · simp at hdec
  rename_i kind rest
  split_ifs at hdec with hip4 hlong hip6 hlong hdomain
  · simp only [Except.ok.injEq, Prod.mk.injEq] at hdec
    obtain ⟨rfl, rfl⟩ := hdec
    subst hip4
    refine ⟨not_lt.mp hlong, ?_, rfl⟩
    rw [← ipBlock_eq_take (n := 4) (not_lt.mp hlong)]
    rfl
  · simp only [Except.ok.injEq, Prod.mk.injEq] at hdec
    obtain ⟨rfl, rfl⟩ := hdec
    subst hip6
    refine ⟨not_lt.mp hlong, ?_, rfl⟩
    rw [← ipBlock_eq_take (n := 16) (not_lt.mp hlong)]
    rfl
  · subst hdomain
    cases rest with
    | nil => simp at hdec
    | cons count rest =>
        simp only [List.getElem?_cons_succ, List.getElem?_cons_zero] at hdec
        split_ifs at hdec with hcount hshort
        simp only [Except.ok.injEq, Prod.mk.injEq] at hdec
        obtain ⟨rfl, rfl⟩ := hdec
        have hlong := not_lt.mp hshort
        have hdlen : (slice (3 :: count :: rest) 2 (2 + count.toNat)).length =
            count.toNat := by
          rw [slice_length]
          omega
        have hne : slice (3 :: count :: rest) 2 (2 + count.toNat) ≠ [] := by
          intro hnil
          rw [hnil, List.length_nil] at hdlen
          omega
        refine ⟨hlong, ?_, ?_⟩
        · rw [← domainBlock_eq_take hlong]
          simp only [Address.append, Address.isDomain, ne_eq, hne, hdlen,
            not_false_eq_true, decide_true, if_true, if_neg hcount,
            List.nil_append, UInt8.ofNat_toNat]
        · simp only [Address.wireNorm, Address.isDomain, ne_eq, hne,
            not_false_eq_true, decide_true, if_true]

end SingEwp
