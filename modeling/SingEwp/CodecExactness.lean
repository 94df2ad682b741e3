import SingEwp.CheckedRead
import SingEwp.Handshake

/-!
# The codecs accept exactly their own encodings

`DecodeAddress` and `DecodeClientHello` parse bytes that a stranger may have
chosen.  They are written here once more with every slice expression and index
checked; the length tests of the source turn out to cover all of them.  Together
with the round trips this gives the codecs their exact form: what is accepted,
what it is taken for, and that the two kinds of hello cannot be confused.
-/

namespace SingEwp

open Outcome

/-! ## Addresses -/

def decodeAddressChecked (buf : Bytes) : Outcome EwpError (Address × ℕ) := do
  rejectIf (buf.length < 1) .addrTooShort
  let kind ← byteAt buf 0
  if kind = 1 then
    rejectIf (buf.length < 1 + 4 + 2) .addrTooShort
    let ip ← sliceAt buf 1 5
    let port ← sliceAt buf 5 7
    return ({ addr := ⟨.v4 (FixedBytes.copyFrom 4 ip),
      UInt16.ofNat (getBE port)⟩ }, 7)
  else if kind = 2 then
    rejectIf (buf.length < 1 + 16 + 2) .addrTooShort
    let ip ← sliceAt buf 1 17
    let port ← sliceAt buf 17 19
    return ({ addr := ⟨.v6 (FixedBytes.copyFrom 16 ip) [],
      UInt16.ofNat (getBE port)⟩ }, 19)
  else if kind = 3 then
    rejectIf (buf.length < 2) .addrTooShort
    let count ← byteAt buf 1
    let dlen := count.toNat
    rejectIf (dlen = 0 ∨ maxDomainLen < dlen) .domainLen
    rejectIf (buf.length < 2 + dlen + 2) .addrTooShort
    let domain ← sliceAt buf 2 (2 + dlen)
    let port ← sliceAt buf (2 + dlen) (2 + dlen + 2)
    return ({ domain := domain, port := UInt16.ofNat (getBE port) },
      2 + dlen + 2)
  else .error .addrType

theorem decodeAddressChecked_eq (buf : Bytes) :
    decodeAddressChecked buf = ofExcept (decodeAddress buf) := by
  unfold decodeAddressChecked decodeAddress
  rw [rejectIf_bind]
  cases buf with
  | nil => rfl
  | cons kind rest =>
      rw [if_neg (by simp), byteAt_bind (by simp)]
      refine ite_ofExcept (fun _ => ?_) fun _ => ite_ofExcept (fun _ => ?_)
        fun _ => ite_ofExcept (fun _ => ?_) fun _ => rfl
      · rw [rejectIf_bind]
        refine ite_ofExcept (fun _ => rfl) fun hlong => ?_
        rw [sliceAt_bind (by omega) (by omega),
          sliceAt_bind (by omega) (by omega)]
        rfl
      · rw [rejectIf_bind]
        refine ite_ofExcept (fun _ => rfl) fun hlong => ?_
        rw [sliceAt_bind (by omega) (by omega),
          sliceAt_bind (by omega) (by omega)]
        rfl
      · rw [rejectIf_bind]
        cases rest with
        | nil => rfl
        | cons count rest =>
            rw [if_neg (by simp), byteAt_bind (by simp), rejectIf_bind]
            refine ite_ofExcept (fun _ => rfl) fun _ => ?_
            rw [rejectIf_bind]
            refine ite_ofExcept (fun _ => rfl) fun hlong => ?_
            rw [sliceAt_bind (by omega) (not_lt.mp hlong |> le_trans (by omega)),
              sliceAt_bind (by omega) (not_lt.mp hlong)]
            rfl

/-- The address codec is exact in both directions and stays inside its
input. -/
theorem address_codec_exact :
    (∀ (a : Address) (dst suffix out : Bytes), a.append dst = .ok out →
      ∃ e, out = dst ++ e ∧ e.length = a.encodedLen ∧
        decodeAddress (e ++ suffix) = .ok (a.wireNorm, a.encodedLen)) ∧
    (∀ (buf : Bytes) (a : Address) (n : ℕ), decodeAddress buf = .ok (a, n) →
      n ≤ buf.length ∧ a.append [] = .ok (buf.take n)) ∧
    ∀ buf : Bytes, decodeAddressChecked buf = ofExcept (decodeAddress buf) ∧
      decodeAddressChecked buf ≠ .panic := by
  refine ⟨?_, ?_, ?_⟩
  · intro a dst suffix out happ
    rw [Address.append_eq_map] at happ
    cases hnil : a.append [] with
    | error e => simp [hnil, Except.map] at happ
    | ok e =>
        have hlen := Address.append_length hnil
        refine ⟨e, ?_, hlen, ?_⟩
        · simpa [hnil, Except.map] using happ.symm
        · rw [decodeAddress_append hnil, hlen]
  · intro buf a n hdec
    obtain ⟨hle, happ, _⟩ := decodeAddress_ok hdec
    exact ⟨hle, happ⟩
  · intro buf
    rw [decodeAddressChecked_eq]
    exact ⟨rfl, ofExcept_ne_panic _⟩

/-- A link-local address behind one byte and before another: the zone is lost
and the neighbours are left alone. -/
theorem address_codec_exact_zoned :
    ∃ e, (Except.ok (7 :: e) : Except EwpError Bytes) =
        Address.append
          { addr := ⟨.v6 (FixedBytes.copyFrom 16 [0xfe, 0x80]) [0x65], 53⟩ }
          [7] ∧
      decodeAddress (e ++ [9]) =
        .ok ({ addr := ⟨.v6 (FixedBytes.copyFrom 16 [0xfe, 0x80]) [], 53⟩ },
          19) := by
  obtain ⟨e, hout, _, hdec⟩ := address_codec_exact.1
    { addr := ⟨.v6 (FixedBytes.copyFrom 16 [0xfe, 0x80]) [0x65], 53⟩ } [7] [9] _ rfl
  refine ⟨e, ?_, hdec⟩
  rw [← List.singleton_append, ← hout]
  rfl

/-! ## The ClientHello -/

def decodeHelloPlainChecked (nonce : HelloNonce)
    (cpub : FixedBytes x25519PubLen) (pqpub : FixedBytes mlkem768PubLen)
    (plain : Bytes) : Outcome EwpError ClientHello := do
  rejectIf (plain.length < 4 + uuidLen + 1 + 1 + 2) .plaintextLayout
  let timestamp ← sliceAt plain 0 4
  let user ← sliceAt plain 4 (4 + uuidLen)
  let command ← byteAt plain (4 + uuidLen)
  let rest ← sliceAt plain (4 + uuidLen + 1) plain.length
  let found ← (decodeAddressChecked rest).mapError .plaintextAddress
  let pos := 4 + uuidLen + 1 + found.2
  rejectIf (plain.length < pos + 2) .plaintextLayout
  let padLen ← sliceAt plain pos (pos + 2)
  rejectIf (plain.length ≠ pos + 2 + getBE padLen) .plaintextLayout
  return {
    nonce := nonce
    classicalPub := cpub
    pqPub := pqpub
    timestamp := UInt32.ofNat (getBE timestamp)
    uuid := FixedBytes.copyFrom uuidLen user
    command := ⟨command⟩
    address := found.1 }

def decodeClientHelloChecked (P : Primitives) (msg : Bytes) (uuid : Uuid) :
    Outcome EwpError ClientHello := do
  rejectIf (msg.length < fixedHeader + aeadTagLen + outerMACLen) .handshakeShort
  let nonceBytes ← sliceAt msg 0 12
  let nonce := FixedBytes.copyFrom handshakeNonce nonceBytes
  let cpub ← sliceAt msg 12 44
  let pqpub ← sliceAt msg 44 1228
  let ctLenBytes ← sliceAt msg 1228 1230
  let ctLen := getBE ctLenBytes
  rejectIf (ctLen ≤ aeadTagLen) .handshakeShort
  rejectIf (fixedHeader + ctLen + outerMACLen ≠ msg.length) .handshakeShort
  let cipher ← sliceAt msg fixedHeader (fixedHeader + ctLen)
  let aad ← sliceAt msg 0 fixedHeader
  match P.aeadOpen (handshakeAEADKey P uuid nonce) nonce cipher aad with
  | none => .error .aeadHandshake
  | some plain =>
      decodeHelloPlainChecked nonce (FixedBytes.copyFrom x25519PubLen cpub)
        (FixedBytes.copyFrom mlkem768PubLen pqpub) plain

theorem decodeHelloPlainChecked_eq
    (nonce : HelloNonce) (cpub : FixedBytes x25519PubLen)
    (pqpub : FixedBytes mlkem768PubLen) (plain : Bytes) :
    decodeHelloPlainChecked nonce cpub pqpub plain =
      ofExcept (decodeHelloPlain nonce cpub pqpub plain) := by
  unfold decodeHelloPlainChecked decodeHelloPlain
  rw [rejectIf_bind]
  refine ite_ofExcept (fun _ => rfl) fun hlong => ?_
  have hrest : slice plain (4 + uuidLen + 1) plain.length =
      plain.drop (4 + uuidLen + 1) := by
    rw [slice, List.take_length]
  rw [sliceAt_bind (by omega) (by omega), sliceAt_bind (by omega) (by omega),
    byteAt_bind (by omega), sliceAt_bind (by omega) (by omega), hrest,
    decodeAddressChecked_eq]
  cases decodeAddress (plain.drop (4 + uuidLen + 1)) with
  | error e => rfl
  | ok found =>
      change (rejectIf _ _ >>= _) = _
      rw [rejectIf_bind]
      refine ite_ofExcept (fun _ => rfl) fun hroom => ?_
      rw [sliceAt_bind (by omega) (not_lt.mp hroom), rejectIf_bind]
      exact ite_ofExcept (fun _ => rfl) fun _ => rfl

theorem decodeClientHelloChecked_eq
    (P : Primitives) (msg : Bytes) (uuid : Uuid) :
    decodeClientHelloChecked P msg uuid =
      ofExcept (decodeClientHello P msg uuid) := by
  unfold decodeClientHelloChecked decodeClientHello
  rw [rejectIf_bind]
  refine ite_ofExcept (fun _ => rfl) fun hlong => ?_
  have hroom : ∀ hi, hi ≤ fixedHeader → hi ≤ msg.length := by
    intro hi hle
    omega
  rw [sliceAt_bind (by simp) (hroom _ (by simp)),
    sliceAt_bind (by simp) (hroom _ (by simp)),
    sliceAt_bind (by simp) (hroom _ (by simp)),
    sliceAt_bind (by simp) (hroom _ (by simp)), rejectIf_bind]
  refine ite_ofExcept (fun _ => rfl) fun _ => ?_
  rw [rejectIf_bind]
  refine ite_ofExcept (fun _ => rfl) fun hexact => ?_
  have hcipher := not_not.mp hexact
  rw [sliceAt_bind (by omega) (by omega), sliceAt_bind (by simp) (hroom _ le_rfl)]
  dsimp only
  generalize P.aeadOpen _ _ _ _ = opened
  cases opened with
  | none => rfl
  | some plain => exact decodeHelloPlainChecked_eq _ _ _ _

/-- `DecodeClientHello` stays inside its input and accepts the layout of a hello
and nothing else; every hello whose address encodes has such a layout. -/
theorem client_hello_codec_exact
    (P : Primitives) (hseals : P.OpensOnlySeals) :
    (∀ (msg : Bytes) (uuid : Uuid),
      decodeClientHelloChecked P msg uuid =
          ofExcept (decodeClientHello P msg uuid) ∧
        decodeClientHelloChecked P msg uuid ≠ .panic) ∧
    (∀ (msg : Bytes) (uuid : Uuid) (ch : ClientHello),
      decodeClientHello P msg uuid = .ok ch ↔
        ch.wireNorm = ch ∧ HelloLayout P uuid ch msg) ∧
    (∀ (msg : Bytes) (uuid : Uuid) (ch : ClientHello),
      HelloLayout P uuid ch msg →
        decodeClientHello P msg uuid = .ok ch.wireNorm) ∧
    (∀ (ch : ClientHello) (draws : HelloPadDraws),
      encodeClientHello P ch draws ≠ .error .handshakeLong) ∧
    ∀ (ch : ClientHello) (draws : HelloPadDraws) (addrBuf : Bytes),
      ch.address.append [] = .ok addrBuf → (∀ n, draws.bytes n ≠ none) →
        ∃ wire, encodeClientHello P ch draws = .ok wire ∧
          decodeClientHello P wire ch.uuid = .ok ch.wireNorm := by
  refine ⟨?_, ?_, ?_, encodeClientHello_not_long P, ?_⟩
  · intro msg uuid
    rw [decodeClientHelloChecked_eq]
    exact ⟨rfl, ofExcept_ne_panic _⟩
  · intro msg uuid ch
    constructor
    · exact decodeClientHello_ok hseals
    · rintro ⟨hnorm, hlayout⟩
      rw [decodeClientHello_of_layout hlayout, hnorm]
  · intro msg uuid ch hlayout
    exact decodeClientHello_of_layout hlayout
  · intro ch draws addrBuf happ hpad
    obtain ⟨wire, henc⟩ := encodeClientHello_succeeds P
      (ch.address.append_ok_iff.mp ⟨addrBuf, happ⟩) hpad
    exact ⟨wire, henc, decodeClientHello_encode henc⟩

theorem client_hello_codec_exact_transparent :
    ∃ wire,
      encodeClientHello Transparent.suite (Transparent.hello 5)
          Transparent.zeroDraws = .ok wire ∧
        decodeClientHello Transparent.suite wire Transparent.user =
          .ok (Transparent.hello 5) := by
  obtain ⟨_, _, _, _, hround⟩ := client_hello_codec_exact Transparent.suite
    Transparent.opensOnlySeals
  exact hround (Transparent.hello 5) Transparent.zeroDraws [3, 1, 0x61, 0, 80]
    (by decide) (by simp [Transparent.zeroDraws])

/-! ## The two kinds of hello -/

theorem hellos_exact_and_disjoint (P : Primitives) :
    (∀ (uuid : Uuid) (msg : Bytes) (sh : ServerHello),
      decodeServerHello P msg uuid = .ok sh ↔
        msg = encodeServerHello P sh uuid) ∧
    ∀ (msg : Bytes) (uuid uuid' : Uuid) (sh : ServerHello) (ch : ClientHello),
      ¬ (decodeServerHello P msg uuid = .ok sh ∧
        decodeClientHello P msg uuid' = .ok ch) := by
  constructor
  · intro uuid msg sh
    constructor
    · exact decodeServerHello_ok
    · rintro rfl
      exact decodeServerHello_encode P sh uuid
  · rintro msg uuid uuid' sh ch ⟨hserver, hclient⟩
    have hlong := decodeClientHello_length hclient
    rw [decodeServerHello_length hserver] at hlong
    exact lt_irrefl _ hlong

end SingEwp
