import SingEwp.Address
import SingEwp.Primitives

/-!
# The hello messages on the wire

The codecs of `handshake.go`.  A ClientHello is a clear header, a sealed inner
part and an outer MAC; a ServerHello is a clear body and an outer MAC.  The round
trips below hold for every law-abiding suite of primitives, and the two formats
are told apart by their lengths alone.
-/

namespace SingEwp

structure Command where
  code : UInt8
  deriving DecidableEq

def commandTCP : Command := ⟨1⟩
def commandUDP : Command := ⟨2⟩

structure ClientHello where
  nonce : HelloNonce
  classicalPub : FixedBytes x25519PubLen
  pqPub : FixedBytes mlkem768PubLen
  timestamp : UInt32
  uuid : Uuid
  command : Command
  address : Address
  deriving DecidableEq

structure ServerHello where
  nonceEcho : HelloNonce
  classicalPub : FixedBytes x25519PubLen
  pqCipher : FixedBytes mlkem768CipherL
  serverTime : UInt32
  status : UInt8
  deriving DecidableEq

/-- What the wire keeps of a ClientHello. -/
def ClientHello.wireNorm (ch : ClientHello) : ClientHello :=
  { ch with address := ch.address.wireNorm }

/-- The random reads of `EncodeClientHello`. -/
structure HelloPadDraws where
  size : RandRead
  bytes : RandRead

def suggestPadLen (minPad maxPad : ℤ) (draw : RandRead) : ℤ :=
  let minPad := if minPad < 0 then 0 else minPad
  let maxPad := if (maxFramePad : ℤ) < maxPad then (maxFramePad : ℤ) else maxPad
  if maxPad ≤ minPad then minPad
  else
    let span := maxPad - minPad + 1
    match draw 4 with
    | none => minPad
    | some b => minPad + ((getBE b.val &&& 0x7fffffff : ℕ) : ℤ) % span

/-! ## ClientHello -/

def helloInner (ch : ClientHello) (addrBuf pad : Bytes) : Bytes :=
  putBE 4 ch.timestamp.toNat ++ (ch.uuid.val ++ ([ch.command.code] ++
    (addrBuf ++ (putBE 2 pad.length ++ pad))))

/-- The clear header, which is also the additional data of the sealed part. -/
def helloHeader (ch : ClientHello) (ctLen : ℕ) : Bytes :=
  ch.nonce.val ++ (ch.classicalPub.val ++ (ch.pqPub.val ++ putBE 2 ctLen))

def encodeClientHello (P : Primitives) (ch : ClientHello)
    (draws : HelloPadDraws) : Except EwpError Bytes :=
  match ch.address.append [] with
  | .error e => .error e
  | .ok addrBuf =>
      let padLen := (suggestPadLen minHandshakePad maxHandshakePad
        draws.size).toNat
      match draws.bytes padLen with
      | none => .error .padRand
      | some pad =>
          let inner := helloInner ch addrBuf pad.val
          let key := handshakeAEADKey P ch.uuid ch.nonce
          let ctLen := inner.length + aeadTagLen
          if 65535 < ctLen then .error .handshakeLong
          else
            let aad := helloHeader ch ctLen
            let out := aad ++ P.aeadSeal key ch.nonce inner aad
            .ok (out ++ (outerMAC P ch.uuid out).val)

/-- `HandshakeNonce + X25519PubLen + MLKEM768PubLen + 2`. -/
@[simp] abbrev fixedHeader : ℕ := 12 + 32 + 1184 + 2

/-- The parse of the opened plaintext at the end of `DecodeClientHello`. -/
def decodeHelloPlain (nonce : HelloNonce)
    (cpub : FixedBytes x25519PubLen) (pqpub : FixedBytes mlkem768PubLen)
    (plain : Bytes) : Except EwpError ClientHello :=
  if plain.length < 4 + uuidLen + 1 + 1 + 2 then .error .plaintextLayout
  else
    match decodeAddress (plain.drop (4 + uuidLen + 1)) with
    | .error e => .error (.plaintextAddress e)
    | .ok (addr, n) =>
        let pos := 4 + uuidLen + 1 + n
        if plain.length < pos + 2 then .error .plaintextLayout
        else
          let padLen := getBE (slice plain pos (pos + 2))
          if plain.length ≠ pos + 2 + padLen then .error .plaintextLayout
          else
            .ok
              { nonce := nonce
                classicalPub := cpub
                pqPub := pqpub
                timestamp := UInt32.ofNat (getBE (slice plain 0 4))
                uuid := FixedBytes.copyFrom uuidLen (slice plain 4 20)
                command := ⟨plain.getD 20 0⟩
                address := addr }

def decodeClientHello (P : Primitives) (msg : Bytes) (uuid : Uuid) :
    Except EwpError ClientHello :=
  if msg.length < fixedHeader + aeadTagLen + outerMACLen then
    .error .handshakeShort
  else
    let nonce := FixedBytes.copyFrom handshakeNonce (slice msg 0 12)
    let cpub := FixedBytes.copyFrom x25519PubLen (slice msg 12 44)
    let pqpub := FixedBytes.copyFrom mlkem768PubLen (slice msg 44 1228)
    let ctLen := getBE (slice msg 1228 1230)
    if ctLen ≤ aeadTagLen then .error .handshakeShort
    else if fixedHeader + ctLen + outerMACLen ≠ msg.length then
      .error .handshakeShort
    else
      let cipher := slice msg fixedHeader (fixedHeader + ctLen)
      let aad := slice msg 0 fixedHeader
      match P.aeadOpen (handshakeAEADKey P uuid nonce) nonce cipher aad with
      | none => .error .aeadHandshake
      | some plain => decodeHelloPlain nonce cpub pqpub plain

/-! ## ServerHello -/

def serverHelloBody (sh : ServerHello) : Bytes :=
  sh.nonceEcho.val ++ (sh.classicalPub.val ++ (sh.pqCipher.val ++
    (putBE 4 sh.serverTime.toNat ++ [sh.status])))

/-- `EncodeServerHello`, which never fails. -/
def encodeServerHello (P : Primitives) (sh : ServerHello) (uuid : Uuid) :
    Bytes :=
  serverHelloBody sh ++ (outerMAC P uuid (serverHelloBody sh)).val

/-- `HandshakeNonce + X25519PubLen + MLKEM768CipherL + 4 + 1 + OuterMACLen`. -/
@[simp] abbrev serverHelloLen : ℕ := 12 + 32 + 1088 + 4 + 1 + 16

def decodeServerHello (P : Primitives) (msg : Bytes) (uuid : Uuid) :
    Except EwpError ServerHello :=
  if msg.length ≠ serverHelloLen then .error .handshakeShort
  else
    let macOff := serverHelloLen - outerMACLen
    let tag := FixedBytes.copyFrom outerMACLen (msg.drop macOff)
    if !verifyOuterMAC P uuid (msg.take macOff) tag then .error .outerMAC
    else
      .ok
        { nonceEcho := FixedBytes.copyFrom handshakeNonce (slice msg 0 12)
          classicalPub := FixedBytes.copyFrom x25519PubLen (slice msg 12 44)
          pqCipher := FixedBytes.copyFrom mlkem768CipherL (slice msg 44 1132)
          serverTime := UInt32.ofNat (getBE (slice msg 1132 1136))
          status := msg.getD 1136 0 }

/-! ## Lengths -/

theorem helloHeader_length (ch : ClientHello) (ctLen : ℕ) :
    (helloHeader ch ctLen).length = fixedHeader := by
  simp [helloHeader, ch.nonce.property, ch.classicalPub.property,
    ch.pqPub.property]

theorem helloInner_length (ch : ClientHello) (addrBuf pad : Bytes) :
    (helloInner ch addrBuf pad).length =
      4 + uuidLen + 1 + addrBuf.length + 2 + pad.length := by
  simp [helloInner, ch.uuid.property]
  omega

theorem serverHelloBody_length (sh : ServerHello) :
    (serverHelloBody sh).length = serverHelloLen - outerMACLen := by
  simp [serverHelloBody, sh.nonceEcho.property, sh.classicalPub.property,
    sh.pqCipher.property]

theorem encodeServerHello_length
    (P : Primitives) (sh : ServerHello) (uuid : Uuid) :
    (encodeServerHello P sh uuid).length = serverHelloLen := by
  rw [encodeServerHello, List.length_append, serverHelloBody_length,
    (outerMAC P uuid (serverHelloBody sh)).property]
  rfl

/-- The message built around an inner plaintext: the clear header and the
sealed part. -/
def helloSealed (P : Primitives) (ch : ClientHello) (inner : Bytes) : Bytes :=
  helloHeader ch (inner.length + aeadTagLen) ++
    P.aeadSeal (handshakeAEADKey P ch.uuid ch.nonce) ch.nonce inner
      (helloHeader ch (inner.length + aeadTagLen))

def clientHelloWire (P : Primitives) (ch : ClientHello) (inner : Bytes) :
    Bytes :=
  helloSealed P ch inner ++ (outerMAC P ch.uuid (helloSealed P ch inner)).val

theorem encodeClientHello_ok
    {P : Primitives} {ch : ClientHello} {draws : HelloPadDraws} {wire : Bytes}
    (henc : encodeClientHello P ch draws = .ok wire) :
    ∃ addrBuf pad,
      ch.address.append [] = .ok addrBuf ∧
      (helloInner ch addrBuf pad).length + aeadTagLen ≤ 65535 ∧
      wire = clientHelloWire P ch (helloInner ch addrBuf pad) := by
  unfold encodeClientHello at henc
  cases happ : ch.address.append [] with
  | error e => simp [happ] at henc
  | ok addrBuf =>
      simp only [happ] at henc
      split at henc
      · simp at henc
      · rename_i pad _
        split at henc
        · simp at henc
        · rename_i hlong
          simp only [Except.ok.injEq] at henc
          exact ⟨addrBuf, pad.val, rfl, by omega, henc.symm⟩

theorem suggestPadLen_le
    (minPad maxPad : ℤ) (draw : RandRead)
    (hmin : 0 ≤ minPad) (hle : minPad ≤ maxPad) (hmax : maxPad ≤ maxFramePad) :
    suggestPadLen minPad maxPad draw ≤ maxPad := by
  have hclampMin : (if minPad < 0 then 0 else minPad) = minPad :=
    if_neg (not_lt.mpr hmin)
  have hclampMax :
      (if (maxFramePad : ℤ) < maxPad then (maxFramePad : ℤ) else maxPad) =
        maxPad := if_neg (not_lt.mpr hmax)
  unfold suggestPadLen
  simp only [hclampMin, hclampMax]
  by_cases hspan : maxPad ≤ minPad
  · rw [if_pos hspan]
    exact hle
  · rw [if_neg hspan]
    cases draw 4 with
    | none => exact hle
    | some b =>
        have hmod := Int.emod_lt_of_pos ((getBE b.val &&& 0x7fffffff : ℕ) : ℤ)
          (show 0 < maxPad - minPad + 1 by omega)
        dsimp only
        omega

/-- The longest address and the longest pad leave the hello far from its limit. -/
theorem helloInner_fits
    {ch : ClientHello} {addrBuf : Bytes} {draw : RandRead}
    (happ : ch.address.append [] = .ok addrBuf)
    (pad : FixedBytes
      (suggestPadLen minHandshakePad maxHandshakePad draw).toNat) :
    (helloInner ch addrBuf pad.val).length + aeadTagLen ≤ 65535 := by
  have haddrMax := Address.encodedLen_le (ch.address.append_ok_iff.mp ⟨_, happ⟩)
  rw [← Address.append_length happ] at haddrMax
  have hpadLen : pad.val.length ≤ 1024 := by
    rw [pad.property]
    exact Int.toNat_le.mpr (suggestPadLen_le minHandshakePad maxHandshakePad draw
      (by simp) (by simp) (by simp))
  rw [helloInner_length]
  simp at haddrMax ⊢
  omega

/-- Only an address the wire cannot carry and a failing random source keep a
hello from being encoded. -/
theorem encodeClientHello_succeeds
    (P : Primitives) {ch : ClientHello} {draws : HelloPadDraws}
    (haddr : ch.address.Encodable) (hpad : ∀ n, draws.bytes n ≠ none) :
    ∃ wire, encodeClientHello P ch draws = .ok wire := by
  obtain ⟨addrBuf, happ⟩ := ch.address.append_ok_iff.mpr haddr
  unfold encodeClientHello
  simp only [happ]
  split
  · rename_i hnone
    exact absurd hnone (hpad _)
  · rename_i pad _
    rw [if_neg (not_lt.mpr (helloInner_fits happ pad))]
    exact ⟨_, rfl⟩

theorem encodeClientHello_not_long
    (P : Primitives) (ch : ClientHello) (draws : HelloPadDraws) :
    encodeClientHello P ch draws ≠ .error .handshakeLong := by
  unfold encodeClientHello
  cases happ : ch.address.append [] with
  | error e =>
      rcases Address.append_error happ with rfl | rfl
      · simp
      · simp
  | ok addrBuf =>
      dsimp only
      split
      · simp
      · rename_i pad _
        rw [if_neg (not_lt.mpr (helloInner_fits happ pad))]
        simp

theorem helloSealed_length
    (P : Primitives) (ch : ClientHello) (inner : Bytes) :
    (helloSealed P ch inner).length =
      fixedHeader + (inner.length + aeadTagLen) := by
  rw [helloSealed, List.length_append, helloHeader_length,
    P.aeadSeal_length]

theorem clientHelloWire_length
    (P : Primitives) (ch : ClientHello) (inner : Bytes) :
    (clientHelloWire P ch inner).length =
      fixedHeader + (inner.length + aeadTagLen) + outerMACLen := by
  rw [clientHelloWire, List.length_append, helloSealed_length,
    (outerMAC P ch.uuid (helloSealed P ch inner)).property]

theorem encodeClientHello_length_gt
    {P : Primitives} {ch : ClientHello} {draws : HelloPadDraws} {wire : Bytes}
    (henc : encodeClientHello P ch draws = .ok wire) :
    serverHelloLen < wire.length := by
  obtain ⟨addrBuf, pad, _, _, hwire⟩ := encodeClientHello_ok henc
  rw [hwire, clientHelloWire_length]
  simp
  omega

theorem decodeClientHello_length
    {P : Primitives} {msg : Bytes} {uuid : Uuid} {ch : ClientHello}
    (hdec : decodeClientHello P msg uuid = .ok ch) :
    serverHelloLen < msg.length := by
  unfold decodeClientHello at hdec
  split at hdec
  · simp at hdec
  · rename_i hshort
    simp at hshort ⊢
    omega

theorem decodeServerHello_length
    {P : Primitives} {msg : Bytes} {uuid : Uuid} {sh : ServerHello}
    (hdec : decodeServerHello P msg uuid = .ok sh) :
    msg.length = serverHelloLen := by
  unfold decodeServerHello at hdec
  split at hdec
  · simp at hdec
  · rename_i hlen
    exact not_not.mp hlen

/-! ## Round trips -/

theorem uint32_getBE_putBE (value : UInt32) :
    UInt32.ofNat (getBE (putBE 4 value.toNat)) = value := by
  rw [getBE_putBE_of_lt (by simpa using value.toNat_lt)]
  simp

theorem decodeHelloPlain_helloInner
    {ch : ClientHello} {addrBuf pad : Bytes}
    (happ : ch.address.append [] = .ok addrBuf) (hpad : pad.length < 65536) :
    decodeHelloPlain ch.nonce ch.classicalPub ch.pqPub
        (helloInner ch addrBuf pad) = .ok ch.wireNorm := by
  have huuid := ch.uuid.property
  have hlen := helloInner_length ch addrBuf pad
  have haddr := decodeAddress_append happ (putBE 2 pad.length ++ pad)
  have hkind : 0 < addrBuf.length := by
    rw [Address.append_length happ]
    unfold Address.encodedLen
    split
    · omega
    · split <;> omega
  have htime : slice (helloInner ch addrBuf pad) 0 4 =
      putBE 4 ch.timestamp.toNat :=
    slice_middle (a := []) (b := putBE 4 ch.timestamp.toNat) rfl (by simp)
  have huser : slice (helloInner ch addrBuf pad) 4 20 = ch.uuid.val :=
    slice_middle (by simp) (by simp [huuid])
  have hcommand : (helloInner ch addrBuf pad).getD 20 0 = ch.command.code := by
    simp [helloInner, List.getD_eq_getElem?_getD,
      List.getElem?_append_right, huuid]
  have hrest : (helloInner ch addrBuf pad).drop (4 + uuidLen + 1) =
      addrBuf ++ (putBE 2 pad.length ++ pad) := by
    have hsplit : helloInner ch addrBuf pad =
        (putBE 4 ch.timestamp.toNat ++ (ch.uuid.val ++ [ch.command.code])) ++
          (addrBuf ++ (putBE 2 pad.length ++ pad)) := by
      simp [helloInner]
    rw [hsplit]
    exact List.drop_left' (by simp [huuid])
  have hpadLen : slice (helloInner ch addrBuf pad)
      (4 + uuidLen + 1 + addrBuf.length)
      (4 + uuidLen + 1 + addrBuf.length + 2) = putBE 2 pad.length := by
    have hsplit : helloInner ch addrBuf pad =
        (putBE 4 ch.timestamp.toNat ++ (ch.uuid.val ++ ([ch.command.code] ++
          addrBuf))) ++ (putBE 2 pad.length ++ pad) := by
      simp [helloInner]
    rw [hsplit]
    exact slice_middle (by simp [huuid]; omega) (by simp)
  have hsize : getBE (putBE 2 pad.length) = pad.length :=
    getBE_putBE_of_lt (by simpa using hpad)
  unfold decodeHelloPlain
  rw [if_neg (by rw [hlen]; omega), hrest, haddr]
  dsimp only
  rw [if_neg (by rw [hlen]; omega), hpadLen, hsize,
    if_neg (by rw [hlen]; omega), htime, huser, hcommand,
    uint32_getBE_putBE, FixedBytes.copyFrom_val]
  rfl

/-- `msg` is the layout of `ch` sealed for `uuid`, with any outer MAC field. -/
def HelloLayout (P : Primitives) (uuid : Uuid) (ch : ClientHello) (msg : Bytes) :
    Prop :=
  ∃ addrBuf pad mac : Bytes,
    ch.address.append [] = .ok addrBuf ∧ mac.length = outerMACLen ∧
    (helloInner ch addrBuf pad).length + aeadTagLen ≤ 65535 ∧
    msg = helloHeader ch ((helloInner ch addrBuf pad).length + aeadTagLen) ++
      (P.aeadSeal (handshakeAEADKey P uuid ch.nonce) ch.nonce
        (helloInner ch addrBuf pad)
        (helloHeader ch ((helloInner ch addrBuf pad).length + aeadTagLen)) ++
          mac)

theorem decodeClientHello_of_layout
    {P : Primitives} {uuid : Uuid} {ch : ClientHello} {msg : Bytes}
    (hlayout : HelloLayout P uuid ch msg) :
    decodeClientHello P msg uuid = .ok ch.wireNorm := by
  obtain ⟨addrBuf, pad, mac, happ, hmac, hmax, hshape⟩ := hlayout
  have hinner := helloInner_length ch addrBuf pad
  set inner := helloInner ch addrBuf pad with hinnerDef
  have hnonceLen := ch.nonce.property
  have hcpubLen := ch.classicalPub.property
  have hpqpubLen := ch.pqPub.property
  have hheader := helloHeader_length ch (inner.length + aeadTagLen)
  set header := helloHeader ch (inner.length + aeadTagLen) with hheaderDef
  set cipher := P.aeadSeal (handshakeAEADKey P uuid ch.nonce) ch.nonce inner
    header with hcipherDef
  have hcipherLen : cipher.length = inner.length + aeadTagLen :=
    P.aeadSeal_length _ _ _ _
  have hlen : msg.length =
      fixedHeader + (inner.length + aeadTagLen) + outerMACLen := by
    rw [hshape, List.length_append, List.length_append, hheader, hcipherLen,
      hmac]
    omega
  have hnonce : slice msg 0 12 = ch.nonce.val := by
    rw [hshape, slice_append_left (by rw [hheader]; simp)]
    exact slice_middle (a := []) rfl (by simpa using hnonceLen)
  have hcpub : slice msg 12 44 = ch.classicalPub.val := by
    rw [hshape, slice_append_left (by rw [hheader]; simp)]
    exact slice_middle (by simpa using hnonceLen) (by simp [hcpubLen])
  have hpqpub : slice msg 44 1228 = ch.pqPub.val := by
    rw [hshape, slice_append_left (by rw [hheader]; simp), hheaderDef,
      helloHeader, ← List.append_assoc]
    exact slice_middle (by simp [hnonceLen, hcpubLen]) (by simp [hpqpubLen])
  have hctLen : slice msg 1228 1230 = putBE 2 (inner.length + aeadTagLen) := by
    rw [hshape, slice_append_left (by rw [hheader]), hheaderDef, helloHeader,
      ← List.append_assoc, ← List.append_assoc,
      ← List.append_nil (putBE 2 (inner.length + aeadTagLen))]
    exact slice_middle (by simp [hnonceLen, hcpubLen, hpqpubLen]) (by simp)
  have hct : getBE (putBE 2 (inner.length + aeadTagLen)) =
      inner.length + aeadTagLen :=
    getBE_putBE_of_lt (by omega)
  have hcipher : slice msg fixedHeader
      (fixedHeader + (inner.length + aeadTagLen)) = cipher := by
    rw [hshape]
    exact slice_middle hheader (by rw [hcipherLen])
  have haad : slice msg 0 fixedHeader = header := by
    rw [hshape, slice_append_left hheader.ge]
    exact slice_zero_length hheader
  unfold decodeClientHello
  dsimp only
  rw [if_neg (by rw [hlen]; omega), hnonce, hcpub, hpqpub, hctLen, hct,
    FixedBytes.copyFrom_val, FixedBytes.copyFrom_val, FixedBytes.copyFrom_val,
    if_neg (by omega), if_neg (by rw [hlen]; omega), hcipher, haad,
    hcipherDef, P.aeadOpen_aeadSeal]
  exact decodeHelloPlain_helloInner happ (by simp at hmax; omega)

/-- Under the right user, a ClientHello decodes to what the wire keeps of it. -/
theorem decodeClientHello_encode
    {P : Primitives} {ch : ClientHello} {draws : HelloPadDraws} {wire : Bytes}
    (henc : encodeClientHello P ch draws = .ok wire) :
    decodeClientHello P wire ch.uuid = .ok ch.wireNorm := by
  obtain ⟨addrBuf, pad, happ, hmax, hwire⟩ := encodeClientHello_ok henc
  apply decodeClientHello_of_layout
  refine ⟨addrBuf, pad, _, happ,
    (outerMAC P ch.uuid (helloSealed P ch (helloInner ch addrBuf pad))).property,
    hmax, ?_⟩
  rw [hwire, clientHelloWire, helloSealed, List.append_assoc]

theorem decodeServerHello_encode
    (P : Primitives) (sh : ServerHello) (uuid : Uuid) :
    decodeServerHello P (encodeServerHello P sh uuid) uuid = .ok sh := by
  have hnonceLen := sh.nonceEcho.property
  have hcpubLen := sh.classicalPub.property
  have hpqLen := sh.pqCipher.property
  have hbody := serverHelloBody_length sh
  have hlen := encodeServerHello_length P sh uuid
  set body := serverHelloBody sh with hbodyDef
  have hmsg : encodeServerHello P sh uuid =
      body ++ (outerMAC P uuid body).val := rfl
  have htake : (encodeServerHello P sh uuid).take
      (serverHelloLen - outerMACLen) = body := by
    rw [hmsg, List.take_left' hbody]
  have hdrop : (encodeServerHello P sh uuid).drop
      (serverHelloLen - outerMACLen) = (outerMAC P uuid body).val := by
    rw [hmsg, List.drop_left' hbody]
  have hinside : ∀ lo hi, hi ≤ serverHelloLen - outerMACLen →
      slice (encodeServerHello P sh uuid) lo hi = slice body lo hi := by
    intro lo hi hle
    rw [hmsg, slice_append_left (by rw [hbody]; exact hle)]
  have hnonce : slice body 0 12 = sh.nonceEcho.val :=
    slice_middle (a := []) (b := sh.nonceEcho.val) rfl (by simp [hnonceLen])
  have hcpub : slice body 12 44 = sh.classicalPub.val :=
    slice_middle (by simp [hnonceLen]) (by simp [hcpubLen])
  have hcipher : slice body 44 1132 = sh.pqCipher.val := by
    rw [hbodyDef, serverHelloBody, ← List.append_assoc]
    exact slice_middle (by simp [hnonceLen, hcpubLen]) (by simp [hpqLen])
  have htime : slice body 1132 1136 = putBE 4 sh.serverTime.toNat := by
    rw [hbodyDef, serverHelloBody, ← List.append_assoc, ← List.append_assoc]
    exact slice_middle (by simp [hnonceLen, hcpubLen, hpqLen]) (by simp)
  have hstatus : (encodeServerHello P sh uuid).getD 1136 0 = sh.status := by
    simp [hmsg, hbodyDef, serverHelloBody, List.getD_eq_getElem?_getD,
      List.getElem?_append_right, hnonceLen, hcpubLen, hpqLen]
  unfold decodeServerHello
  dsimp only
  rw [if_neg (by rw [hlen]; simp), htake, hdrop, FixedBytes.copyFrom_val,
    if_neg (by simp [verifyOuterMAC]), hinside 0 12 (by simp),
    hinside 12 44 (by simp), hinside 44 1132 (by simp),
    hinside 1132 1136 (by simp), hnonce, hcpub, hcipher, htime, hstatus,
    uint32_getBE_putBE]
  simp only [FixedBytes.copyFrom_val]

/-! ## What is accepted is a hello -/

theorem putBE_uint32_getBE {b : Bytes} (hlen : b.length = 4) :
    putBE 4 (UInt32.ofNat (getBE b)).toNat = b := by
  have hlt : getBE b < UInt32.size := by
    simpa [hlen, UInt32.size] using getBE_lt b
  rw [UInt32.toNat_ofNat_of_lt' hlt, putBE_getBE_of_length hlen]

theorem decodeHelloPlain_ok
    {nonce : HelloNonce} {cpub : FixedBytes x25519PubLen}
    {pqpub : FixedBytes mlkem768PubLen} {plain : Bytes} {ch : ClientHello}
    (hdec : decodeHelloPlain nonce cpub pqpub plain = .ok ch) :
    ch.nonce = nonce ∧ ch.classicalPub = cpub ∧ ch.pqPub = pqpub ∧
      ch.wireNorm = ch ∧
      ∃ addrBuf pad, ch.address.append [] = .ok addrBuf ∧
        plain = helloInner ch addrBuf pad := by
  unfold decodeHelloPlain at hdec
  split at hdec
  · simp at hdec
  split at hdec
  · simp at hdec
  rename_i hshort _ addr n haddr
  obtain ⟨hn, happ, hnorm⟩ := decodeAddress_ok haddr
  dsimp only at hdec
  split_ifs at hdec with hroom hexact
  simp only [Except.ok.injEq] at hdec
  subst hdec
  refine ⟨rfl, rfl, rfl, ?_, _, plain.drop (4 + uuidLen + 1 + n + 2), happ, ?_⟩
  · simp only [ClientHello.wireNorm, hnorm]
  simp only [uuidLen, Nat.reduceAdd] at hshort hroom hexact hn ⊢
  have htake : (plain.drop 21).take n = slice plain 21 (21 + n) := by
    rw [slice, List.drop_take, Nat.add_sub_cancel_left]
  have hpad : plain.drop (21 + n + 2) =
      slice plain (21 + n + 2) plain.length := by
    rw [slice, List.take_length]
  have hpadLen : (slice plain (21 + n) (21 + n + 2)).length = 2 := by
    rw [slice_length_of_le (by omega)]
    omega
  have hcount : plain.length - (21 + n + 2) =
      getBE (slice plain (21 + n) (21 + n + 2)) := by
    have := not_not.mp hexact
    omega
  simp only [helloInner]
  rw [putBE_uint32_getBE (slice_length_of_le (by omega)),
    FixedBytes.copyFrom_slice_val (by omega) (by rfl),
    ← slice_singleton (by omega), htake, List.length_drop, hcount,
    putBE_getBE_of_length hpadLen, hpad,
    slice_append_slice plain (by omega) (by omega),
    slice_append_slice plain (by omega) (by omega),
    slice_append_slice plain (by omega) (by omega),
    slice_append_slice plain (by omega) (by omega),
    slice_append_slice plain (by omega) (by omega)]
  exact (slice_zero_length rfl).symm

theorem decodeClientHello_ok
    {P : Primitives} (hseals : P.OpensOnlySeals) {msg : Bytes} {uuid : Uuid}
    {ch : ClientHello} (hdec : decodeClientHello P msg uuid = .ok ch) :
    ch.wireNorm = ch ∧ HelloLayout P uuid ch msg := by
  unfold decodeClientHello at hdec
  dsimp only at hdec
  split_ifs at hdec with hshort hempty hexact
  split at hdec
  · simp at hdec
  rename_i plain hopen
  obtain ⟨hnonce, hcpub, hpqpub, hnorm, addrBuf, pad, happ, hplain⟩ :=
    decodeHelloPlain_ok hdec
  have hcipher := (hseals _ _ _ _ _).mp hopen
  set ctLen := getBE (slice msg 1228 1230) with hctLen
  have hlen : fixedHeader + ctLen + outerMACLen = msg.length :=
    not_not.mp hexact
  simp only [fixedHeader, aeadTagLen, outerMACLen, Nat.reduceAdd] at hshort hlen
  have hctBytes : (slice msg 1228 1230).length = 2 :=
    slice_length_of_le (by omega)
  -- opening removes the tag, so the two length bytes announce the plaintext
  have hplainLen : plain.length + aeadTagLen = ctLen := by
    have hcipherLen : (slice msg fixedHeader (fixedHeader + ctLen)).length =
        fixedHeader + ctLen - fixedHeader :=
      slice_length_of_le (by simp only [fixedHeader]; omega)
    rw [← P.aeadSeal_length, ← hcipher, hcipherLen, Nat.add_sub_cancel_left]
  have hheader : helloHeader ch ctLen = slice msg 0 fixedHeader := by
    rw [helloHeader, hnonce, hcpub, hpqpub,
      FixedBytes.copyFrom_slice_val (by omega) (by rfl),
      FixedBytes.copyFrom_slice_val (by omega) (by rfl),
      FixedBytes.copyFrom_slice_val (by omega) (by rfl), hctLen,
      putBE_getBE_of_length hctBytes,
      slice_append_slice msg (by omega) (by omega),
      slice_append_slice msg (by omega) (by omega),
      slice_append_slice msg (by omega) (by omega)]
  have hmac : (msg.drop (fixedHeader + ctLen)).length = outerMACLen := by
    rw [List.length_drop]
    simp only [fixedHeader, outerMACLen]
    omega
  have hmax : ctLen ≤ 65535 := by
    have := getBE_lt (slice msg 1228 1230)
    rw [hctBytes] at this
    omega
  refine ⟨hnorm, addrBuf, pad, _, happ, hmac, ?_, ?_⟩
  · rw [← hplain, hplainLen]
    exact hmax
  · rw [← hplain, hplainLen, hheader, hnonce, ← hcipher, ← List.append_assoc,
      slice_append_slice msg (by omega) (by omega)]
    exact (List.take_append_drop _ msg).symm

theorem decodeServerHello_ok
    {P : Primitives} {msg : Bytes} {uuid : Uuid} {sh : ServerHello}
    (hdec : decodeServerHello P msg uuid = .ok sh) :
    msg = encodeServerHello P sh uuid := by
  have hlen := decodeServerHello_length hdec
  unfold decodeServerHello at hdec
  rw [if_neg (not_not.mpr hlen)] at hdec
  dsimp only at hdec
  split at hdec
  · simp at hdec
  · rename_i hverify
    simp only [verifyOuterMAC, Bool.not_eq_true', decide_eq_false_iff_not,
      not_not] at hverify
    simp only [Except.ok.injEq] at hdec
    have hmacLen : (msg.drop (serverHelloLen - outerMACLen)).length =
        outerMACLen := by
      simp [hlen]
    have hbody : serverHelloBody sh =
        msg.take (serverHelloLen - outerMACLen) := by
      subst hdec
      simp only [serverHelloLen, Nat.reduceAdd] at hlen
      simp only [serverHelloBody]
      rw [FixedBytes.copyFrom_slice_val (by omega) (by rfl),
        FixedBytes.copyFrom_slice_val (by omega) (by rfl),
        FixedBytes.copyFrom_slice_val (by omega) (by rfl),
        putBE_uint32_getBE (slice_length_of_le (by omega)),
        ← slice_singleton (by omega), slice_append_slice msg (by simp) (by simp),
        slice_append_slice msg (by simp) (by simp),
        slice_append_slice msg (by simp) (by simp),
        slice_append_slice msg (by simp) (by simp)]
      rfl
    rw [encodeServerHello, hbody, hverify,
      FixedBytes.copyFrom_val_of_length hmacLen, List.take_append_drop]

end SingEwp
