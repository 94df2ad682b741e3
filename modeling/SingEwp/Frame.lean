import SingEwp.Primitives

/-!
# Frames

`frame.go`.  A frame is a seventeen-byte header that doubles as additional data,
the sealed meta and payload, and clear padding.  `Frame` collects what the
encoder accepts, so a value of it is a frame that can be put on the wire, and
`Frame.wire` is the message it becomes under a given AEAD context.
-/

namespace SingEwp

structure FrameType where
  code : UInt8
  deriving DecidableEq

def frameTCPData : FrameType := ⟨0x01⟩
def frameUDPData : FrameType := ⟨0x02⟩
def frameUDPNew : FrameType := ⟨0x03⟩
def frameUDPEnd : FrameType := ⟨0x04⟩
def frameUDPProbeReq : FrameType := ⟨0x05⟩
def frameUDPProbeResp : FrameType := ⟨0x06⟩
def framePing : FrameType := ⟨0x10⟩
def framePong : FrameType := ⟨0x11⟩
def frameRekeyReq : FrameType := ⟨0x12⟩
def frameRekeyResp : FrameType := ⟨0x13⟩
def framePaddingOnly : FrameType := ⟨0x20⟩

def FrameType.valid (t : FrameType) : Bool :=
  t ∈ [frameTCPData, frameUDPData, frameUDPNew, frameUDPEnd, frameUDPProbeReq,
    frameUDPProbeResp, framePing, framePong, frameRekeyReq, frameRekeyResp,
    framePaddingOnly]

theorem framePaddingOnly_valid : framePaddingOnly.valid = true := rfl

/-- One direction of a stream: the cipher's key, the nonce's fixed part and the
running counter. -/
structure FrameAEAD where
  key : AeadKey
  noncePrefix : FixedBytes noncePrefixLen
  counter : UInt64
  deriving DecidableEq

/-- `NewFrameAEAD`, which cannot fail on a key of the right length. -/
def newFrameAEAD (key : AeadKey) (noncePrefix : FixedBytes noncePrefixLen) :
    FrameAEAD :=
  { key := key, noncePrefix := noncePrefix, counter := 0 }

def FrameAEAD.composeNonce (f : FrameAEAD) (counter : UInt64) :
    FixedBytes aeadNonceLen :=
  ⟨f.noncePrefix.val ++ putBE 8 counter.toNat, by simp [f.noncePrefix.property]⟩

def frameHeader (frameLen : ℕ) (counter : UInt64) (t : FrameType)
    (metaLen padLen : ℕ) : Bytes :=
  putBE 4 frameLen ++ (putBE 8 counter.toNat ++ ([t.code] ++
    (putBE 2 metaLen ++ putBE 2 padLen)))

/-- `frameLen` without padding: everything after the length field. -/
def bareFrameLen (metaLen payloadLen : ℕ) : ℕ :=
  8 + 1 + 2 + 2 + (metaLen + payloadLen + aeadTagLen)

def drawPad (draw : RandRead) (padLen : ℕ) : Option Bytes :=
  if 0 < padLen then (draw padLen).map Subtype.val else some []

/-- `EncodeFrameAppend`.  An error leaves the destination and the counter as they
were. -/
def encodeFrameAppend (P : Primitives) (dst : Bytes) (f : FrameAEAD)
    (t : FrameType) (metaBytes payload : Bytes) (padLen : ℤ)
    (draw : RandRead) : Except EwpError (Bytes × FrameAEAD) :=
  if !t.valid then .error .frameType
  else if maxMetaLen < metaBytes.length then .error .metaTooLarge
  else
    let padLen := if padLen < 0 then 0 else padLen
    if (maxFramePad : ℤ) < padLen then .error .padTooLarge
    else
      let frameLen :=
        bareFrameLen metaBytes.length payload.length + padLen.toNat
      if maxFrameSize < frameLen then .error .frameTooLarge
      else
        let hdr := frameHeader frameLen f.counter t metaBytes.length padLen.toNat
        let cipher := P.aeadSeal f.key (f.composeNonce f.counter)
          (metaBytes ++ payload) hdr
        match drawPad draw padLen.toNat with
        | none => .error .padRand
        | some pad =>
            .ok (dst ++ (hdr ++ (cipher ++ pad)),
              { f with counter := f.counter + 1 })

structure DecodedFrame where
  counter : UInt64
  type : FrameType
  metaBytes : Slice
  payload : Slice
  deriving DecidableEq

/-! The fields of a received header. -/

def hdrFrameLen (hdr : Bytes) : ℕ := getBE (slice hdr 0 4)
def hdrCounter (hdr : Bytes) : UInt64 := UInt64.ofNat (getBE (slice hdr 4 12))
def hdrType (hdr : Bytes) : FrameType := ⟨hdr.getD 12 0⟩
def hdrMetaLen (hdr : Bytes) : ℕ := getBE (slice hdr 13 15)
def hdrPadLen (hdr : Bytes) : ℕ := getBE (slice hdr 15 17)

def hdrBodyLen (hdr : Bytes) : ℤ := (hdrFrameLen hdr : ℤ) - (8 + 1 + 2 + 2)

def hdrCipherLen (hdr : Bytes) : ℕ := (hdrBodyLen hdr - hdrPadLen hdr).toNat

/-- The end of `DecodeFrame`, once header, ciphertext and padding have been
read. -/
def openFrame (P : Primitives) (f : FrameAEAD) (hdr cipherBuf : Bytes) :
    Except EwpError (DecodedFrame × FrameAEAD) :=
  let counter := hdrCounter hdr
  if counter ≠ f.counter then .error .counterMismatch
  else if !(hdrType hdr).valid then .error .frameType
  else
    match P.aeadOpen f.key (f.composeNonce counter) cipherBuf hdr with
    | none => .error .aeadOpen
    | some plain =>
        if plain.length < hdrMetaLen hdr then .error .frameTooShort
        else
          .ok
            ({ counter := counter
               type := hdrType hdr
               metaBytes := appendToNil (plain.take (hdrMetaLen hdr))
               payload := appendToNil (plain.drop (hdrMetaLen hdr)) },
              { f with counter := counter + 1 })

/-- `DecodeFrame` on a reader that holds `r`, with what it leaves unread.  An
error leaves the counter as it was. -/
def decodeFrame (P : Primitives) (r : Bytes) (f : FrameAEAD) :
    Except EwpError (DecodedFrame × FrameAEAD) × Bytes :=
  match readFull frameHeaderSize r with
  | (.error e, r) => (.error (.io e), r)
  | (.ok hdr, r) =>
      if maxFrameSize < hdrFrameLen hdr then (.error .frameTooLarge, r)
      else if maxMetaLen < hdrMetaLen hdr then (.error .metaTooLarge, r)
      else if maxFramePad < hdrPadLen hdr then (.error .padTooLarge, r)
      else if hdrBodyLen hdr < hdrPadLen hdr + aeadTagLen + hdrMetaLen hdr then
        (.error .frameTooShort, r)
      else
        match readFull (hdrCipherLen hdr) r with
        | (.error e, r) => (.error (.io e), r)
        | (.ok cipherBuf, r) =>
            -- the pad is skipped: nothing authenticates its bytes
            match if 0 < hdrPadLen hdr then discardN (hdrPadLen hdr) r
              else (.ok (), r) with
            | (.error e, r) => (.error (.io e), r)
            | (.ok (), r) => (openFrame P f hdr cipherBuf, r)

/-! ## Frames that fit -/

/-- What the encoder accepts. -/
structure Frame where
  type : FrameType
  metaBytes : Bytes
  payload : Bytes
  pad : Bytes
  type_valid : type.valid = true
  meta_le : metaBytes.length ≤ maxMetaLen
  pad_le : pad.length ≤ maxFramePad
  size_le : bareFrameLen metaBytes.length payload.length + pad.length ≤
    maxFrameSize

namespace Frame

def frameLen (fr : Frame) : ℕ :=
  bareFrameLen fr.metaBytes.length fr.payload.length + fr.pad.length

def cipherLen (fr : Frame) : ℕ :=
  fr.metaBytes.length + fr.payload.length + aeadTagLen

def header (fr : Frame) (counter : UInt64) : Bytes :=
  frameHeader fr.frameLen counter fr.type fr.metaBytes.length fr.pad.length

def cipher (fr : Frame) (P : Primitives) (f : FrameAEAD) : Bytes :=
  P.aeadSeal f.key (f.composeNonce f.counter) (fr.metaBytes ++ fr.payload)
    (fr.header f.counter)

def wire (fr : Frame) (P : Primitives) (f : FrameAEAD) : Bytes :=
  fr.header f.counter ++ (fr.cipher P f ++ fr.pad)

end Frame

theorem frameHeader_length
    (frameLen : ℕ) (counter : UInt64) (t : FrameType) (metaLen padLen : ℕ) :
    (frameHeader frameLen counter t metaLen padLen).length =
      frameHeaderSize := by
  simp [frameHeader]

theorem drawPad_ne_none {draw : RandRead} (hserved : ∀ n, draw n ≠ none)
    (padLen : ℕ) : drawPad draw padLen ≠ none := by
  unfold drawPad
  split
  · simpa using hserved padLen
  · simp

theorem drawPad_length
    {draw : RandRead} {padLen : ℕ} {pad : Bytes}
    (hdraw : drawPad draw padLen = some pad) : pad.length = padLen := by
  unfold drawPad at hdraw
  split at hdraw
  · obtain ⟨b, _, hb⟩ := Option.map_eq_some_iff.mp hdraw
    rw [← hb]
    exact b.property
  · simp only [Option.some.injEq] at hdraw
    subst hdraw
    simp
    omega

theorem encodeFrameAppend_ok
    {P : Primitives} {dst : Bytes} {f : FrameAEAD} {t : FrameType}
    {metaBytes payload : Bytes} {padLen : ℤ} {draw : RandRead}
    {out : Bytes} {f' : FrameAEAD}
    (henc : encodeFrameAppend P dst f t metaBytes payload padLen draw =
      .ok (out, f')) :
    ∃ fr : Frame, fr.type = t ∧ fr.metaBytes = metaBytes ∧
      fr.payload = payload ∧ fr.pad.length = padLen.toNat ∧
      out = dst ++ fr.wire P f ∧ f' = { f with counter := f.counter + 1 } := by
  unfold encodeFrameAppend at henc
  split at henc
  · simp at henc
  rename_i htype
  split at henc
  · simp at henc
  rename_i hmeta
  dsimp only at henc
  generalize hclamped : (if padLen < 0 then 0 else padLen) = clamped at henc
  have hclamp : clamped.toNat = padLen.toNat := by
    rw [← hclamped]
    split <;> omega
  split at henc
  · simp at henc
  rename_i hpad
  rw [hclamp] at henc
  split at henc
  · simp at henc
  rename_i hsize
  cases hdraw : drawPad draw padLen.toNat with
  | none => simp [hdraw] at henc
  | some pad =>
      have hpadLen := drawPad_length hdraw
      simp only [hdraw, Except.ok.injEq, Prod.mk.injEq] at henc
      rw [← hpadLen] at henc
      refine ⟨⟨t, metaBytes, payload, pad, by simpa using htype, not_lt.mp hmeta,
        ?_, ?_⟩, rfl, rfl, rfl, hpadLen, henc.1.symm, henc.2.symm⟩
      · simp at hpad ⊢
        omega
      · rw [hpadLen]
        exact not_lt.mp hsize

theorem encodeFrameAppend_frame
    (P : Primitives) (dst : Bytes) (f : FrameAEAD) (fr : Frame)
    {draw : RandRead} (hdraw : drawPad draw fr.pad.length = some fr.pad) :
    encodeFrameAppend P dst f fr.type fr.metaBytes fr.payload fr.pad.length
        draw =
      .ok (dst ++ fr.wire P f, { f with counter := f.counter + 1 }) := by
  have hmeta := fr.meta_le
  have hpad := fr.pad_le
  have hsize := fr.size_le
  unfold encodeFrameAppend
  rw [if_neg (by simp [fr.type_valid]), if_neg (not_lt.mpr hmeta)]
  dsimp only
  rw [if_neg (by omega : ¬((fr.pad.length : ℤ) < 0)), Int.toNat_natCast,
    if_neg (by omega), if_neg (not_lt.mpr hsize), hdraw]
  rfl

theorem encodeFrameAppend_succeeds
    (P : Primitives) (dst : Bytes) (f : FrameAEAD) {t : FrameType}
    {metaBytes payload : Bytes} {padLen : ℤ} {draw : RandRead}
    (htype : t.valid = true) (hmeta : metaBytes.length ≤ maxMetaLen)
    (hpad : padLen ≤ maxFramePad)
    (hsize : bareFrameLen metaBytes.length payload.length + padLen.toNat ≤
      maxFrameSize)
    (hdraw : drawPad draw padLen.toNat ≠ none) :
    ∃ out f', encodeFrameAppend P dst f t metaBytes payload padLen draw =
      .ok (out, f') := by
  obtain ⟨pad, hpadBytes⟩ := Option.ne_none_iff_exists'.mp hdraw
  unfold encodeFrameAppend
  rw [if_neg (by simp [htype]), if_neg (not_lt.mpr hmeta)]
  dsimp only
  generalize hclamped : (if padLen < 0 then 0 else padLen) = clamped
  have hclamp : clamped.toNat = padLen.toNat ∧ clamped ≤ maxFramePad := by
    rw [← hclamped]
    split <;> simp at * <;> omega
  rw [hclamp.1, if_neg (not_lt.mpr hclamp.2), if_neg (not_lt.mpr hsize),
    hpadBytes]
  exact ⟨_, _, rfl⟩

theorem encodeFrameAppend_drawn
    {P : Primitives} {dst : Bytes} {f : FrameAEAD} {t : FrameType}
    {metaBytes payload : Bytes} {padLen : ℤ} {draw : RandRead}
    {out : Bytes × FrameAEAD}
    (henc : encodeFrameAppend P dst f t metaBytes payload padLen draw = .ok out) :
    drawPad draw padLen.toNat ≠ none := by
  intro hnone
  unfold encodeFrameAppend at henc
  dsimp only at henc
  generalize hclamped : (if padLen < 0 then 0 else padLen) = clamped at henc
  have hclamp : clamped.toNat = padLen.toNat := by
    rw [← hclamped]
    split <;> omega
  rw [hclamp, hnone] at henc
  -- every branch is an error now
  split at henc
  · simp at henc
  split at henc
  · simp at henc
  split at henc
  · simp at henc
  split at henc <;> simp at henc

theorem encodeFrameAppend_ok_iff
    {P : Primitives} {dst : Bytes} {f : FrameAEAD} {t : FrameType}
    {metaBytes payload : Bytes} {padLen : ℤ} {draw : RandRead} :
    (∃ out f', encodeFrameAppend P dst f t metaBytes payload padLen draw =
        .ok (out, f')) ↔
      t.valid = true ∧ metaBytes.length ≤ maxMetaLen ∧ padLen ≤ maxFramePad ∧
        bareFrameLen metaBytes.length payload.length + padLen.toNat ≤
          maxFrameSize ∧
        drawPad draw padLen.toNat ≠ none := by
  constructor
  · rintro ⟨out, f', henc⟩
    obtain ⟨fr, rfl, rfl, rfl, hpad, -, -⟩ := encodeFrameAppend_ok henc
    have hle := fr.pad_le
    have hsize := fr.size_le
    exact ⟨fr.type_valid, fr.meta_le, by omega, by omega,
      encodeFrameAppend_drawn henc⟩
  · rintro ⟨htype, hmeta, hpad, hsize, hdraw⟩
    exact encodeFrameAppend_succeeds P dst f htype hmeta hpad hsize hdraw

theorem encodeFrameAppend_beyond
    {P : Primitives} {dst : Bytes} {f : FrameAEAD} {t : FrameType}
    {metaBytes payload : Bytes} {padLen : ℤ} {draw : RandRead}
    (htype : t.valid = true) (hmeta : metaBytes.length ≤ maxMetaLen)
    (hbeyond : (maxFramePad : ℤ) < padLen) :
    encodeFrameAppend P dst f t metaBytes payload padLen draw =
      .error .padTooLarge := by
  have hnonneg : ¬padLen < 0 := by omega
  unfold encodeFrameAppend
  rw [if_neg (by simp [htype]), if_neg (not_lt.mpr hmeta)]
  dsimp only
  rw [if_neg hnonneg, if_pos hbeyond]

/-! ## Reading the header back -/

section HeaderFields

variable {frameLen metaLen padLen : ℕ} (counter : UInt64) (t : FrameType)

theorem hdrFrameLen_frameHeader (hlen : frameLen < 2 ^ 32) :
    hdrFrameLen (frameHeader frameLen counter t metaLen padLen) = frameLen := by
  have hslice : slice (frameHeader frameLen counter t metaLen padLen) 0 4 =
      putBE 4 frameLen :=
    slice_middle (a := []) (b := putBE 4 frameLen) rfl (by simp)
  rw [hdrFrameLen, hslice]
  exact getBE_putBE_of_lt (by simpa using hlen)

theorem hdrCounter_frameHeader :
    hdrCounter (frameHeader frameLen counter t metaLen padLen) = counter := by
  have hslice : slice (frameHeader frameLen counter t metaLen padLen) 4 12 =
      putBE 8 counter.toNat :=
    slice_middle (by simp) (by simp)
  rw [hdrCounter, hslice, getBE_putBE_of_lt (by simpa using counter.toNat_lt)]
  simp

theorem hdrType_frameHeader :
    hdrType (frameHeader frameLen counter t metaLen padLen) = t := by
  simp [hdrType, frameHeader, List.getD_eq_getElem?_getD]

theorem hdrMetaLen_frameHeader (hlen : metaLen < 2 ^ 16) :
    hdrMetaLen (frameHeader frameLen counter t metaLen padLen) = metaLen := by
  have hsplit : frameHeader frameLen counter t metaLen padLen =
      (putBE 4 frameLen ++ (putBE 8 counter.toNat ++ [t.code])) ++
        (putBE 2 metaLen ++ putBE 2 padLen) := by
    simp [frameHeader]
  have hslice : slice (frameHeader frameLen counter t metaLen padLen) 13 15 =
      putBE 2 metaLen := by
    rw [hsplit]
    exact slice_middle (by simp) (by simp)
  rw [hdrMetaLen, hslice]
  exact getBE_putBE_of_lt (by simpa using hlen)

theorem hdrPadLen_frameHeader (hlen : padLen < 2 ^ 16) :
    hdrPadLen (frameHeader frameLen counter t metaLen padLen) = padLen := by
  have hsplit : frameHeader frameLen counter t metaLen padLen =
      (putBE 4 frameLen ++ (putBE 8 counter.toNat ++ ([t.code] ++
        putBE 2 metaLen))) ++ (putBE 2 padLen ++ []) := by
    simp [frameHeader]
  have hslice : slice (frameHeader frameLen counter t metaLen padLen) 15 17 =
      putBE 2 padLen := by
    rw [hsplit]
    exact slice_middle (by simp) (by simp)
  rw [hdrPadLen, hslice]
  exact getBE_putBE_of_lt (by simpa using hlen)

end HeaderFields

namespace Frame

variable (fr : Frame) (counter : UInt64)

theorem frameLen_lt : fr.frameLen < 2 ^ 32 := by
  have hsize := fr.size_le
  simp [frameLen] at hsize ⊢
  omega

@[simp] theorem header_length : (fr.header counter).length = frameHeaderSize :=
  frameHeader_length _ _ _ _ _

@[simp] theorem hdrFrameLen_header :
    hdrFrameLen (fr.header counter) = fr.frameLen :=
  hdrFrameLen_frameHeader counter fr.type fr.frameLen_lt

@[simp] theorem hdrCounter_header : hdrCounter (fr.header counter) = counter :=
  hdrCounter_frameHeader counter fr.type

@[simp] theorem hdrType_header : hdrType (fr.header counter) = fr.type :=
  hdrType_frameHeader counter fr.type

@[simp] theorem hdrMetaLen_header :
    hdrMetaLen (fr.header counter) = fr.metaBytes.length := by
  have hmeta := fr.meta_le
  exact hdrMetaLen_frameHeader counter fr.type (by simp at hmeta ⊢; omega)

@[simp] theorem hdrPadLen_header :
    hdrPadLen (fr.header counter) = fr.pad.length := by
  have hpad := fr.pad_le
  exact hdrPadLen_frameHeader counter fr.type (by simp at hpad ⊢; omega)

@[simp] theorem hdrBodyLen_header :
    hdrBodyLen (fr.header counter) = fr.cipherLen + fr.pad.length := by
  rw [hdrBodyLen, hdrFrameLen_header]
  simp [frameLen, cipherLen, bareFrameLen]
  omega

@[simp] theorem hdrCipherLen_header :
    hdrCipherLen (fr.header counter) = fr.cipherLen := by
  rw [hdrCipherLen, hdrBodyLen_header, hdrPadLen_header]
  omega

@[simp] theorem cipher_length (P : Primitives) (f : FrameAEAD) :
    (fr.cipher P f).length = fr.cipherLen := by
  simp [cipher, cipherLen]

theorem wire_length (P : Primitives) (f : FrameAEAD) :
    (fr.wire P f).length = 4 + fr.frameLen := by
  simp [wire, frameLen, bareFrameLen, cipherLen]
  omega

/-- What the receiver makes of the frame. -/
def decoded : DecodedFrame where
  counter := counter
  type := fr.type
  metaBytes := appendToNil fr.metaBytes
  payload := appendToNil fr.payload

end Frame

/-! ## Decoding -/

theorem openFrame_header
    (P : Primitives) (f : FrameAEAD) (fr : Frame) :
    openFrame P f (fr.header f.counter) (fr.cipher P f) =
      .ok (fr.decoded f.counter, { f with counter := f.counter + 1 }) := by
  have hopen : P.aeadOpen f.key (f.composeNonce f.counter) (fr.cipher P f)
      (fr.header f.counter) = some (fr.metaBytes ++ fr.payload) :=
    P.aeadOpen_aeadSeal _ _ _ _
  simp [openFrame, fr.type_valid, hopen, Frame.decoded]

theorem decodeFrame_wire
    (P : Primitives) (f : FrameAEAD) (fr : Frame) (rest : Bytes) :
    decodeFrame P (fr.wire P f ++ rest) f =
      (.ok (fr.decoded f.counter, { f with counter := f.counter + 1 }),
        rest) := by
  have hmeta := fr.meta_le
  have hpad := fr.pad_le
  have hsize := fr.size_le
  have hsplit : fr.wire P f ++ rest =
      fr.header f.counter ++ (fr.cipher P f ++ (fr.pad ++ rest)) := by
    simp [Frame.wire]
  have hbody : ¬(fr.cipherLen + fr.pad.length : ℤ) <
      fr.pad.length + aeadTagLen + fr.metaBytes.length := by
    simp [Frame.cipherLen]
    omega
  unfold decodeFrame
  rw [hsplit, readFull_append (fr.header_length f.counter)]
  simp only [Frame.hdrFrameLen_header, Frame.hdrMetaLen_header,
    Frame.hdrPadLen_header, Frame.hdrBodyLen_header, Frame.hdrCipherLen_header,
    if_neg (not_lt.mpr hmeta), if_neg (not_lt.mpr hpad), if_neg hbody,
    if_neg (not_lt.mpr (show fr.frameLen ≤ maxFrameSize from hsize)),
    readFull_append (fr.cipher_length P f)]
  rw [discardN_guard, discardN_append rfl, openFrame_header]

/-- What a successful `DecodeFrame` has taken from the reader. -/
structure DecodedFrom (P : Primitives) (f : FrameAEAD) (r : Bytes)
    (df : DecodedFrame) (f' : FrameAEAD) (hdr cipherBuf pad rest : Bytes) :
    Prop where
  read : r = hdr ++ (cipherBuf ++ (pad ++ rest))
  hdr_length : hdr.length = frameHeaderSize
  cipher_length : cipherBuf.length = hdrCipherLen hdr
  pad_length : pad.length = hdrPadLen hdr
  frameLen_le : hdrFrameLen hdr ≤ maxFrameSize
  metaLen_le : hdrMetaLen hdr ≤ maxMetaLen
  padLen_le : hdrPadLen hdr ≤ maxFramePad
  body_ge : (hdrPadLen hdr : ℤ) + aeadTagLen + hdrMetaLen hdr ≤ hdrBodyLen hdr
  opened : openFrame P f hdr cipherBuf = .ok (df, f')

theorem decodeFrame_decodedFrom
    {P : Primitives} {r : Bytes} {f f' : FrameAEAD} {df : DecodedFrame}
    {rest : Bytes} (hdec : decodeFrame P r f = (.ok (df, f'), rest)) :
    ∃ hdr cipherBuf pad, DecodedFrom P f r df f' hdr cipherBuf pad rest := by
  unfold decodeFrame at hdec
  cases hread : readFull frameHeaderSize r with
  | mk first body =>
      cases first with
      | error e => simp [hread] at hdec
      | ok hdr =>
          obtain ⟨hhdr, hr⟩ := readFull_ok hread
          simp only [hread, discardN_guard] at hdec
          split at hdec
          · simp at hdec
          rename_i hframe
          split at hdec
          · simp at hdec
          rename_i hmeta
          split at hdec
          · simp at hdec
          rename_i hpad
          split at hdec
          · simp at hdec
          rename_i hshort
          cases hcipher : readFull (hdrCipherLen hdr) body with
          | mk second after =>
              cases second with
              | error e => simp [hcipher] at hdec
              | ok cipherBuf =>
                  obtain ⟨hbuf, hbody⟩ := readFull_ok hcipher
                  simp only [hcipher] at hdec
                  split at hdec
                  · simp at hdec
                  · rename_i left hdrain
                    obtain ⟨pad, hpadLen, hafter⟩ := discardN_ok hdrain
                    obtain ⟨hopen, rfl⟩ := Prod.mk.inj hdec
                    refine ⟨hdr, cipherBuf, pad, ?_, hhdr, hbuf, hpadLen,
                      not_lt.mp hframe, not_lt.mp hmeta, not_lt.mp hpad,
                      not_lt.mp hshort, hopen⟩
                    rw [hr, hbody, hafter]

theorem decodeFrame_ok
    {P : Primitives} {r : Bytes} {f f' : FrameAEAD} {df : DecodedFrame}
    {rest : Bytes} (hdec : decodeFrame P r f = (.ok (df, f'), rest)) :
    frameHeaderSize + hdrCipherLen (r.take frameHeaderSize) +
        hdrPadLen (r.take frameHeaderSize) ≤ r.length ∧
      openFrame P f (r.take frameHeaderSize)
        ((r.drop frameHeaderSize).take
          (hdrCipherLen (r.take frameHeaderSize))) = .ok (df, f') := by
  obtain ⟨hdr, cipherBuf, pad, hfrom⟩ := decodeFrame_decodedFrom hdec
  have hhdr : r.take frameHeaderSize = hdr := by
    rw [hfrom.read, List.take_left' hfrom.hdr_length]
  have hcipher : (r.drop frameHeaderSize).take (hdrCipherLen hdr) =
      cipherBuf := by
    rw [hfrom.read, List.drop_left' hfrom.hdr_length,
      List.take_left' hfrom.cipher_length]
  rw [hhdr, hcipher]
  refine ⟨?_, hfrom.opened⟩
  rw [hfrom.read, ← hfrom.hdr_length, ← hfrom.cipher_length, ← hfrom.pad_length]
  simp only [List.length_append]
  omega

theorem openFrame_ok
    {P : Primitives} {f f' : FrameAEAD} {hdr cipherBuf : Bytes}
    {df : DecodedFrame} (hopen : openFrame P f hdr cipherBuf = .ok (df, f')) :
    hdrCounter hdr = f.counter ∧
      ∃ plain,
        P.aeadOpen f.key (f.composeNonce f.counter) cipherBuf hdr =
          some plain ∧
        df =
          { counter := f.counter
            type := hdrType hdr
            metaBytes := appendToNil (plain.take (hdrMetaLen hdr))
            payload := appendToNil (plain.drop (hdrMetaLen hdr)) } ∧
        f' = { f with counter := f.counter + 1 } := by
  unfold openFrame at hopen
  dsimp only at hopen
  split at hopen
  · simp at hopen
  rename_i hcounter
  have hsame : hdrCounter hdr = f.counter := not_not.mp hcounter
  rw [hsame] at hopen
  split at hopen
  · simp at hopen
  cases hplain : P.aeadOpen f.key (f.composeNonce f.counter) cipherBuf hdr with
  | none => simp [hplain] at hopen
  | some plain =>
      simp only [hplain] at hopen
      split at hopen
      · simp at hopen
      simp only [Except.ok.injEq, Prod.mk.injEq] at hopen
      exact ⟨hsame, plain, rfl, hopen.1.symm, hopen.2.symm⟩

theorem openFrame_ok_fits
    {P : Primitives} {f f' : FrameAEAD} {hdr cipherBuf plain : Bytes}
    {df : DecodedFrame} (hopen : openFrame P f hdr cipherBuf = .ok (df, f'))
    (hplain : P.aeadOpen f.key (f.composeNonce f.counter) cipherBuf hdr =
      some plain) :
    (hdrType hdr).valid = true ∧ hdrMetaLen hdr ≤ plain.length := by
  have hcounter := (openFrame_ok hopen).1
  unfold openFrame at hopen
  dsimp only at hopen
  rw [if_neg (not_not.mpr hcounter), hcounter, hplain] at hopen
  by_cases htype : (hdrType hdr).valid = true
  · rw [if_neg (by simp [htype])] at hopen
    dsimp only at hopen
    split at hopen
    · simp at hopen
    · rename_i hlen
      exact ⟨htype, not_lt.mp hlen⟩
  · rw [if_pos (by simpa using htype)] at hopen
    simp at hopen

/-- A header is the encoding of the fields read from it. -/
theorem frameHeader_fields {hdr : Bytes} (hlen : hdr.length = frameHeaderSize) :
    frameHeader (hdrFrameLen hdr) (hdrCounter hdr) (hdrType hdr)
      (hdrMetaLen hdr) (hdrPadLen hdr) = hdr := by
  have hfield : ∀ lo hi, hi ≤ frameHeaderSize →
      putBE (hi - lo) (getBE (slice hdr lo hi)) = slice hdr lo hi := by
    intro lo hi hhi
    apply putBE_getBE_of_length
    rw [slice_length, hlen, min_eq_left hhi]
  have hcounter : putBE 8 (hdrCounter hdr).toNat = slice hdr 4 12 := by
    have hlt := getBE_lt (slice hdr 4 12)
    rw [slice_length, hlen] at hlt
    rw [hdrCounter, UInt64.toNat_ofNat', Nat.mod_eq_of_lt (by simpa using hlt)]
    exact hfield 4 12 (by simp)
  have htype : [(hdrType hdr).code] = slice hdr 12 13 := by
    have hbyte : 12 < hdr.length := by rw [hlen]; simp
    simp only [hdrType, slice, List.drop_take, List.getD_eq_getElem?_getD]
    rw [List.getElem?_eq_getElem hbyte, List.drop_eq_getElem_cons hbyte]
    rfl
  have hwhole : slice hdr 0 17 = hdr := slice_zero_length hlen
  calc frameHeader (hdrFrameLen hdr) (hdrCounter hdr) (hdrType hdr)
        (hdrMetaLen hdr) (hdrPadLen hdr)
      = slice hdr 0 4 ++ (slice hdr 4 12 ++ (slice hdr 12 13 ++
          (slice hdr 13 15 ++ slice hdr 15 17))) := by
        rw [frameHeader, hcounter, htype]
        exact congrArg₂ (· ++ ·) (hfield 0 4 (by simp))
          (congrArg _ (congrArg _ (congrArg₂ (· ++ ·)
            (hfield 13 15 (by simp)) (hfield 15 17 (by simp)))))
    _ = slice hdr 0 17 := by
        rw [slice_append_slice hdr (by omega) (by omega),
          slice_append_slice hdr (by omega) (by omega),
          slice_append_slice hdr (by omega) (by omega),
          slice_append_slice hdr (by omega) (by omega)]
    _ = hdr := hwhole

end SingEwp
