import SingEwp.LengthFramer
import SingEwp.SliceMemory

/-!
# Frames built in place

`EncodeFrameAppend` as it works on memory.  The frame is written over whatever the
destination's array holds behind its length: five header fields, the plaintext,
the ciphertext over the plaintext, and the pad.  The pieces lie side by side and
end where the slice ends, so nothing of the old contents is left in what the
caller sees.  `sendFrame` reuses one buffer for all frames of a stream, and the
messages are those of `sendFrameLocked`, which has no buffer.
-/

namespace SingEwp

/-! ## The encoder on memory -/

/-- What a call of `EncodeFrameAppend` leaves: its results, the context and the
memory. -/
structure Encoded where
  err : Option EwpError
  slice : SliceRef
  aead : FrameAEAD
  heap : Heap UInt8

/-- The destination extended by `total` bytes, in place if its capacity allows. -/
def growFor (h : Heap UInt8) (dst : SliceRef) (total : ℕ) :
    SliceRef × Heap UInt8 :=
  if dst.cap - dst.len < total then
    let grown := h.alloc (List.replicate (dst.len + total) 0)
    (grown.1, grown.2.copyTo grown.1 (grown.2.read dst))
  else (dst.sub 0 (dst.len + total), h)

def writeHeader (h : Heap UInt8) (wire : SliceRef) (frameLen : ℕ)
    (counter : UInt64) (t : FrameType) (metaLen padLen : ℕ) : Heap UInt8 :=
  let h := h.copyTo (wire.sub 0 4) (putBE 4 frameLen)
  let h := h.copyTo (wire.sub 4 12) (putBE 8 counter.toNat)
  let h := h.copyTo (wire.sub 12 13) [t.code]
  let h := h.copyTo (wire.sub 13 15) (putBE 2 metaLen)
  h.copyTo (wire.sub 15 17) (putBE 2 padLen)

def layPlaintext (h : Heap UInt8) (wire : SliceRef) (metaBytes payload : Bytes) :
    Heap UInt8 :=
  if 0 < metaBytes.length + payload.length then
    let h := h.copyTo (wire.dropFirst frameHeaderSize) metaBytes
    h.copyTo (wire.dropFirst (frameHeaderSize + metaBytes.length)) payload
  else h

/-- `Seal(plainSlice[:0], nonce, plainSlice, hdr)`: the sealed bytes are appended
to the empty slice at the start of the plaintext. -/
def sealInPlace (P : Primitives) (h : Heap UInt8) (wire : SliceRef)
    (f : FrameAEAD) (plainLen : ℕ) : Heap UInt8 :=
  let hdr := wire.sub 0 frameHeaderSize
  let plain := wire.sub frameHeaderSize (frameHeaderSize + plainLen)
  let cipher := P.aeadSeal f.key (f.composeNonce f.counter) (h.read plain)
    (h.read hdr)
  (Heap.append 0 0 h (plain.sub 0 0) cipher).2

/-- `EncodeFrameAppend` once its arguments have passed.  A random read that fails
has left `short` in the pad. -/
def buildFrame (P : Primitives) (h : Heap UInt8) (dst : SliceRef) (f : FrameAEAD)
    (t : FrameType) (metaBytes payload : Bytes) (padLen : ℕ) (draw : RandRead)
    (short : Bytes) : Encoded :=
  let plainLen := metaBytes.length + payload.length
  let cipherLen := plainLen + aeadTagLen
  let frameLen := bareFrameLen metaBytes.length payload.length + padLen
  let totalWire := frameHeaderSize + cipherLen + padLen
  let grown := growFor h dst totalWire
  let wire := grown.1.dropFirst dst.len
  let h := writeHeader grown.2 wire frameLen f.counter t metaBytes.length padLen
  let h := layPlaintext h wire metaBytes payload
  let h := sealInPlace P h wire f plainLen
  let pad := wire.dropFirst (frameHeaderSize + cipherLen)
  if 0 < padLen then
    match draw padLen with
    | none => ⟨some .padRand, grown.1.sub 0 dst.len, f, h.copyTo pad short⟩
    | some bytes =>
        ⟨none, grown.1, { f with counter := f.counter + 1 },
          h.copyTo pad bytes.val⟩
  else ⟨none, grown.1, { f with counter := f.counter + 1 }, h⟩

/-- `EncodeFrameAppend` on the slice `dst`. -/
def encodeFrameInto (P : Primitives) (h : Heap UInt8) (dst : SliceRef)
    (f : FrameAEAD) (t : FrameType) (metaBytes payload : Bytes) (padLen : ℤ)
    (draw : RandRead) (short : Bytes) : Encoded :=
  if !t.valid then ⟨some .frameType, dst, f, h⟩
  else if maxMetaLen < metaBytes.length then ⟨some .metaTooLarge, dst, f, h⟩
  else
    let padLen := if padLen < 0 then 0 else padLen
    if (maxFramePad : ℤ) < padLen then ⟨some .padTooLarge, dst, f, h⟩
    else
      let frameLen :=
        bareFrameLen metaBytes.length payload.length + padLen.toNat
      if maxFrameSize < frameLen then ⟨some .frameTooLarge, dst, f, h⟩
      else buildFrame P h dst f t metaBytes payload padLen.toNat draw short

/-- `EncodeFrame`: what it hands to `Write`, and the context it leaves. -/
def encodeFrame (P : Primitives) (f : FrameAEAD) (t : FrameType)
    (metaBytes payload : Bytes) (padLen : ℤ) (draw : RandRead) (short : Bytes) :
    Except EwpError Bytes × FrameAEAD :=
  let out := encodeFrameInto P .empty .nil f t metaBytes payload padLen draw short
  match out.err with
  | some e => (.error e, out.aead)
  | none => (.ok (out.heap.read out.slice), out.aead)

/-! ## The pieces -/

section Pieces

variable {h h₀ : Heap UInt8} {dst wire : SliceRef}

/-- The extended destination has its bytes in front. -/
structure Grown (h : Heap UInt8) (dst : SliceRef) (total : ℕ)
    (out : SliceRef × Heap UInt8) : Prop where
  holds : out.2.Holds out.1
  len : out.1.len = dst.len + total
  front : out.2.read (out.1.sub 0 dst.len) = h.read dst
  others : ∀ t, h.Holds t → out.2.Holds t
  cap : total ≤ dst.cap - dst.len → out.1.cap = dst.cap

theorem growFor_grown (hdst : h.Holds dst) (total : ℕ) :
    Grown h dst total (growFor h dst total) := by
  have hlen := hdst.len_le
  unfold growFor
  by_cases hgrow : dst.cap - dst.len < total
  · rw [if_pos hgrow]
    dsimp only
    rw [Heap.read_alloc hdst]
    have halloc := @Heap.holds_alloc _ h (List.replicate (dst.len + total) 0)
    have hlenAlloc :
        (h.alloc (List.replicate (dst.len + total) (0 : UInt8))).1.len =
          dst.len + total := List.length_replicate
    have hothers : ∀ t, h.Holds t →
        (h.alloc (List.replicate (dst.len + total) (0 : UInt8))).2.Holds t :=
      fun _ ht => ht.alloc
    generalize h.alloc (List.replicate (dst.len + total) (0 : UInt8)) = grown
      at halloc hlenAlloc hothers ⊢
    have hread := Heap.read_length hdst
    have hfilled := (Heap.filled_nil halloc).copy 0 grown.1.len (h.read dst) rfl
      (by omega) (by omega)
    rw [List.nil_append, SliceRef.sub_full] at hfilled
    refine ⟨hfilled.keepsHolds halloc, hlenAlloc, ?_,
      fun t ht => hfilled.keepsHolds (hothers t ht), fun hfits => by omega⟩
    rw [hfilled.read_sub hread.ge, List.drop_zero, List.take_of_length_le hread.le]
  · rw [if_neg hgrow]
    refine ⟨Heap.holds_sub hdst (by omega) (by omega), by simp [SliceRef.sub], ?_,
      fun _ ht => ht, fun _ => by simp [SliceRef.sub]⟩
    simp [SliceRef.sub, Heap.read]

theorem writeHeader_filled
    (hwire : h.Holds wire) (hlen : frameHeaderSize ≤ wire.len) (frameLen : ℕ)
    (counter : UInt64) (t : FrameType) (metaLen padLen : ℕ) :
    Heap.Filled h wire (frameHeader frameLen counter t metaLen padLen)
      (writeHeader h wire frameLen counter t metaLen padLen) := by
  simp only [frameHeaderSize] at hlen
  have hfilled := (Heap.filled_nil hwire).copy 0 4 (putBE 4 frameLen) rfl
    (by simp) (by simp; omega)
  have hfilled := hfilled.copy 4 12 (putBE 8 counter.toNat) (by simp) (by simp)
    (by simp; omega)
  have hfilled := hfilled.copy 12 13 [t.code] (by simp) (by simp) (by simp; omega)
  have hfilled := hfilled.copy 13 15 (putBE 2 metaLen) (by simp) (by simp)
    (by simp; omega)
  have hfilled := hfilled.copy 15 17 (putBE 2 padLen) (by simp) (by simp)
    (by simp; omega)
  simp only [List.nil_append, List.append_assoc] at hfilled
  exact hfilled

theorem layPlaintext_filled
    {hdr metaBytes payload : Bytes} (hfilled : Heap.Filled h₀ wire hdr h)
    (hhdr : hdr.length = frameHeaderSize)
    (hfits : frameHeaderSize + (metaBytes.length + payload.length) ≤ wire.len) :
    Heap.Filled h₀ wire (hdr ++ (metaBytes ++ payload))
      (layPlaintext h wire metaBytes payload) := by
  unfold layPlaintext
  by_cases hplain : 0 < metaBytes.length + payload.length
  · rw [if_pos hplain]
    have hfilled := hfilled.copy frameHeaderSize wire.len metaBytes hhdr.symm
      (by omega) (by omega)
    have hfilled := hfilled.copy (frameHeaderSize + metaBytes.length) wire.len
      payload (by rw [List.length_append, hhdr]) (by omega) (by omega)
    rwa [List.append_assoc] at hfilled
  · have hmeta : metaBytes = [] := List.length_eq_zero_iff.mp (by omega)
    have hpayload : payload = [] := List.length_eq_zero_iff.mp (by omega)
    rw [if_neg hplain, hmeta, hpayload, List.append_nil, List.append_nil]
    exact hfilled

theorem sealInPlace_filled
    (P : Primitives) (f : FrameAEAD) {hdr plain : Bytes}
    (hfilled : Heap.Filled h₀ wire (hdr ++ plain) h)
    (hhdr : hdr.length = frameHeaderSize)
    (hfits : frameHeaderSize + (plain.length + aeadTagLen) ≤ wire.len) :
    Heap.Filled h₀ wire
      (hdr ++ P.aeadSeal f.key (f.composeNonce f.counter) plain hdr)
      (sealInPlace P h wire f plain.length) := by
  have hreadHdr : h.read (wire.sub 0 frameHeaderSize) = hdr := by
    rw [hfilled.read_sub (by rw [List.length_append]; omega),
      List.take_left' hhdr, List.drop_zero]
  have hreadPlain : h.read (wire.sub frameHeaderSize
      (frameHeaderSize + plain.length)) = plain := by
    rw [hfilled.read_sub (by rw [List.length_append]; omega),
      List.take_of_length_le (by rw [List.length_append]; omega),
      List.drop_left' hhdr]
  have hcap := hfilled.holds.len_le
  have hlen := P.aeadSeal_length f.key (f.composeNonce f.counter) plain hdr
  unfold sealInPlace
  dsimp only
  rw [hreadHdr, hreadPlain, Heap.append_in_place _ _ (by
    rw [hlen]
    simp only [SliceRef.sub]
    omega)]
  have hsealed := hfilled.rewrite
    (P.aeadSeal f.key (f.composeNonce f.counter) plain hdr) (by omega)
    (by omega)
  rw [hhdr] at hsealed
  simpa [SliceRef.sub] using hsealed

/-- The frame up to its pad. -/
theorem sealedFrame_filled
    (P : Primitives) (f : FrameAEAD) (t : FrameType) (metaBytes payload : Bytes)
    (frameLen padLen : ℕ) (hwire : h.Holds wire)
    (hfits : frameHeaderSize +
      (metaBytes.length + payload.length + aeadTagLen) ≤ wire.len) :
    Heap.Filled h wire
      (frameHeader frameLen f.counter t metaBytes.length padLen ++
        P.aeadSeal f.key (f.composeNonce f.counter) (metaBytes ++ payload)
          (frameHeader frameLen f.counter t metaBytes.length padLen))
      (sealInPlace P
        (layPlaintext
          (writeHeader h wire frameLen f.counter t metaBytes.length padLen) wire
          metaBytes payload) wire f (metaBytes.length + payload.length)) := by
  have hhdr := frameHeader_length frameLen f.counter t metaBytes.length padLen
  have hheader := writeHeader_filled hwire (by omega) frameLen f.counter t
    metaBytes.length padLen
  have hplain := layPlaintext_filled hheader hhdr
    (by omega : frameHeaderSize + (metaBytes.length + payload.length) ≤ wire.len)
  have hsealed := sealInPlace_filled P f hplain hhdr
    (by rw [List.length_append]; exact hfits)
  rwa [List.length_append] at hsealed

end Pieces

/-! ## The encoder against its value -/

/-- A call on memory does what the encoder does on values: an error leaves the
destination's bytes, a success shows the frame behind them. -/
structure Encoded.Matches (h : Heap UInt8) (dst : SliceRef) (f : FrameAEAD)
    (value : Except EwpError (Bytes × FrameAEAD)) (out : Encoded) : Prop where
  others : ∀ t, h.Holds t → out.heap.Holds t
  holds : out.heap.Holds out.slice
  error : ∀ e, value = .error e →
    out.err = some e ∧ out.heap.read out.slice = h.read dst ∧ out.aead = f
  ok : ∀ w f', value = .ok (w, f') →
    out.err = none ∧ out.heap.read out.slice = h.read dst ++ w ∧ out.aead = f' ∧
      (w.length ≤ dst.cap - dst.len → out.slice.cap = dst.cap)

section Encoder

variable {P : Primitives} {h : Heap UInt8} {dst : SliceRef} {f : FrameAEAD}

theorem matches_refused (hdst : h.Holds dst) (e : EwpError) :
    Encoded.Matches h dst f (.error e) ⟨some e, dst, f, h⟩ := by
  refine ⟨fun _ ht => ht, hdst, ?_, ?_⟩
  · rintro _ ⟨⟩
    exact ⟨rfl, rfl, rfl⟩
  · rintro _ _ ⟨⟩

/-- The pieces end where the slice ends. -/
theorem matches_built
    {grown : SliceRef × Heap UInt8} {total : ℕ}
    (hgrown : Grown h dst total grown) {w : Bytes} (hw : w.length = total)
    {h' : Heap UInt8}
    (hfilled : Heap.Filled grown.2 (grown.1.dropFirst dst.len) w h')
    (f' : FrameAEAD) :
    Encoded.Matches h dst f (.ok (w, f')) ⟨none, grown.1, f', h'⟩ := by
  refine ⟨fun t ht => hfilled.keepsHolds (hgrown.others t ht),
    hfilled.keepsHolds hgrown.holds, ?_, ?_⟩
  · rintro _ ⟨⟩
  · rintro _ _ ⟨⟩
    have hread : h'.read grown.1 = h.read dst ++ w := by
      rw [hfilled.read_whole (by rw [hgrown.len, hw]), hgrown.front]
    exact ⟨rfl, hread, rfl, fun hfits => hgrown.cap (hw ▸ hfits)⟩

theorem matches_rolledBack
    {grown : SliceRef × Heap UInt8} {total : ℕ}
    (hgrown : Grown h dst total grown) {done : Bytes} {h' : Heap UInt8}
    (hfilled : Heap.Filled grown.2 (grown.1.dropFirst dst.len) done h')
    (e : EwpError) :
    Encoded.Matches h dst f (.error e) ⟨some e, grown.1.sub 0 dst.len, f, h'⟩ := by
  have hlen := hgrown.len
  have hcap := hgrown.holds.len_le
  have hfront : grown.2.Holds (grown.1.sub 0 dst.len) :=
    Heap.holds_sub hgrown.holds (Nat.zero_le _) (by omega)
  refine ⟨fun t ht => hfilled.keepsHolds (hgrown.others t ht),
    hfilled.keepsHolds hfront, ?_, ?_⟩
  · rintro _ ⟨⟩
    exact ⟨rfl, hfilled.read_front.trans hgrown.front, rfl⟩
  · rintro _ _ ⟨⟩

/-- What the encoder computes once its arguments have passed. -/
def frameValue (P : Primitives) (f : FrameAEAD) (t : FrameType)
    (metaBytes payload : Bytes) (padLen : ℕ) (draw : RandRead) :
    Except EwpError (Bytes × FrameAEAD) :=
  let hdr := frameHeader (bareFrameLen metaBytes.length payload.length + padLen)
    f.counter t metaBytes.length padLen
  let cipher := P.aeadSeal f.key (f.composeNonce f.counter)
    (metaBytes ++ payload) hdr
  match drawPad draw padLen with
  | none => .error .padRand
  | some pad =>
      .ok ([] ++ (hdr ++ (cipher ++ pad)), { f with counter := f.counter + 1 })

theorem buildFrame_matches
    (hdst : h.Holds dst) (t : FrameType) (metaBytes payload : Bytes) (padLen : ℕ)
    (draw : RandRead) (short : Bytes) :
    Encoded.Matches h dst f (frameValue P f t metaBytes payload padLen draw)
      (buildFrame P h dst f t metaBytes payload padLen draw short) := by
  unfold buildFrame frameValue
  dsimp only
  generalize htotal : frameHeaderSize +
    (metaBytes.length + payload.length + aeadTagLen) + padLen = total
  have hgrown := growFor_grown hdst total
  generalize growFor h dst total = grown at hgrown ⊢
  have hlen := hgrown.len
  have hwire : grown.2.Holds (grown.1.dropFirst dst.len) :=
    Heap.holds_sub hgrown.holds (by omega) hgrown.holds.len_le
  have hwireLen : (grown.1.dropFirst dst.len).len = total := by
    simp [SliceRef.dropFirst, SliceRef.sub, hlen]
  have hsealed := sealedFrame_filled P f t metaBytes payload
    (bareFrameLen metaBytes.length payload.length + padLen) padLen hwire (by omega)
  have hhdr := frameHeader_length
    (bareFrameLen metaBytes.length payload.length + padLen) f.counter t
    metaBytes.length padLen
  generalize frameHeader (bareFrameLen metaBytes.length payload.length + padLen)
    f.counter t metaBytes.length padLen = hdr at hsealed hhdr ⊢
  have hcipher := P.aeadSeal_length f.key (f.composeNonce f.counter)
    (metaBytes ++ payload) hdr
  rw [List.length_append] at hcipher
  generalize P.aeadSeal f.key (f.composeNonce f.counter) (metaBytes ++ payload)
    hdr = cipher at hsealed hcipher ⊢
  generalize sealInPlace P _ _ f _ = h₃ at hsealed ⊢
  have hdone : frameHeaderSize + (metaBytes.length + payload.length + aeadTagLen) =
      (hdr ++ cipher).length := by
    rw [List.length_append, hhdr, hcipher]
  have hroom : (hdr ++ cipher).length + padLen =
      (grown.1.dropFirst dst.len).len := by
    rw [hwireLen, ← htotal, hdone]
  rw [hdone]
  generalize hwireRef : grown.1.dropFirst dst.len = wire at hsealed hroom
  by_cases hpos : 0 < padLen
  · rw [if_pos hpos, drawPad, if_pos hpos]
    cases draw padLen with
    | none =>
        have hpadLen : (wire.dropFirst (hdr ++ cipher).length).len ≤ padLen := by
          simp only [SliceRef.dropFirst, SliceRef.sub]
          omega
        have hshort := List.length_take_le
          (wire.dropFirst (hdr ++ cipher).length).len short
        have hfilled := hsealed.copy _ wire.len
          (short.take (wire.dropFirst (hdr ++ cipher).length).len) rfl
          (by omega) (by omega)
        subst hwireRef
        rw [← Heap.copyTo_take]
        exact matches_rolledBack hgrown hfilled .padRand
    | some bytes =>
        have hbytes := bytes.property
        have hfilled := hsealed.copy _ wire.len bytes.val rfl (by omega) (by omega)
        subst hwireRef
        rw [List.append_assoc] at hfilled
        exact matches_built hgrown (by simp only [List.length_append] at *; omega)
          hfilled _
  · have hzero : padLen = 0 := by omega
    subst hwireRef
    rw [if_neg hpos, drawPad, if_neg hpos]
    dsimp only
    rw [List.append_nil, List.nil_append]
    exact matches_built hgrown (by omega) hsealed _

theorem encodeFrameInto_matches
    (hdst : h.Holds dst) (t : FrameType) (metaBytes payload : Bytes) (padLen : ℤ)
    (draw : RandRead) (short : Bytes) :
    Encoded.Matches h dst f
      (encodeFrameAppend P [] f t metaBytes payload padLen draw)
      (encodeFrameInto P h dst f t metaBytes payload padLen draw short) := by
  unfold encodeFrameInto encodeFrameAppend
  by_cases htype : (!t.valid) = true
  · rw [if_pos htype, if_pos htype]
    exact matches_refused hdst _
  rw [if_neg htype, if_neg htype]
  by_cases hmeta : maxMetaLen < metaBytes.length
  · rw [if_pos hmeta, if_pos hmeta]
    exact matches_refused hdst _
  rw [if_neg hmeta, if_neg hmeta]
  dsimp only
  generalize (if padLen < 0 then 0 else padLen) = padLen
  by_cases hpad : (maxFramePad : ℤ) < padLen
  · rw [if_pos hpad, if_pos hpad]
    exact matches_refused hdst _
  rw [if_neg hpad, if_neg hpad]
  by_cases hsize : maxFrameSize <
      bareFrameLen metaBytes.length payload.length + padLen.toNat
  · rw [if_pos hsize, if_pos hsize]
    exact matches_refused hdst _
  rw [if_neg hsize, if_neg hsize]
  exact buildFrame_matches hdst t metaBytes payload padLen.toNat draw short

end Encoder

/-- Against `EncodeFrame`, which starts from the nil slice. -/
theorem encodeFrameInto_encodeFrame
    {P : Primitives} {h : Heap UInt8} {dst : SliceRef} (hdst : h.Holds dst)
    (f : FrameAEAD) (t : FrameType) (metaBytes payload : Bytes) (padLen : ℤ)
    (draw : RandRead) (short short' : Bytes) :
    let out := encodeFrameInto P h dst f t metaBytes payload padLen draw short
    let plain := encodeFrame P f t metaBytes payload padLen draw short'
    (∀ w, plain.1 = .ok w → out.err = none ∧
      out.heap.read out.slice = h.read dst ++ w ∧ out.aead = plain.2) ∧
    (∀ e, plain.1 = .error e → out.err = some e ∧
      out.heap.read out.slice = h.read dst ∧ out.aead = f) := by
  intro out plain
  have hout : Encoded.Matches h dst f _ out :=
    encodeFrameInto_matches hdst t metaBytes payload padLen draw short
  have hplain := @encodeFrameInto_matches P _ _ f (Heap.holds_nil (h := .empty)) t
    metaBytes payload padLen draw short'
  cases hvalue : encodeFrameAppend P [] f t metaBytes payload padLen draw with
  | error e =>
      obtain ⟨herr, -, -⟩ := hplain.error e hvalue
      have hresult : plain.1 = .error e := by
        simp only [plain, encodeFrame, herr]
      rw [hresult]
      refine ⟨fun _ hok => by simp at hok, ?_⟩
      rintro _ ⟨⟩
      exact hout.error e hvalue
  | ok value =>
      obtain ⟨w, f'⟩ := value
      obtain ⟨herr, hread, haead, -⟩ := hplain.ok w f' hvalue
      have hnil : Heap.read (.empty : Heap UInt8) .nil = [] := rfl
      rw [hnil, List.nil_append] at hread
      have hresult : plain = (.ok w, f') := by
        simp only [plain, encodeFrame, herr, hread, haead]
      rw [hresult]
      refine ⟨?_, fun _ hbad => by simp at hbad⟩
      rintro _ ⟨⟩
      obtain ⟨hnone, hbytes, hcontext, -⟩ := hout.ok w f' hvalue
      exact ⟨hnone, hbytes, hcontext⟩

/-! ## One buffer for all frames -/

/-- A stream with its send buffer in memory. -/
structure BufferedStream where
  stream : SecureStream
  heap : Heap UInt8
  sendBuf : SliceRef

namespace BufferedStream

/-- The buffer is in memory, with the capacity that the stream goes by. -/
structure Sound (b : BufferedStream) : Prop where
  holds : b.heap.Holds b.sendBuf
  cap : b.sendBuf.cap = b.stream.sendBufCap

/-- `make([]byte, 0, total)` when the send buffer is too small. -/
def grow (b : BufferedStream) (total : ℤ) : BufferedStream :=
  if (b.sendBuf.cap : ℤ) < total then
    let grown := b.heap.alloc (List.replicate total.toNat 0)
    { stream := { b.stream with sendBufCap := total.toNat }
      heap := grown.2
      sendBuf := grown.1.sub 0 0 }
  else b

end BufferedStream

/-- A call of `sendFrame` and what it meets. -/
structure BufferedSend where
  type : FrameType
  metaBytes : Bytes
  payload : Bytes
  padLen : ℤ
  env : StreamEnv
  /-- What a failing random read leaves in the pad. -/
  short : Bytes

namespace BufferedSend

/-- The section of `sendFrame` under `writeMu`, with the buffer it works on. -/
def send (P : Primitives) (c : BufferedSend) (b : BufferedStream) :
    Outcome EwpError Unit × BufferedStream :=
  let raw := rawWireLen c.metaBytes.length c.payload.length
  let padLen := framePad b.stream raw c.padLen c.env.bucket
  let total := toInt64 (raw + padLen)
  if (b.sendBuf.cap : ℤ) < total ∧ (maxAlloc : ℤ) < total then (.panic, b)
  else
    let b := b.grow total
    let out := encodeFrameInto P b.heap (b.sendBuf.sub 0 0) b.stream.send c.type
      c.metaBytes c.payload padLen c.env.pad c.short
    match out.err with
    | some e =>
        (.error (.encodeFrame c.type.code e),
          { b with stream := { b.stream with send := out.aead }, heap := out.heap })
    | none =>
        let wire := out.heap.read out.slice
        let stream :=
          b.stream.handOver out.aead ⟨c.type, c.metaBytes, c.payload, wire⟩
        match c.env.sendMessage wire with
        | some e =>
            (.error (.transportSend e), ⟨stream.close, out.heap, out.slice⟩)
        | none =>
            (.ok (), ⟨stream.countSent c.type wire c.env.nowNs, out.heap, out.slice⟩)

/-- The same call without a buffer. -/
def locked (P : Primitives) (c : BufferedSend) (s : SecureStream) :
    Outcome EwpError Unit × SecureStream :=
  sendFrameLocked P c.type c.metaBytes c.payload c.padLen c.env s

/-- The message of the frame, if it can be encoded. -/
def message (P : Primitives) (c : BufferedSend) (s : SecureStream) :
    List SentFrame :=
  match encodeFrameAppend P [] s.send c.type c.metaBytes c.payload
      (framePad s (rawWireLen c.metaBytes.length c.payload.length) c.padLen
        c.env.bucket) c.env.pad with
  | .error _ => []
  | .ok (wire, _) => [⟨c.type, c.metaBytes, c.payload, wire⟩]

end BufferedSend

section Sends

variable {P : Primitives} {b : BufferedStream}

theorem BufferedStream.Sound.grow (hb : b.Sound) (total : ℤ) :
    (b.grow total).Sound ∧ (b.grow total).stream = b.stream.growSendBuf total ∧
      total ≤ (b.grow total).sendBuf.cap := by
  have hcap := hb.cap
  unfold BufferedStream.grow SecureStream.growSendBuf
  rw [hcap]
  by_cases hsmall : (b.stream.sendBufCap : ℤ) < total
  · rw [if_pos hsmall, if_pos hsmall]
    refine ⟨⟨Heap.holds_sub Heap.holds_alloc le_rfl (Nat.zero_le _), ?_⟩, rfl, ?_⟩
    · simp [Heap.alloc, SliceRef.sub]
    · simp [Heap.alloc, SliceRef.sub]
  · rw [if_neg hsmall, if_neg hsmall]
    exact ⟨hb, rfl, by omega⟩

/-- The buffer `sendFrame` provides has room for the frame. -/
theorem encoded_fits
    {f f' : FrameAEAD} {t : FrameType} {metaBytes payload w : Bytes} {pad : ℤ}
    {draw : RandRead} (hpad : 0 ≤ pad)
    (henc : encodeFrameAppend P [] f t metaBytes payload pad draw = .ok (w, f')) :
    (w.length : ℤ) =
      toInt64 (rawWireLen metaBytes.length payload.length + pad) := by
  have hlen := encodeFrameAppend_length henc
  have hle := encodeFrameAppend_length_le henc
  simp only [maxFrameSize] at hle
  rw [toInt64_of_small (by omega) (by omega)]
  omega

/-- With the buffer or without it, a call ends the same way. -/
theorem BufferedSend.send_refines (hb : b.Sound) (c : BufferedSend) :
    (c.send P b).1 = (c.locked P b.stream).1 ∧
      (c.send P b).2.stream = (c.locked P b.stream).2 ∧
      (c.send P b).2.Sound := by
  have hpad := framePad_nonneg b.stream
    (rawWireLen c.metaBytes.length c.payload.length) c.padLen c.env.bucket
  unfold BufferedSend.send BufferedSend.locked sendFrameLocked
  dsimp only
  generalize framePad b.stream (rawWireLen c.metaBytes.length c.payload.length)
    c.padLen c.env.bucket = pad at hpad ⊢
  rw [hb.cap]
  split
  · exact ⟨rfl, rfl, hb⟩
  have hfits : ∀ {f f' : FrameAEAD} {w : Bytes},
      encodeFrameAppend P [] f c.type c.metaBytes c.payload pad c.env.pad =
        .ok (w, f') → (w.length : ℤ) =
          toInt64 (rawWireLen c.metaBytes.length c.payload.length + pad) :=
    fun henc => encoded_fits hpad henc
  generalize toInt64 (rawWireLen c.metaBytes.length c.payload.length + pad) = total
    at hfits ⊢
  obtain ⟨hgrown, hstream, hroom⟩ := hb.grow total
  rw [← hstream]
  generalize b.grow total = b₁ at hgrown hroom ⊢
  have hdst : b₁.heap.Holds (b₁.sendBuf.sub 0 0) :=
    Heap.holds_sub hgrown.holds le_rfl (Nat.zero_le _)
  have hout := @encodeFrameInto_matches P _ _ b₁.stream.send hdst c.type
    c.metaBytes c.payload pad c.env.pad c.short
  generalize encodeFrameInto P b₁.heap (b₁.sendBuf.sub 0 0) b₁.stream.send c.type
    c.metaBytes c.payload pad c.env.pad c.short = out at hout ⊢
  cases hvalue : encodeFrameAppend P [] b₁.stream.send c.type c.metaBytes c.payload
      pad c.env.pad with
  | error e =>
      obtain ⟨herr, -, haead⟩ := hout.error e hvalue
      simp only [herr, haead]
      exact ⟨trivial, trivial, hout.others _ hgrown.holds, hgrown.cap⟩
  | ok value =>
      obtain ⟨w, f'⟩ := value
      obtain ⟨herr, hread, haead, hcap⟩ := hout.ok w f' hvalue
      have hempty : b₁.heap.read (b₁.sendBuf.sub 0 0) = [] := by
        simp [Heap.read, SliceRef.sub]
      have hsize := hfits hvalue
      have hslice : out.slice.cap = b₁.stream.sendBufCap := by
        rw [hcap (by simp only [SliceRef.sub]; omega), ← hgrown.cap]
        rfl
      rw [hempty, List.nil_append] at hread
      simp only [herr, hread, haead]
      cases c.env.sendMessage w with
      | none => exact ⟨rfl, rfl, hout.holds, hslice⟩
      | some e =>
          refine ⟨rfl, rfl, hout.holds, ?_⟩
          rw [SecureStream.close_sendBufCap]
          exact hslice

/-- Unless the buffer cannot be had, the message is that of the frame. -/
theorem BufferedSend.locked_handed
    (c : BufferedSend) (s : SecureStream) (hreturns : (c.locked P s).1 ≠ .panic) :
    (c.locked P s).2.handed = s.handed ++ c.message P s := by
  unfold BufferedSend.locked sendFrameLocked at hreturns ⊢
  unfold BufferedSend.message
  dsimp only at hreturns ⊢
  generalize framePad s (rawWireLen c.metaBytes.length c.payload.length) c.padLen
    c.env.bucket = pad at hreturns ⊢
  split at hreturns
  · exact absurd rfl hreturns
  rename_i hgranted
  rw [if_neg hgranted]
  obtain ⟨cap, hcap⟩ := growSendBuf_eq s
    (toInt64 (rawWireLen c.metaBytes.length c.payload.length + pad))
  rw [hcap]
  cases encodeFrameAppend P [] s.send c.type c.metaBytes c.payload pad
      c.env.pad with
  | error e => exact (List.append_nil _).symm
  | ok value =>
      obtain ⟨w, f'⟩ := value
      cases hsend : c.env.sendMessage w with
      | none => simp only [hsend]; rfl
      | some e =>
          simp only [hsend, SecureStream.close_handed]
          rfl

/-- The stream after a number of calls that share its buffer. -/
def sendsBuffered (P : Primitives) (b : BufferedStream)
    (sends : List BufferedSend) : BufferedStream :=
  sends.foldl (fun b c => (c.send P b).2) b

def sendsLocked (P : Primitives) (s : SecureStream) (sends : List BufferedSend) :
    SecureStream :=
  sends.foldl (fun s c => (c.locked P s).2) s

theorem sendsBuffered_refines (hb : b.Sound) (sends : List BufferedSend) :
    (sendsBuffered P b sends).stream = sendsLocked P b.stream sends ∧
      (sendsBuffered P b sends).Sound := by
  induction sends generalizing b with
  | nil => exact ⟨rfl, hb⟩
  | cons c rest ih =>
      obtain ⟨-, hstream, hsound⟩ := BufferedSend.send_refines (P := P) hb c
      have hrest := ih hsound
      rw [hstream] at hrest
      exact hrest

end Sends

/-- Into any slice, whatever its array holds behind its length, the encoder
appends the bytes that `EncodeFrame` writes; an error shows the slice's own bytes
and leaves the counter.  After any calls that shared the send buffer of a stream,
the next message is that of its frame. -/
theorem buffer_reuse_never_leaks (P : Primitives) :
    (∀ (h : Heap UInt8) (dst : SliceRef) (f : FrameAEAD) (t : FrameType)
      (metaBytes payload : Bytes) (padLen : ℤ) (draw : RandRead)
      (short short' : Bytes), h.Holds dst →
      let out := encodeFrameInto P h dst f t metaBytes payload padLen draw short
      let plain := encodeFrame P f t metaBytes payload padLen draw short'
      (∀ w, plain.1 = .ok w → out.err = none ∧
        out.heap.read out.slice = h.read dst ++ w ∧ out.aead = plain.2) ∧
      (∀ e, plain.1 = .error e → out.err = some e ∧
        out.heap.read out.slice = h.read dst ∧ out.aead = f)) ∧
    ∀ (b : BufferedStream) (sends : List BufferedSend) (next : BufferedSend),
      b.Sound →
      let b' := sendsBuffered P b sends
      b'.stream = sendsLocked P b.stream sends ∧
        (next.send P b').1 = (next.locked P b'.stream).1 ∧
        ((next.send P b').1 ≠ .panic →
          (next.send P b').2.stream.handed =
            b'.stream.handed ++ next.message P b'.stream) := by
  refine ⟨?_, ?_⟩
  · intro h dst f t metaBytes payload padLen draw short short' hdst
    exact encodeFrameInto_encodeFrame hdst f t metaBytes payload padLen draw short
      short'
  · intro b sends next hb b'
    obtain ⟨hstream, hsound⟩ := sendsBuffered_refines (P := P) hb sends
    obtain ⟨houtcome, hnext, -⟩ := BufferedSend.send_refines (P := P) hsound next
    refine ⟨hstream, houtcome, ?_⟩
    intro hreturns
    rw [houtcome] at hreturns
    rw [hnext]
    exact next.locked_handed b'.stream hreturns

namespace Transparent

/-- Sixty stale bytes. -/
def staleHeap : Heap UInt8 := ⟨[List.replicate 60 0xff]⟩

def staleBuf : SliceRef := ⟨0, 0, 1, 60⟩

def staleStream : BufferedStream where
  stream := { newClientSecureStream keys with sendBufCap := 60 }
  heap := staleHeap
  sendBuf := staleBuf

def pingSend : BufferedSend where
  type := framePing
  metaBytes := []
  payload := [7]
  padLen := 0
  env := framerEnv
  short := []

theorem staleBuf_held : staleHeap.Holds staleBuf := ⟨by decide, by decide⟩

end Transparent

open Transparent in
/-- A ping frame in a buffer full of stale bytes: in place, behind the one byte
that belongs to the slice, and as the next message of a stream. -/
theorem buffer_reuse_stale :
    let f := staleStream.stream.send
    let out := encodeFrameInto suite staleHeap staleBuf f framePing [] [7] 0
      framerEnv.pad []
    (∃ w, (encodeFrame suite f framePing [] [7] 0 framerEnv.pad []).1 = .ok w ∧
        out.heap.read out.slice = [0xff] ++ w) ∧
      (pingSend.send suite staleStream).2.stream.handed =
        pingSend.message suite staleStream.stream := by
  obtain ⟨hencoder, hstream⟩ := buffer_reuse_never_leaks suite
  intro f out
  refine ⟨⟨_, rfl, ?_⟩, ?_⟩
  · exact ((hencoder staleHeap staleBuf f framePing [] [7] 0 framerEnv.pad [] []
      staleBuf_held).1 _ rfl).2.1
  · exact (hstream staleStream [] pingSend ⟨staleBuf_held, rfl⟩).2.2 (by decide)

end SingEwp
