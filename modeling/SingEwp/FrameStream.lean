import SingEwp.Frame

/-!
# Frames on a byte stream

`EncodeFrameAppend` and `DecodeFrame` are inverse to each other along a whole
stream: repeated decoding gives back the frames that were written and stops
exactly where they end, and a reader that accepts a frame has consumed nothing
but an encoding of it.
-/

namespace SingEwp

variable {P : Primitives}

/-- The arguments of one `EncodeFrameAppend` call, with the random read that
fills its pad. -/
structure FrameRequest where
  type : FrameType
  metaBytes : Bytes
  payload : Bytes
  padLen : ℤ
  draw : RandRead

namespace FrameRequest

structure Fits (q : FrameRequest) : Prop where
  type_valid : q.type.valid = true
  meta_le : q.metaBytes.length ≤ maxMetaLen
  pad_nonneg : 0 ≤ q.padLen
  pad_le : q.padLen ≤ maxFramePad
  size_le : bareFrameLen q.metaBytes.length q.payload.length + q.padLen.toNat ≤
    maxFrameSize
  served : drawPad q.draw q.padLen.toNat ≠ none

def encode (P : Primitives) (f : FrameAEAD) (q : FrameRequest) :
    Except EwpError (Bytes × FrameAEAD) :=
  encodeFrameAppend P [] f q.type q.metaBytes q.payload q.padLen q.draw

def decoded (q : FrameRequest) (counter : UInt64) : DecodedFrame where
  counter := counter
  type := q.type
  metaBytes := appendToNil q.metaBytes
  payload := appendToNil q.payload

theorem Fits.encode_ok
    {q : FrameRequest} (hfits : q.Fits) (P : Primitives) (f : FrameAEAD) :
    ∃ fr : Frame, fr.decoded f.counter = q.decoded f.counter ∧
      q.encode P f = .ok (fr.wire P f, { f with counter := f.counter + 1 }) := by
  obtain ⟨out, f', henc⟩ :=
    encodeFrameAppend_succeeds P [] f hfits.type_valid hfits.meta_le hfits.pad_le
      hfits.size_le hfits.served
  obtain ⟨fr, htype, hmeta, hpayload, _, hout, hf'⟩ := encodeFrameAppend_ok henc
  refine ⟨fr, ?_, ?_⟩
  · rw [Frame.decoded, decoded, htype, hmeta, hpayload]
  · rw [encode, henc, hout, hf', List.nil_append]

end FrameRequest

/-- The outputs of one `EncodeFrameAppend` call after another. -/
def encodeFrames (P : Primitives) :
    FrameAEAD → List FrameRequest → Except EwpError (List Bytes × FrameAEAD)
  | f, [] => .ok ([], f)
  | f, q :: qs =>
      match q.encode P f with
      | .error e => .error e
      | .ok (w, f) =>
          match encodeFrames P f qs with
          | .error e => .error e
          | .ok (ws, f) => .ok (w :: ws, f)

/-- `n` calls of `DecodeFrame` on one reader, given up at the first error. -/
def decodeFrames (P : Primitives) :
    ℕ → Bytes → FrameAEAD →
      Except EwpError (List DecodedFrame × FrameAEAD) × Bytes
  | 0, r, f => (.ok ([], f), r)
  | n + 1, r, f =>
      match decodeFrame P r f with
      | (.error e, r) => (.error e, r)
      | (.ok (df, f), r) =>
          match decodeFrames P n r f with
          | (.error e, r) => (.error e, r)
          | (.ok (dfs, f), r) => (.ok (df :: dfs, f), r)

/-- What the requests look like to a receiver that starts at `counter`. -/
def decodedFrames (counter : UInt64) : List FrameRequest → List DecodedFrame
  | [] => []
  | q :: qs => q.decoded counter :: decodedFrames (counter + 1) qs

theorem decodeFrames_encodeFrames
    (P : Primitives) (f : FrameAEAD) (qs : List FrameRequest) (trailing : Bytes)
    (hfits : ∀ q ∈ qs, q.Fits) :
    ∃ ws f', encodeFrames P f qs = .ok (ws, f') ∧
      f' = { f with counter := f.counter + UInt64.ofNat qs.length } ∧
      decodeFrames P qs.length (ws.flatten ++ trailing) f =
        (.ok (decodedFrames f.counter qs, f'), trailing) := by
  induction qs generalizing f with
  | nil => exact ⟨[], f, rfl, by simp, rfl⟩
  | cons q qs ih =>
      obtain ⟨fr, hdecoded, henc⟩ := (hfits q List.mem_cons_self).encode_ok P f
      obtain ⟨ws, f', hencs, hf', hdecs⟩ :=
        ih { f with counter := f.counter + 1 }
          (fun q' hq' => hfits q' (List.mem_cons_of_mem _ hq'))
      refine ⟨fr.wire P f :: ws, f', ?_, ?_, ?_⟩
      · simp only [encodeFrames, henc, hencs]
      · rw [hf', List.length_cons, UInt64.ofNat_add, UInt64.add_assoc,
          UInt64.add_comm 1]
        rfl
      · have hdec := decodeFrame_wire P f fr (ws.flatten ++ trailing)
        rw [← List.append_assoc] at hdec
        rw [List.length_cons, List.flatten_cons, decodeFrames, hdec]
        simp only [hdecs, hdecoded, decodedFrames]

theorem decodeFrame_consumes
    {r rest : Bytes} {f f' : FrameAEAD} {df : DecodedFrame}
    (hseals : P.OpensOnlySeals)
    (hdec : decodeFrame P r f = (.ok (df, f'), rest)) :
    ∃ fr : Frame, df = fr.decoded f.counter ∧ r = fr.wire P f ++ rest ∧
      f' = { f with counter := f.counter + 1 } := by
  obtain ⟨hdr, cipherBuf, pad, hfrom⟩ := decodeFrame_decodedFrom hdec
  obtain ⟨hcounter, plain, hplain, hdf, hf'⟩ := openFrame_ok hfrom.opened
  obtain ⟨htype, hmeta⟩ := openFrame_ok_fits hfrom.opened hplain
  have hcipher := (hseals _ _ _ _ _).mp hplain
  have hbody := hfrom.body_ge
  have hframe := hfrom.frameLen_le
  have hcipherLen := hfrom.cipher_length
  rw [hcipher, P.aeadSeal_length, hdrCipherLen] at hcipherLen
  rw [hdrBodyLen] at hbody hcipherLen
  have hmetaLen : (plain.take (hdrMetaLen hdr)).length = hdrMetaLen hdr := by
    rw [List.length_take, min_eq_left hmeta]
  have hlen : bareFrameLen (plain.take (hdrMetaLen hdr)).length
      (plain.drop (hdrMetaLen hdr)).length + pad.length = hdrFrameLen hdr := by
    rw [hmetaLen, List.length_drop, hfrom.pad_length]
    simp only [bareFrameLen, aeadTagLen] at hbody hcipherLen ⊢
    omega
  let fr : Frame :=
    { type := hdrType hdr
      metaBytes := plain.take (hdrMetaLen hdr)
      payload := plain.drop (hdrMetaLen hdr)
      pad := pad
      type_valid := htype
      meta_le := by rw [hmetaLen]; exact hfrom.metaLen_le
      pad_le := by rw [hfrom.pad_length]; exact hfrom.padLen_le
      size_le := by rw [hlen]; exact hframe }
  have hheader : fr.header f.counter = hdr := by
    rw [Frame.header, Frame.frameLen, hlen, hmetaLen, hfrom.pad_length,
      ← hcounter]
    exact frameHeader_fields hfrom.hdr_length
  refine ⟨fr, hdf, ?_, hf'⟩
  rw [Frame.wire, Frame.cipher, hheader, List.take_append_drop, ← hcipher,
    hfrom.read]
  simp only [List.append_assoc, fr]

/-- A random read that yields the given pad. -/
def padRead (pad : Bytes) : RandRead :=
  fun n => some (FixedBytes.copyFrom n pad)

theorem drawPad_padRead (pad : Bytes) :
    drawPad (padRead pad) pad.length = some pad := by
  unfold drawPad padRead
  split
  · rw [Option.map_some, FixedBytes.copyFrom_val_of_length rfl]
  · rename_i hpos
    rw [List.eq_nil_of_length_eq_zero (by omega : pad.length = 0)]

/-- The two codecs are inverse to each other on streams. -/
theorem frames_round_trip (P : Primitives) :
    (∀ (f : FrameAEAD) (qs : List FrameRequest) (trailing : Bytes),
      (∀ q ∈ qs, q.Fits) →
      ∃ ws f', encodeFrames P f qs = .ok (ws, f') ∧
        decodeFrames P qs.length (ws.flatten ++ trailing) f =
          (.ok (decodedFrames f.counter qs, f'), trailing)) ∧
      (P.OpensOnlySeals →
        ∀ (r rest : Bytes) (f f' : FrameAEAD) (df : DecodedFrame),
          decodeFrame P r f = (.ok (df, f'), rest) →
          df.counter = f.counter ∧
            ∃ pad w, r = w ++ rest ∧
              encodeFrameAppend P [] f df.type df.metaBytes.bytes
                df.payload.bytes pad.length (padRead pad) = .ok (w, f')) := by
  refine ⟨?_, ?_⟩
  · intro f qs trailing hfits
    obtain ⟨ws, f', henc, _, hdec⟩ :=
      decodeFrames_encodeFrames P f qs trailing hfits
    exact ⟨ws, f', henc, hdec⟩
  · intro hseals r rest f f' df hdec
    obtain ⟨fr, hdf, hr, hf'⟩ := decodeFrame_consumes hseals hdec
    refine ⟨by rw [hdf]; rfl, fr.pad, fr.wire P f, hr, ?_⟩
    have henc := encodeFrameAppend_frame P [] f fr (drawPad_padRead fr.pad)
    simpa [hdf, hf', Frame.decoded] using henc

namespace Transparent

def zeroAEAD : FrameAEAD :=
  newFrameAEAD (FixedBytes.copyFrom _ []) (FixedBytes.copyFrom _ [])

def paddedRequest : FrameRequest where
  type := frameTCPData
  metaBytes := []
  payload := [7]
  padLen := 3
  draw := padRead [1, 2, 3]

theorem paddedRequest_fits : paddedRequest.Fits where
  type_valid := rfl
  meta_le := by decide
  pad_nonneg := by decide
  pad_le := by decide
  size_le := by decide
  served := by decide

/-- One padded frame followed by a stray byte, in both directions. -/
theorem frames_round_trip_padded :
    ∃ ws f', encodeFrames suite zeroAEAD [paddedRequest] = .ok (ws, f') ∧
      decodeFrames suite 1 (ws.flatten ++ [9]) zeroAEAD =
        (.ok (decodedFrames 0 [paddedRequest], f'), [9]) ∧
      ∃ pad w, ws.flatten ++ [9] = w ++ [9] ∧
        encodeFrameAppend suite [] zeroAEAD frameTCPData [] [7] pad.length
          (padRead pad) = .ok (w, f') := by
  obtain ⟨ws, f', henc, hdec⟩ := (frames_round_trip suite).1 zeroAEAD
    [paddedRequest] [9] (by simpa using paddedRequest_fits)
  refine ⟨ws, f', henc, hdec, ?_⟩
  have hone : decodeFrame suite (ws.flatten ++ [9]) zeroAEAD =
      (.ok (paddedRequest.decoded 0, f'), [9]) := by
    simp only [List.length_singleton, decodeFrames] at hdec
    generalize decodeFrame suite (ws.flatten ++ [9]) zeroAEAD = out at hdec ⊢
    rcases out with ⟨e | ⟨df, f⟩, rest⟩
    · simp at hdec
    · simpa [decodedFrames, zeroAEAD, newFrameAEAD] using hdec
  exact ((frames_round_trip suite).2 opensOnlySeals _ _ _ _ _ hone).2

end Transparent

end SingEwp
