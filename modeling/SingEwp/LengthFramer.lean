import SingEwp.ByteStream
import SingEwp.StreamRuns

/-!
# The length framer

`LengthFramer` of `client.go`: every message travels behind its length in four
bytes.  The framer bounds the whole message by `MaxFrameSize`; the frame layer
bounds `frameLen`, which leaves out its own four bytes.  A frame whose message
is up to four bytes longer than `MaxFrameSize` is therefore encoded and then
refused, and `sendFrame` closes the stream over it.
-/

namespace SingEwp

/-! ## Messages over a byte stream -/

def lengthFrame (msg : Bytes) : Bytes := putBE 4 msg.length ++ msg

/-- `LengthFramer.SendMessage`, given how the two writes end; also the bytes
that reach the connection. -/
def framerSend (writeHdr writeMsg : Option EwpError) (msg : Bytes) :
    Option EwpError × Bytes :=
  if maxFrameSize < msg.length then (some .frameTooLarge, [])
  else
    match writeHdr with
    | some e => (some e, [])
    | none =>
        match writeMsg with
        | some e => (some e, putBE 4 msg.length)
        | none => (none, lengthFrame msg)

/-- `LengthFramer.ReadMessage`; `none` while it waits for more bytes. -/
def framerRead (c : Conn) : Option (Except EwpError Bytes × Conn) :=
  match c.readFull 4 with
  | none => none
  | some (.error e, c) => some (.error (.io e), c)
  | some (.ok hdr, c) =>
      if maxFrameSize < getBE hdr then some (.error .frameTooLarge, c)
      else
        match c.readFull (getBE hdr) with
        | none => none
        | some (.error e, c) => some (.error (.io e), c)
        | some (.ok msg, c) => some (.ok msg, c)

/-- `SendMessage` over a connection whose writes succeed. -/
def framerAccept (msg : Bytes) : Option EwpError := (framerSend none none msg).1

theorem framerAccept_eq (msg : Bytes) :
    framerAccept msg =
      if maxFrameSize < msg.length then some .frameTooLarge else none := by
  unfold framerAccept framerSend
  split <;> rfl

theorem framerAccept_none_iff (msg : Bytes) :
    framerAccept msg = none ↔ msg.length ≤ maxFrameSize := by
  rw [framerAccept_eq]
  by_cases hlong : maxFrameSize < msg.length
  · simp only [if_pos hlong, reduceCtorEq, false_iff]
    exact not_le.mpr hlong
  · simp only [if_neg hlong, true_iff]
    exact not_lt.mp hlong

@[simp] theorem lengthFrame_length (msg : Bytes) :
    (lengthFrame msg).length = 4 + msg.length := by
  simp [lengthFrame]

/-- With the length read, the rest is one more `io.ReadFull`. -/
theorem framerRead_of_header
    {c c' : Conn} {hdr : Bytes} (hhdr : c.readFull 4 = some (.ok hdr, c'))
    (hfits : getBE hdr ≤ maxFrameSize) :
    framerRead c =
      (c'.readFull (getBE hdr)).map (fun r => (r.1.mapError EwpError.io, r.2)) := by
  unfold framerRead
  simp only [hhdr, if_neg (not_lt.mpr hfits)]
  rcases c'.readFull (getBE hdr) with _ | ⟨_ | _, _⟩ <;> rfl

theorem framerRead_body
    {c : Conn} {n : ℕ} {rest : Bytes} (hfits : n ≤ maxFrameSize)
    (hpending : c.pending = putBE 4 n ++ rest) :
    ∃ c' : Conn, c'.pending = rest ∧ c'.ended = c.ended ∧
      framerRead c =
        (c'.readFull n).map (fun r => (r.1.mapError EwpError.io, r.2)) := by
  obtain ⟨c', hhdr, hrest, hended⟩ :=
    Conn.readFull_append (putBE_length 4 n) hpending
  have hlen : getBE (putBE 4 n) = n :=
    getBE_putBE_of_lt (by simp at hfits ⊢; omega)
  have hread := framerRead_of_header hhdr (hlen.le.trans hfits)
  rw [hlen] at hread
  exact ⟨c', hrest, hended, hread⟩

theorem framerRead_lengthFrame
    {c : Conn} {msg rest : Bytes} (hfits : msg.length ≤ maxFrameSize)
    (hpending : c.pending = lengthFrame msg ++ rest) :
    ∃ c', framerRead c = some (.ok msg, c') ∧ c'.pending = rest ∧
      c'.ended = c.ended := by
  rw [lengthFrame, List.append_assoc] at hpending
  obtain ⟨c₁, hbody, hended, hread⟩ := framerRead_body hfits hpending
  obtain ⟨c₂, hmsg, hrest, hended'⟩ := Conn.readFull_append rfl hbody
  refine ⟨c₂, ?_, hrest, hended'.trans hended⟩
  rw [hread, hmsg]
  rfl

theorem framerRead_length
    {c c' : Conn} {msg : Bytes} (hread : framerRead c = some (.ok msg, c')) :
    c'.pending.length < c.pending.length := by
  unfold framerRead at hread
  split at hread
  · cases hread
  · cases hread
  · rename_i hdr c₁ hhdr
    obtain ⟨hlen, hpending⟩ := Conn.readFull_ok hhdr
    split at hread
    · cases hread
    split at hread
    · cases hread
    · cases hread
    · rename_i msg' c₂ hmsg
      obtain ⟨_, hpending'⟩ := Conn.readFull_ok hmsg
      cases hread
      rw [hpending, hpending', List.length_append, List.length_append]
      omega

/-- The part of a message that has arrived, if the length is among it. -/
theorem pending_of_cut
    {c : Conn} {msg rest later : Bytes}
    (hpending : c.pending ++ later = lengthFrame msg ++ rest)
    (hhdr : 4 ≤ c.pending.length) :
    c.pending = putBE 4 msg.length ++ c.pending.drop 4 := by
  have hfirst := congrArg (List.take 4) hpending
  rw [List.take_append_of_le_length hhdr, lengthFrame, List.append_assoc,
    List.take_left' (putBE_length 4 _)] at hfirst
  rw [← hfirst, List.take_append_drop]

theorem framerRead_waits
    {c : Conn} {msg rest later : Bytes} (hfits : msg.length ≤ maxFrameSize)
    (hlive : c.ended = none)
    (hpending : c.pending ++ later = lengthFrame msg ++ rest)
    (hshort : c.pending.length < 4 + msg.length) : framerRead c = none := by
  by_cases hhdr : c.pending.length < 4
  · unfold framerRead
    rw [Conn.readFull_waits hlive hhdr]
  · obtain ⟨c', hrest, hended, hread⟩ :=
      framerRead_body hfits (pending_of_cut hpending (not_lt.mp hhdr))
    have hwait : c'.readFull msg.length = none := by
      apply Conn.readFull_waits (hended.trans hlive)
      rw [hrest, List.length_drop]
      omega
    rw [hread, hwait]
    rfl

/-- A stream that ends within a message makes the read fail.  The end looks like
the end of the stream between two messages if it falls before the message or
right behind its length. -/
theorem framerRead_ended
    {c : Conn} {msg rest later : Bytes} {e : IoError}
    (hfits : msg.length ≤ maxFrameSize) (hended : c.ended = some e)
    (hpending : c.pending ++ later = lengthFrame msg ++ rest)
    (hshort : c.pending.length < 4 + msg.length) :
    ∃ c', framerRead c =
      some (.error (.io (if e = .eof ∧ c.pending.length ≠ 0 ∧
        c.pending.length ≠ 4 then .unexpectedEOF else e)), c') := by
  by_cases hhdr : c.pending.length < 4
  · refine ⟨{ c with arrived := [] }, ?_⟩
    unfold framerRead
    rw [Conn.readFull_ended hended hhdr]
    have hsome : c.pending ≠ [] ↔
        c.pending.length ≠ 0 ∧ c.pending.length ≠ 4 := by
      rw [ne_eq, ← List.length_eq_zero_iff]
      omega
    simp only [hsome]
  · obtain ⟨c', hrest, hended', hread⟩ :=
      framerRead_body hfits (pending_of_cut hpending (not_lt.mp hhdr))
    have hbody := Conn.readFull_ended (hended'.trans hended)
      (show c'.pending.length < msg.length by
        rw [hrest, List.length_drop]; omega)
    have hsome : c'.pending ≠ [] ↔
        c.pending.length ≠ 0 ∧ c.pending.length ≠ 4 := by
      rw [ne_eq, ← List.length_eq_zero_iff, hrest, List.length_drop]
      omega
    refine ⟨{ c' with arrived := [] }, ?_⟩
    rw [hread, hbody]
    simp only [hsome]
    rfl

/-- The framer takes the message and its peer reads it back. -/
def FramerCarries (msg : Bytes) : Prop :=
  framerAccept msg = none ∧
    ∀ (c : Conn) (rest : Bytes),
      c.pending = (framerSend none none msg).2 ++ rest →
      ∃ c', framerRead c = some (.ok msg, c') ∧ c'.pending = rest

theorem framerCarries_iff (msg : Bytes) :
    FramerCarries msg ↔ msg.length ≤ maxFrameSize := by
  constructor
  · intro hcarries
    exact (framerAccept_none_iff msg).mp hcarries.1
  · intro hfits
    refine ⟨(framerAccept_none_iff msg).mpr hfits, ?_⟩
    intro c rest hpending
    rw [framerSend, if_neg (not_lt.mpr hfits)] at hpending
    obtain ⟨c', hread, hrest, _⟩ := framerRead_lengthFrame hfits hpending
    exact ⟨c', hread, hrest⟩

/-! ## Sending over the framer -/

/-- `make` grants the send buffer, or the buffer is large enough already. -/
def Allocates (s : SecureStream) (total : ℤ) : Prop :=
  toInt64 total ≤ s.sendBufCap ∨ toInt64 total ≤ maxAlloc

/-- The errors a sending method reports for what it cannot encode. -/
def EncodeError (e : EwpError) : Prop :=
  (∃ code cause, e = .encodeFrame code cause) ∨
    ∃ globalID target, buildUDPMeta globalID target = .error e

/-- A call has succeeded, or it has failed in encoding and left no trace; the
stream is open. -/
def Graceful (s : SecureStream) (outcome : Outcome EwpError Unit)
    (s' : SecureStream) : Prop :=
  s'.closed = false ∧
    (outcome = .ok () ∨
      ∃ e, outcome = .error e ∧ EncodeError e ∧
        s'.send.counter = s.send.counter)

/-- The length prefix of a frame does not count itself. -/
theorem rawWireLen_eq (metaLen payloadLen : ℕ) :
    rawWireLen metaLen payloadLen = bareFrameLen metaLen payloadLen + 4 := by
  simp [bareFrameLen, rawWireLen]
  omega

theorem encodeFrameAppend_length
    {P : Primitives} {f f' : FrameAEAD} {t : FrameType}
    {metaBytes payload w : Bytes} {padLen : ℤ} {draw : RandRead}
    (henc : encodeFrameAppend P [] f t metaBytes payload padLen draw =
      .ok (w, f')) :
    w.length = rawWireLen metaBytes.length payload.length + padLen.toNat := by
  obtain ⟨fr, _, hmeta, hpayload, hpad, hw, _⟩ := encodeFrameAppend_ok henc
  rw [hw, List.nil_append, Frame.wire_length, Frame.frameLen, hmeta, hpayload,
    hpad, rawWireLen_eq]
  omega

theorem encodeFrameAppend_length_le
    {P : Primitives} {f f' : FrameAEAD} {t : FrameType}
    {metaBytes payload w : Bytes} {padLen : ℤ} {draw : RandRead}
    (henc : encodeFrameAppend P [] f t metaBytes payload padLen draw =
      .ok (w, f')) : w.length ≤ maxFrameSize + 4 := by
  obtain ⟨fr, _, _, _, _, hw, _⟩ := encodeFrameAppend_ok henc
  have hsize := fr.size_le
  rw [hw, List.nil_append, Frame.wire_length, Frame.frameLen]
  omega

theorem toInt64_of_small {x : ℤ} (hlow : 0 ≤ x) (hhigh : x < 2 ^ 63) :
    toInt64 x = x :=
  toInt64_of_range (by omega) hhigh

theorem allocates_of_le {s : SecureStream} {total : ℤ} (hlow : 0 ≤ total)
    (hhigh : total ≤ maxFrameSize) : Allocates s total := by
  right
  rw [toInt64_of_small hlow (by simp at hhigh; omega)]
  simp [maxAlloc] at hhigh ⊢
  omega

theorem not_allocates_iff {s : SecureStream} {total : ℤ} :
    ¬Allocates s total ↔
      (s.sendBufCap : ℤ) < toInt64 total ∧ (maxAlloc : ℤ) < toInt64 total := by
  unfold Allocates
  omega

/-- Frame layer and framer agree on a message of `raw` bytes: both take it, or
the encoder refuses it. -/
def FramerTakes (s : SecureStream) (raw : ℕ) : Prop :=
  (raw ≤ maxFrameSize ∨ maxFrameSize + 4 < raw) ∧ Allocates s raw

theorem framePad_auto
    {padLen : ℤ} (hauto : padLen < 0) (s : SecureStream) (raw : ℕ)
    (draw : RandRead) : PadWithin raw (framePad s raw padLen draw) := by
  rw [framePad, if_pos hauto]
  exact suggestStreamPad_within _ _ _

theorem framePad_nonneg (s : SecureStream) (raw : ℕ) (padLen : ℤ)
    (draw : RandRead) : 0 ≤ framePad s raw padLen draw := by
  by_cases hauto : padLen < 0
  · exact (framePad_auto hauto s raw draw).nonneg
  · rw [framePad, if_neg hauto]
    exact not_lt.mp hauto

section Locked

variable {P : Primitives} {t : FrameType} {metaBytes payload : Bytes}
variable {padLen : ℤ} {env : StreamEnv} {s : SecureStream}

theorem sendFrameLocked_taken
    {pad : ℤ}
    (hpad : framePad s (rawWireLen metaBytes.length payload.length) padLen
      env.bucket = pad)
    (halloc : Allocates s (rawWireLen metaBytes.length payload.length + pad))
    {w : Bytes} {f' : FrameAEAD}
    (henc : encodeFrameAppend P [] s.send t metaBytes payload pad env.pad =
      .ok (w, f'))
    (htaken : env.sendMessage w = none) :
    ∃ s', sendFrameLocked P t metaBytes payload padLen env s = (.ok (), s') ∧
      s'.closed = s.closed ∧
      s'.handed = s.handed ++ [⟨t, metaBytes, payload, w⟩] ∧
      s'.frmOut = s.frmOut + 1 := by
  have hgranted := mt not_allocates_iff.mpr (not_not.mpr halloc)
  obtain ⟨cap, hcap⟩ := growSendBuf_eq s
    (toInt64 (rawWireLen metaBytes.length payload.length + pad))
  unfold sendFrameLocked
  simp only [hpad, if_neg hgranted, hcap, henc, htaken]
  exact ⟨_, rfl, rfl, rfl, rfl⟩

theorem sendFrameLocked_of_encode
    (hframer : env.sendMessage = framerAccept) {pad : ℤ}
    (hpad : framePad s (rawWireLen metaBytes.length payload.length) padLen
      env.bucket = pad)
    (halloc : Allocates s (rawWireLen metaBytes.length payload.length + pad))
    {w : Bytes} {f' : FrameAEAD}
    (henc : encodeFrameAppend P [] s.send t metaBytes payload pad env.pad =
      .ok (w, f')) :
    (w.length ≤ maxFrameSize →
      (sendFrameLocked P t metaBytes payload padLen env s).1 = .ok () ∧
        (sendFrameLocked P t metaBytes payload padLen env s).2.closed =
          s.closed) ∧
    (maxFrameSize < w.length →
      (sendFrameLocked P t metaBytes payload padLen env s).1 =
          .error (.transportSend .frameTooLarge) ∧
        (sendFrameLocked P t metaBytes payload padLen env s).2.closed =
          true) := by
  constructor
  · intro hfits
    have htaken : env.sendMessage w = none := by
      rw [hframer, framerAccept_none_iff]
      exact hfits
    obtain ⟨s', hlocked, hclosed, _⟩ :=
      sendFrameLocked_taken hpad halloc henc htaken
    rw [hlocked]
    exact ⟨rfl, hclosed⟩
  · intro hlong
    have hgranted := mt not_allocates_iff.mpr (not_not.mpr halloc)
    obtain ⟨cap, hcap⟩ := growSendBuf_eq s
      (toInt64 (rawWireLen metaBytes.length payload.length + pad))
    unfold sendFrameLocked
    simp only [hpad, if_neg hgranted, hcap, henc, hframer, framerAccept_eq]
    rw [if_pos hlong]
    exact ⟨rfl, SecureStream.close_closed _⟩

theorem sendFrameLocked_panics
    {pad : ℤ}
    (hpad : framePad s (rawWireLen metaBytes.length payload.length) padLen
      env.bucket = pad)
    (halloc : ¬Allocates s
      (rawWireLen metaBytes.length payload.length + pad)) :
    sendFrameLocked P t metaBytes payload padLen env s = (.panic, s) := by
  unfold sendFrameLocked
  simp only [hpad, if_pos (not_allocates_iff.mp halloc)]

theorem sendFrameLocked_graceful_iff
    (hframer : env.sendMessage = framerAccept) (hopen : s.closed = false)
    {pad : ℤ}
    (hpad : framePad s (rawWireLen metaBytes.length payload.length) padLen
      env.bucket = pad) :
    Graceful s (sendFrameLocked P t metaBytes payload padLen env s).1
        (sendFrameLocked P t metaBytes payload padLen env s).2 ↔
      Allocates s (rawWireLen metaBytes.length payload.length + pad) ∧
        ∀ w f', encodeFrameAppend P [] s.send t metaBytes payload pad env.pad =
          .ok (w, f') → w.length ≤ maxFrameSize := by
  by_cases halloc : Allocates s
      (rawWireLen metaBytes.length payload.length + pad)
  · cases henc : encodeFrameAppend P [] s.send t metaBytes payload pad
        env.pad with
    | error e =>
        have hgranted := mt not_allocates_iff.mpr (not_not.mpr halloc)
        obtain ⟨cap, hcap⟩ := growSendBuf_eq s
          (toInt64 (rawWireLen metaBytes.length payload.length + pad))
        unfold sendFrameLocked
        simp only [hpad, if_neg hgranted, hcap, henc]
        exact iff_of_true
          ⟨hopen, Or.inr ⟨_, rfl, Or.inl ⟨t.code, e, rfl⟩, rfl⟩⟩
          ⟨halloc, by simp⟩
    | ok out =>
        obtain ⟨w, f'⟩ := out
        obtain ⟨htaken, hrefused⟩ :=
          sendFrameLocked_of_encode hframer hpad halloc henc
        by_cases hlong : maxFrameSize < w.length
        · obtain ⟨_, hclosed⟩ := hrefused hlong
          simp [Graceful, hclosed, hlong]
        · obtain ⟨hok, hstill⟩ := htaken (not_lt.mp hlong)
          simp [Graceful, hok, hstill, hopen, halloc, not_lt.mp hlong]
  · rw [sendFrameLocked_panics hpad halloc]
    simp [Graceful, halloc]

theorem sendFrameLocked_stays_open
    (hframer : env.sendMessage = framerAccept) (hopen : s.closed = false)
    {pad : ℤ}
    (hpad : framePad s (rawWireLen metaBytes.length payload.length) padLen
      env.bucket = pad)
    (hfits : ∀ w f', encodeFrameAppend P [] s.send t metaBytes payload pad
      env.pad = .ok (w, f') → w.length ≤ maxFrameSize) :
    (sendFrameLocked P t metaBytes payload padLen env s).2.closed = false := by
  by_cases halloc : Allocates s
      (rawWireLen metaBytes.length payload.length + pad)
  · exact ((sendFrameLocked_graceful_iff hframer hopen hpad).mpr
      ⟨halloc, hfits⟩).1
  · rw [sendFrameLocked_panics hpad halloc]
    exact hopen

/-- With the pad left to the policy, the outcome depends on the size of the bare
message alone. -/
theorem sendFrameLocked_auto_iff
    (hframer : env.sendMessage = framerAccept) (hopen : s.closed = false)
    (htype : t.valid = true) (hmeta : metaBytes.length ≤ maxMetaLen)
    (hauto : padLen < 0) :
    Graceful s (sendFrameLocked P t metaBytes payload padLen env s).1
        (sendFrameLocked P t metaBytes payload padLen env s).2 ↔
      FramerTakes s (rawWireLen metaBytes.length payload.length) := by
  have hwithin := framePad_auto hauto s
    (rawWireLen metaBytes.length payload.length) env.bucket
  rw [sendFrameLocked_graceful_iff hframer hopen rfl]
  generalize framePad s (rawWireLen metaBytes.length payload.length) padLen
    env.bucket = pad at hwithin ⊢
  have hbare := rawWireLen_eq metaBytes.length payload.length
  have hnonneg := hwithin.nonneg
  by_cases hsmall : (rawWireLen metaBytes.length payload.length : ℤ) ≤ maxWire
  · have hfits : (rawWireLen metaBytes.length payload.length : ℤ) + pad ≤
        maxWire := by
      rcases hwithin.fits with hfits | hzero
      · exact hfits
      · rw [hzero]
        omega
    simp at hsmall hfits
    refine iff_of_true ⟨allocates_of_le (by omega) (by simp; omega), ?_⟩
      ⟨Or.inl (by simp; omega), allocates_of_le (by omega) (by simp; omega)⟩
    intro w f' henc
    rw [encodeFrameAppend_length henc]
    simp
    omega
  · -- beyond the budget of the policy the frame goes out bare
    have hzero : pad = 0 := by
      rcases hwithin.fits with hfits | hzero
      · omega
      · exact hzero
    subst hzero
    rw [add_zero, FramerTakes, and_comm]
    apply and_congr_left
    intro _
    constructor
    · intro htaken
      by_contra hband
      simp at hband
      have hencodable : bareFrameLen metaBytes.length payload.length +
          (0 : ℤ).toNat ≤ maxFrameSize := by
        simp
        omega
      have hnoPad : drawPad env.pad (0 : ℤ).toNat ≠ none := by
        simp [drawPad]
      obtain ⟨w, f', henc⟩ := encodeFrameAppend_succeeds P [] s.send htype hmeta
        (by simp) hencodable hnoPad
      have hlen := encodeFrameAppend_length henc
      have hle := htaken w f' henc
      simp at hlen hle
      omega
    · intro hsize w f' henc
      have hlen := encodeFrameAppend_length henc
      have hle := encodeFrameAppend_length_le henc
      simp at hlen
      omega

/-- A frame that fits goes out over any transport that takes its size. -/
theorem sendFrameLocked_sends
    (htype : t.valid = true) (hmeta : metaBytes.length ≤ maxMetaLen)
    (hdraw : ∀ n, env.pad n ≠ none) {pad : ℤ}
    (hpad : framePad s (rawWireLen metaBytes.length payload.length) padLen
      env.bucket = pad)
    (hnonneg : 0 ≤ pad) (hmax : pad ≤ maxFramePad)
    (hfits : rawWireLen metaBytes.length payload.length + pad.toNat ≤
      maxFrameSize)
    (htakes : ∀ w : Bytes,
      w.length = rawWireLen metaBytes.length payload.length + pad.toNat →
        env.sendMessage w = none) :
    ∃ s' w fr,
      sendFrameLocked P t metaBytes payload padLen env s = (.ok (), s') ∧
      s'.closed = s.closed ∧
      s'.handed = s.handed ++ [⟨t, metaBytes, payload, w⟩] ∧
      s'.frmOut = s.frmOut + 1 ∧
      SentFrame.SealedIn ⟨t, metaBytes, payload, w⟩ P s.send fr ∧
      w.length = rawWireLen metaBytes.length payload.length + pad.toNat := by
  have halloc : Allocates s
      (rawWireLen metaBytes.length payload.length + pad) :=
    allocates_of_le (by omega) (by simp at hfits ⊢; omega)
  have hencodable : bareFrameLen metaBytes.length payload.length + pad.toNat ≤
      maxFrameSize := by
    rw [rawWireLen_eq] at hfits
    omega
  obtain ⟨w, f', henc⟩ := encodeFrameAppend_succeeds P [] s.send htype hmeta
    hmax hencodable (drawPad_ne_none hdraw _)
  have hlen := encodeFrameAppend_length henc
  obtain ⟨s', hlocked, hclosed, hhanded, hfrmOut⟩ :=
    sendFrameLocked_taken hpad halloc henc (htakes w hlen)
  obtain ⟨fr, htypeEq, hmetaEq, hpayloadEq, _, hw, _⟩ := encodeFrameAppend_ok henc
  rw [List.nil_append] at hw
  exact ⟨s', w, fr, hlocked, hclosed, hhanded, hfrmOut,
    ⟨htypeEq, hmetaEq, hpayloadEq, hw⟩, hlen⟩

end Locked

/-! ## Whole calls -/

theorem nextChunk_le (len : ℕ) (draw : RandRead) :
    nextChunk len draw ≤ reshapeMax := by
  have hlt : secureRandIntn ((reshapeMax : ℤ) - reshapeMin + 1) draw <
      (reshapeMax : ℤ) - reshapeMin + 1 :=
    secureRandIntn_lt (by simp [reshapeMax, reshapeMin]) draw
  have hnonneg := secureRandIntn_nonneg ((reshapeMax : ℤ) - reshapeMin + 1) draw
  unfold nextChunk
  generalize secureRandIntn ((reshapeMax : ℤ) - reshapeMin + 1) draw = extra at *
  by_cases hlong : reshapeMax < len
  · have hle : reshapeMin + extra.toNat ≤ reshapeMax := by
      simp only [reshapeMax, reshapeMin] at *
      omega
    rw [if_pos hlong, if_neg (by omega)]
    exact hle
  · simp only [if_neg hlong, lt_irrefl, if_false]
    omega

theorem nextChunk_of_le {len : ℕ} (hlen : len ≤ reshapeMax) (draw : RandRead) :
    nextChunk len draw = len := by
  simp [nextChunk, not_lt.mpr hlen]

theorem nextChunk_pos {len : ℕ} (hlen : 0 < len) (draw : RandRead) :
    0 < nextChunk len draw := by
  unfold nextChunk
  dsimp only
  by_cases hlong : reshapeMax < len
  · rw [if_pos hlong]
    by_cases hcut : len < reshapeMin + (secureRandIntn
        ((reshapeMax : ℤ) - reshapeMin + 1) draw).toNat
    · rw [if_pos hcut]
      exact hlen
    · rw [if_neg hcut]
      simp only [reshapeMin]
      omega
  · rw [if_neg hlong, if_neg (lt_irrefl _)]
    exact hlen

theorem buildUDPMeta_length
    {globalID : GlobalID} {target : Address} {metaBytes : Bytes}
    (hbuild : buildUDPMeta globalID target = .ok metaBytes) :
    metaBytes.length ≤ maxMetaLen := by
  unfold buildUDPMeta at hbuild
  split at hbuild
  · split at hbuild
    · simp at hbuild
    · split at hbuild
      · simp at hbuild
      · rw [← Except.ok.inj hbuild]
        omega
  · rw [← Except.ok.inj hbuild, FixedBytes.length_val]
    simp

/-- A transport that takes every message of a legal size. -/
def StreamEnv.TakesFrames (env : StreamEnv) : Prop :=
  ∀ w : Bytes, w.length ≤ maxFrameSize → env.sendMessage w = none

theorem StreamEnv.TakesFrames.of_framer
    {env : StreamEnv} (hframer : env.sendMessage = framerAccept) :
    env.TakesFrames := by
  intro w hw
  rw [hframer, framerAccept_none_iff]
  exact hw

/-- With the pad left to the policy, a frame within its budget is sent. -/
theorem sendFrameLocked_policy
    {P : Primitives} {t : FrameType} {metaBytes payload : Bytes}
    {env : StreamEnv} {s : SecureStream} (htakes : env.TakesFrames)
    (hdraw : ∀ n, env.pad n ≠ none) (htype : t.valid = true)
    (hmeta : metaBytes.length ≤ maxMetaLen)
    (hraw : (rawWireLen metaBytes.length payload.length : ℤ) ≤ maxWire) :
    (sendFrameLocked P t metaBytes payload (-1) env s).1 = .ok () ∧
      (sendFrameLocked P t metaBytes payload (-1) env s).2.closed =
        s.closed := by
  have hwithin := framePad_auto (by omega : (-1 : ℤ) < 0) s
    (rawWireLen metaBytes.length payload.length) env.bucket
  generalize hpad : framePad s (rawWireLen metaBytes.length payload.length)
    (-1) env.bucket = pad at hwithin
  have hnonneg := hwithin.nonneg
  have hfits : rawWireLen metaBytes.length payload.length + pad.toNat ≤
      maxFrameSize := by
    simp only [maxFrameSize, maxWire] at hraw ⊢
    rcases hwithin.fits with hfits | hzero
    · simp only [maxWire] at hfits
      omega
    · rw [hzero]
      omega
  obtain ⟨s', _, _, hlocked, hclosed, _⟩ := @sendFrameLocked_sends P _ _ _ _ _ s
    htype hmeta hdraw _ hpad hnonneg hwithin.le_max hfits
    (fun w hw => htakes w (hw.trans_le hfits))
  rw [hlocked]
  exact ⟨rfl, hclosed⟩

theorem sendFrameLocked_piece
    {P : Primitives} {env : StreamEnv} {s : SecureStream} {piece : Bytes}
    (htakes : env.TakesFrames) (hdraw : ∀ n, env.pad n ≠ none)
    (hpiece : piece.length ≤ reshapeMax) :
    (sendFrameLocked P frameTCPData [] piece (-1) env s).1 = .ok () ∧
      (sendFrameLocked P frameTCPData [] piece (-1) env s).2.closed =
        s.closed := by
  apply sendFrameLocked_policy htakes hdraw rfl (by simp)
  simp [rawWireLen, reshapeMax] at hpiece ⊢
  omega

theorem sendChunks_exec_succ
    {P : Primitives} {fuel : ℕ} {payload : Bytes} {supply : ℕ → StreamEnv}
    {s s' : SecureStream} {chunk : ℕ} (hne : payload ≠ [])
    (hchunk : nextChunk payload.length (supply 0).chunk = chunk)
    (hopen : s.closed = false)
    (hsent : sendFrameLocked P frameTCPData [] (payload.take chunk) (-1)
      (supply (1 + 1)) s = (.ok (), s')) :
    (sendChunks P (fuel + 1) payload).exec supply s =
      (sendChunks P fuel (payload.drop chunk)).exec
        (fun k => supply (k + 1 + 1 + 1)) s' := by
  have hframe : (sendFrame P frameTCPData [] (payload.take chunk) (-1)).exec
      (fun k => supply (k + 1)) s =
        (.ok (), s', fun k => supply (k + 1 + 1 + 1)) :=
    sendFrame_exec hopen hsent
  rw [sendChunks, if_neg hne, Proc.bind_eq, Proc.exec_bind, Proc.exec_atomic,
    hchunk]
  dsimp only
  rw [Proc.bind_eq, Proc.exec_bind, hframe]

/-- The loop of `SendTCPData`, by the pieces it sends: if every piece goes out,
the call succeeds, and `Sends s payload last` holds of its last state as soon as
the pieces carry it back to front.  Every piece is nonempty, so the fuel lasts to
the end of the payload. -/
theorem sendChunks_exec
    {P : Primitives} {ok : StreamEnv → Prop}
    {Sends : SecureStream → Bytes → SecureStream → Prop}
    (hdone : ∀ s, s.closed = false → Sends s [] s)
    (hpiece : ∀ env s payload chunk, ok env → s.closed = false →
      payload.take chunk ≠ [] → (payload.take chunk).length ≤ reshapeMax →
      ∃ s', sendFrameLocked P frameTCPData [] (payload.take chunk) (-1) env s =
          (.ok (), s') ∧ s'.closed = false ∧
        ∀ last, Sends s' (payload.drop chunk) last → Sends s payload last)
    {fuel : ℕ} {payload : Bytes} {supply : ℕ → StreamEnv} {s : SecureStream}
    (hfuel : payload.length ≤ fuel) (hok : ∀ k, ok (supply k))
    (hopen : s.closed = false) :
    ∃ last supply', (sendChunks P fuel payload).exec supply s =
      (.ok (), last, supply') ∧ Sends s payload last := by
  induction fuel generalizing payload supply s with
  | zero =>
      have hnil : payload = [] := List.length_eq_zero_iff.mp (by omega)
      subst hnil
      exact ⟨s, supply, rfl, hdone s hopen⟩
  | succ fuel ih =>
      by_cases hnil : payload = []
      · subst hnil
        exact ⟨s, supply, rfl, hdone s hopen⟩
      have hlen : 0 < payload.length := List.length_pos_iff.mpr hnil
      have hpos := nextChunk_pos hlen (supply 0).chunk
      have hmax := nextChunk_le payload.length (supply 0).chunk
      generalize hchunk : nextChunk payload.length (supply 0).chunk = chunk
        at hpos hmax
      have hne : payload.take chunk ≠ [] := by
        simp only [ne_eq, List.take_eq_nil_iff, not_or]
        exact ⟨hpos.ne', hnil⟩
      obtain ⟨s₁, hlocked, hopen₁, hback⟩ := hpiece (supply (1 + 1)) s payload
        chunk (hok _) hopen hne ((List.length_take_le _ _).trans hmax)
      have hshorter : (payload.drop chunk).length ≤ fuel := by
        rw [List.length_drop]
        omega
      obtain ⟨last, supply', hexec, hrest⟩ :=
        ih hshorter (fun k => hok (k + 1 + 1 + 1)) hopen₁
      rw [sendChunks_exec_succ hnil hchunk hopen hlocked]
      exact ⟨last, supply', hexec, hback last hrest⟩

theorem sendChunks_framer
    {P : Primitives} {payload : Bytes} {supply : ℕ → StreamEnv}
    {s : SecureStream} (hopen : s.closed = false)
    (hframer : ∀ k, (supply k).sendMessage = framerAccept)
    (hserved : ∀ k n, (supply k).pad n ≠ none) :
    ∃ last supply', (sendChunks P payload.length payload).exec supply s =
      (.ok (), last, supply') ∧ last.closed = false := by
  refine @sendChunks_exec P
    (fun env => env.sendMessage = framerAccept ∧ ∀ n, env.pad n ≠ none)
    (fun _ _ last => last.closed = false) (fun _ h => h) ?_ _ payload supply s
    le_rfl (fun k => ⟨hframer k, hserved k⟩) hopen
  rintro env s payload chunk ⟨hframer, hdraw⟩ hopen _ hpiece
  obtain ⟨hsent, hstill⟩ := @sendFrameLocked_piece P env s _ (.of_framer hframer)
    hdraw hpiece
  generalize sendFrameLocked P frameTCPData [] (payload.take chunk) (-1) env s = r
    at hsent hstill
  obtain ⟨outcome, s'⟩ := r
  subst hsent
  exact ⟨s', rfl, hstill.trans hopen, fun _ h => h⟩

/-- What a call needs of its sizes.  Data is cut into pieces that always fit, and
the probes and `UDP_END` are short. -/
def SendCall.SizesAgree (s : SecureStream) : SendCall → Prop
  | .udpNew globalID target initial =>
      ∀ metaBytes, buildUDPMeta globalID target = .ok metaBytes →
        FramerTakes s (rawWireLen metaBytes.length initial.length)
  | .udpData globalID target payload =>
      ∀ metaBytes, buildUDPMeta globalID target = .ok metaBytes →
        FramerTakes s (rawWireLen metaBytes.length payload.length)
  | .ping cookie => FramerTakes s (rawWireLen 0 cookie.length)
  | .pong cookie => FramerTakes s (rawWireLen 0 cookie.length)
  | .coverPad padLen => 0 ≤ padLen → Allocates s (rawWireLen 0 0 + padLen)
  | _ => True

/-- The random source serves the pads of a payload that travels in several
pieces, which are not taken back when a later one fails. -/
def SendCall.PadsServed (supply : ℕ → StreamEnv) : SendCall → Prop
  | .tcpData payload =>
      reshapeThreshold < payload.length → ∀ k n, (supply k).pad n ≠ none
  | _ => True

def SendCall.Graceful (P : Primitives) (supply : ℕ → StreamEnv)
    (s : SecureStream) (call : SendCall) : Prop :=
  SingEwp.Graceful s ((call.proc P).exec supply s).1
    ((call.proc P).exec supply s).2.1

section Calls

variable {P : Primitives} {supply : ℕ → StreamEnv} {s : SecureStream}

theorem sendFrame_exec_graceful_iff
    {t : FrameType} {metaBytes payload : Bytes} {padLen : ℤ}
    (hopen : s.closed = false) :
    Graceful s ((sendFrame P t metaBytes payload padLen).exec supply s).1
        ((sendFrame P t metaBytes payload padLen).exec supply s).2.1 ↔
      Graceful s
        (sendFrameLocked P t metaBytes payload padLen (supply 1) s).1
        (sendFrameLocked P t metaBytes payload padLen (supply 1) s).2 := by
  generalize hlocked :
    sendFrameLocked P t metaBytes payload padLen (supply 1) s = r
  obtain ⟨outcome, s'⟩ := r
  rw [sendFrame_exec hopen hlocked]

theorem sendFrame_auto_graceful_iff
    {t : FrameType} {metaBytes payload : Bytes}
    (hframer : ∀ k, (supply k).sendMessage = framerAccept)
    (hopen : s.closed = false) (htype : t.valid = true)
    (hmeta : metaBytes.length ≤ maxMetaLen) :
    Graceful s ((sendFrame P t metaBytes payload (-1)).exec supply s).1
        ((sendFrame P t metaBytes payload (-1)).exec supply s).2.1 ↔
      FramerTakes s (rawWireLen metaBytes.length payload.length) := by
  rw [sendFrame_exec_graceful_iff hopen,
    sendFrameLocked_auto_iff (hframer 1) hopen htype hmeta (by omega)]

theorem framerTakes_of_le {raw : ℕ} (hraw : raw ≤ maxFrameSize) :
    FramerTakes s raw :=
  ⟨Or.inl hraw, allocates_of_le (by omega) (by omega)⟩

theorem sendFrame_id_graceful
    {t : FrameType} (hframer : ∀ k, (supply k).sendMessage = framerAccept)
    (hopen : s.closed = false) (htype : t.valid = true) (globalID : GlobalID) :
    Graceful s ((sendFrame P t globalID.val [] (-1)).exec supply s).1
      ((sendFrame P t globalID.val [] (-1)).exec supply s).2.1 := by
  have hid : globalID.val.length = 8 := globalID.property
  rw [sendFrame_auto_graceful_iff hframer hopen htype (by simp [hid])]
  exact framerTakes_of_le (by simp [rawWireLen, hid])

theorem sendAddressed_graceful_iff
    {t : FrameType} {globalID : GlobalID} {target : Address} {payload : Bytes}
    (hframer : ∀ k, (supply k).sendMessage = framerAccept)
    (hopen : s.closed = false) (htype : t.valid = true) :
    Graceful s ((sendAddressed P t globalID target payload).exec supply s).1
        ((sendAddressed P t globalID target payload).exec supply s).2.1 ↔
      ∀ metaBytes, buildUDPMeta globalID target = .ok metaBytes →
        FramerTakes s (rawWireLen metaBytes.length payload.length) := by
  unfold sendAddressed
  cases hbuild : buildUDPMeta globalID target with
  | error e =>
      simp only [Proc.pure_eq, Proc.exec_ret, reduceCtorEq, false_implies,
        implies_true, iff_true]
      exact ⟨hopen, Or.inr ⟨e, rfl, Or.inr ⟨globalID, target, hbuild⟩, rfl⟩⟩
  | ok metaBytes =>
      simp only [Except.ok.injEq, forall_eq']
      exact sendFrame_auto_graceful_iff hframer hopen htype
        (buildUDPMeta_length hbuild)

theorem sendCoverPad_graceful_iff
    {padLen : ℤ} (hframer : ∀ k, (supply k).sendMessage = framerAccept)
    (hopen : s.closed = false) :
    Graceful s ((sendCoverPad P padLen).exec supply s).1
        ((sendCoverPad P padLen).exec supply s).2.1 ↔
      (0 ≤ padLen → Allocates s (rawWireLen 0 0 + padLen)) := by
  rw [sendCoverPad, sendFrame_exec_graceful_iff hopen]
  by_cases hauto : padLen < 0
  · rw [sendFrameLocked_auto_iff (hframer 1) hopen rfl (by simp) hauto]
    exact iff_of_true (framerTakes_of_le (by simp [rawWireLen]))
      (fun hnonneg => absurd hauto (not_lt.mpr hnonneg))
  · have hpad : framePad s
        (rawWireLen ([] : Bytes).length ([] : Bytes).length) padLen
        (supply 1).bucket = padLen := by
      rw [framePad, if_neg hauto]
    rw [sendFrameLocked_graceful_iff (hframer 1) hopen hpad]
    constructor
    · intro hgranted _
      exact hgranted.1
    · intro hgranted
      refine ⟨hgranted (not_lt.mp hauto), ?_⟩
      intro w f' henc
      obtain ⟨fr, _, _, _, hpadLen, _, _⟩ := encodeFrameAppend_ok henc
      have hle := fr.pad_le
      rw [encodeFrameAppend_length henc]
      simp [rawWireLen] at hle ⊢
      omega

theorem sendTCPData_graceful
    {payload : Bytes} (hframer : ∀ k, (supply k).sendMessage = framerAccept)
    (hopen : s.closed = false)
    (hserved : SendCall.PadsServed supply (.tcpData payload)) :
    Graceful s ((sendTCPData P payload).exec supply s).1
      ((sendTCPData P payload).exec supply s).2.1 := by
  unfold sendTCPData
  by_cases hshort : payload.length ≤ reshapeThreshold
  · rw [if_pos hshort,
      sendFrame_auto_graceful_iff hframer hopen rfl (by simp)]
    apply framerTakes_of_le
    simp [rawWireLen, reshapeThreshold] at hshort ⊢
    omega
  · rw [if_neg hshort]
    obtain ⟨s', supply', hexec, hstill⟩ := @sendChunks_framer P payload supply s
      hopen hframer (hserved (not_le.mp hshort))
    rw [hexec]
    exact ⟨hstill, Or.inl rfl⟩

end Calls

/-- The framer carries an encoded frame exactly when its whole message is within
`MaxFrameSize`, and a sending method is graceful over the framer exactly when
its message is not one of those that only the frame layer takes. -/
theorem sizes_agree_iff (P : Primitives) :
    (∀ (f f' : FrameAEAD) (t : FrameType) (metaBytes payload : Bytes)
        (padLen : ℤ) (draw : RandRead) (w : Bytes),
      encodeFrameAppend P [] f t metaBytes payload padLen draw = .ok (w, f') →
      (FramerCarries w ↔
        rawWireLen metaBytes.length payload.length + padLen.toNat ≤
          maxFrameSize)) ∧
    (∀ (call : SendCall) (s : SecureStream) (supply : ℕ → StreamEnv),
      s.closed = false → (∀ k, (supply k).sendMessage = framerAccept) →
      call.PadsServed supply →
      (call.Graceful P supply s ↔ call.SizesAgree s)) := by
  constructor
  · intro f f' t metaBytes payload padLen draw w henc
    rw [framerCarries_iff, encodeFrameAppend_length henc]
  · intro call s supply hopen hframer hserved
    cases call with
    | tcpData payload =>
        exact iff_of_true (sendTCPData_graceful hframer hopen hserved) trivial
    | udpNew globalID target initial =>
        exact sendAddressed_graceful_iff hframer hopen rfl
    | udpData globalID target payload =>
        exact sendAddressed_graceful_iff hframer hopen rfl
    | udpEnd globalID =>
        exact iff_of_true (sendFrame_id_graceful hframer hopen rfl globalID)
          trivial
    | probeReq globalID =>
        exact iff_of_true (sendFrame_id_graceful hframer hopen rfl globalID)
          trivial
    | probeResp globalID observed =>
        apply iff_of_true _ trivial
        apply (sendAddressed_graceful_iff hframer hopen rfl).mpr
        intro metaBytes hbuild
        have hmeta := buildUDPMeta_length hbuild
        apply framerTakes_of_le
        simp [rawWireLen] at hmeta ⊢
        omega
    | ping cookie =>
        exact sendFrame_auto_graceful_iff hframer hopen rfl (by simp)
    | pong cookie =>
        exact sendFrame_auto_graceful_iff hframer hopen rfl (by simp)
    | coverPad padLen => exact sendCoverPad_graceful_iff hframer hopen

namespace Transparent

def framerEnv : StreamEnv :=
  { streamEnv (.error (.io .eof)) with sendMessage := framerAccept }

def pingFrame : Frame :=
  ⟨framePing, [], [7], [], rfl, Nat.zero_le _, Nat.zero_le _, by decide⟩

theorem pingFrame_sent :
    encodeFrameAppend suite [] (newClientSecureStream keys).send framePing []
        [7] 0 framerEnv.pad =
      .ok (pingFrame.wire suite (newClientSecureStream keys).send,
        (newClientSecureStream keys).send.seek 1) :=
  encodeFrameAppend_frame suite [] _ pingFrame rfl

/-- The shortest cookie that the frame layer takes and the framer refuses. -/
def longCookie : Bytes := List.replicate 65504 0

theorem longCookie_length : longCookie.length = 65504 :=
  List.length_replicate

end Transparent

theorem sizes_agree_short_ping :
    FramerCarries (Transparent.pingFrame.wire Transparent.suite
        (newClientSecureStream Transparent.keys).send) ∧
      (SendCall.ping [7]).Graceful Transparent.suite
        (fun _ => Transparent.framerEnv)
        (newClientSecureStream Transparent.keys) :=
  ⟨((sizes_agree_iff Transparent.suite).1 _ _ framePing [] [7] 0
      Transparent.framerEnv.pad _ Transparent.pingFrame_sent).mpr (by decide),
    ((sizes_agree_iff Transparent.suite).2 (.ping [7]) _ _ rfl (fun _ => rfl)
      trivial).mpr (framerTakes_of_le (by decide))⟩

/-- A ping whose message is one byte longer than `MaxFrameSize` is encoded, the
framer refuses it, and the stream is closed. -/
theorem long_ping_closes_stream :
    (∃ w f', encodeFrameAppend Transparent.suite []
        (newClientSecureStream Transparent.keys).send framePing []
        Transparent.longCookie 0 Transparent.framerEnv.pad = .ok (w, f') ∧
      framerAccept w = some .frameTooLarge) ∧
    (((SendCall.ping Transparent.longCookie).proc Transparent.suite).exec
        (fun _ => Transparent.framerEnv)
        (newClientSecureStream Transparent.keys)).1 =
      .error (.transportSend .frameTooLarge) ∧
    (((SendCall.ping Transparent.longCookie).proc Transparent.suite).exec
        (fun _ => Transparent.framerEnv)
        (newClientSecureStream Transparent.keys)).2.1.closed = true := by
  have hlen := Transparent.longCookie_length
  have hraw : rawWireLen ([] : Bytes).length Transparent.longCookie.length =
      65537 := by
    rw [hlen]
    rfl
  have hencodable : bareFrameLen ([] : Bytes).length
      Transparent.longCookie.length + (0 : ℤ).toNat ≤ maxFrameSize := by
    rw [hlen]
    decide
  have hwithin := framePad_auto (by omega : (-1 : ℤ) < 0)
    (newClientSecureStream Transparent.keys)
    (rawWireLen ([] : Bytes).length Transparent.longCookie.length)
    Transparent.framerEnv.bucket
  have hpad : framePad (newClientSecureStream Transparent.keys)
      (rawWireLen ([] : Bytes).length Transparent.longCookie.length) (-1)
      Transparent.framerEnv.bucket = 0 := by
    have hnonneg := hwithin.nonneg
    rcases hwithin.fits with hfits | hzero
    · rw [hraw] at hfits hnonneg ⊢
      simp at hfits
      omega
    · exact hzero
  obtain ⟨w, f', henc⟩ := encodeFrameAppend_succeeds Transparent.suite []
    (newClientSecureStream Transparent.keys).send (rfl : framePing.valid = true)
    (by simp : ([] : Bytes).length ≤ maxMetaLen) (by simp) hencodable
    (by simp [drawPad] : drawPad Transparent.framerEnv.pad _ ≠ none)
  have hlong : maxFrameSize < w.length := by
    rw [encodeFrameAppend_length henc, hraw]
    decide
  have halloc : Allocates (newClientSecureStream Transparent.keys)
      (rawWireLen ([] : Bytes).length Transparent.longCookie.length + 0) := by
    right
    rw [hraw]
    decide
  obtain ⟨houtcome, hclosed⟩ :=
    (sendFrameLocked_of_encode rfl hpad halloc henc).2 hlong
  generalize hlocked : sendFrameLocked Transparent.suite framePing []
    Transparent.longCookie (-1) Transparent.framerEnv
    (newClientSecureStream Transparent.keys) = r at houtcome hclosed
  obtain ⟨outcome, s'⟩ := r
  refine ⟨⟨w, f', henc, by rw [framerAccept_eq, if_pos hlong]⟩, ?_⟩
  have hexec : ((SendCall.ping Transparent.longCookie).proc
      Transparent.suite).exec (fun _ => Transparent.framerEnv)
      (newClientSecureStream Transparent.keys) =
        (outcome, s', fun _ => Transparent.framerEnv) :=
    sendFrame_exec rfl hlocked
  rw [hexec]
  exact ⟨houtcome, hclosed⟩

end SingEwp
