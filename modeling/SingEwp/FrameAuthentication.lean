import SingEwp.StreamRuns

/-!
# Which bytes of a frame are authenticated

The header is the additional data of the cipher and the ciphertext carries its
tag, so a receiver detects any change to them.  The pad bytes stand outside the
cipher and the reader stops after them: their values and anything that follows
have no influence on `Recv`, and only their number is fixed by the header.
-/

namespace SingEwp

variable {P : Primitives}

theorem recv_ok
    {env : StreamEnv} {s : SecureStream} {ev : Event}
    (hrecv : (recv P env s).1 = .ok ev) :
    ∃ wire rest df recv', env.readMessage = .ok wire ∧
      decodeFrame P wire s.recv = (.ok (df, recv'), rest) := by
  have hstep := recv_step P env s
  generalize recv P env s = r at hstep hrecv
  cases hstep with
  | refused hclosed => simp at hrecv
  | failed e hclosed => simp at hrecv
  | malformed e hclosed wire recv' => simp at hrecv
  | received hclosed wire rest df ev recv' hread hdec hev =>
      exact ⟨wire, rest, df, recv', hread, hdec⟩

theorem recv_of_decode
    {env : StreamEnv} {s : SecureStream} {wire rest : Bytes}
    {df : DecodedFrame} {recv' : FrameAEAD} (hopen : s.closed = false)
    (hread : env.readMessage = .ok wire)
    (hdec : decodeFrame P wire s.recv = (.ok (df, recv'), rest)) :
    (recv P env s).1 = eventOf df := by
  unfold recv
  rw [hopen, hread]
  simp only [Bool.false_eq_true, if_false, hdec]
  cases eventOf df <;> rfl

/-- The authenticated part of a message: its header and its ciphertext. -/
def authenticated (fr : Frame) (msg : Bytes) : Bytes :=
  msg.take (frameHeaderSize + fr.cipherLen)

theorem authenticated_wire (fr : Frame) (f : FrameAEAD) :
    authenticated fr (fr.wire P f) = fr.header f.counter ++ fr.cipher P f := by
  rw [authenticated, Frame.wire, ← List.append_assoc]
  exact List.take_left' (by simp)

/-- An ideal cipher opens nothing in `msg` but the sealed part of the frame. -/
def OpensOnly (P : Primitives) (f : FrameAEAD) (fr : Frame) (msg : Bytes) :
    Prop :=
  ∀ n plain,
    P.aeadOpen f.key (f.composeNonce f.counter)
        ((msg.drop frameHeaderSize).take n) (msg.take frameHeaderSize) =
      some plain →
    (msg.drop frameHeaderSize).take n = fr.cipher P f ∧
      msg.take frameHeaderSize = fr.header f.counter

theorem decodeFrame_authenticated
    {f f' : FrameAEAD} {fr : Frame} {msg rest : Bytes} {df : DecodedFrame}
    (hideal : OpensOnly P f fr msg)
    (hdec : decodeFrame P msg f = (.ok (df, f'), rest)) :
    authenticated fr msg = authenticated fr (fr.wire P f) ∧
      (fr.wire P f).length ≤ msg.length := by
  obtain ⟨hlen, hopen⟩ := decodeFrame_ok hdec
  obtain ⟨_, plain, hplain, _⟩ := openFrame_ok hopen
  obtain ⟨hcipher, hhdr⟩ := hideal _ plain hplain
  rw [hhdr, Frame.hdrCipherLen_header, Frame.hdrPadLen_header] at hlen
  rw [hhdr, Frame.hdrCipherLen_header] at hcipher
  constructor
  · rw [authenticated_wire, authenticated, List.take_add, hcipher, hhdr]
  · rw [Frame.wire_length]
    simp [Frame.frameLen, bareFrameLen, Frame.cipherLen] at hlen ⊢
    omega

theorem decodeFrame_of_authenticated
    {f : FrameAEAD} {fr : Frame} {msg : Bytes}
    (hauth : authenticated fr msg = authenticated fr (fr.wire P f))
    (hlen : (fr.wire P f).length ≤ msg.length) :
    ∃ rest, decodeFrame P msg f =
      (.ok (fr.decoded f.counter, { f with counter := f.counter + 1 }),
        rest) := by
  set tail := msg.drop (frameHeaderSize + fr.cipherLen) with htail
  have htailLen : fr.pad.length ≤ tail.length := by
    rw [htail, List.length_drop]
    rw [Frame.wire_length] at hlen
    simp [Frame.frameLen, bareFrameLen, Frame.cipherLen] at hlen ⊢
    omega
  have hpadLen : (tail.take fr.pad.length).length = fr.pad.length := by
    simp [htailLen]
  let fr' : Frame :=
    { fr with
      pad := tail.take fr.pad.length
      pad_le := by rw [hpadLen]; exact fr.pad_le
      size_le := by rw [hpadLen]; exact fr.size_le }
  have hheader : fr'.header f.counter = fr.header f.counter := by
    simp only [Frame.header, Frame.frameLen, fr', hpadLen]
  have hcipher : fr'.cipher P f = fr.cipher P f := by
    simp only [Frame.cipher, hheader, fr']
  have hsplit : msg = fr'.wire P f ++ tail.drop fr.pad.length := by
    rw [Frame.wire, hheader, hcipher]
    calc msg = authenticated fr msg ++ tail := by
          rw [authenticated, htail, List.take_append_drop]
      _ = (fr.header f.counter ++ fr.cipher P f) ++
            (tail.take fr.pad.length ++ tail.drop fr.pad.length) := by
          rw [hauth, authenticated_wire, List.take_append_drop]
      _ = _ := by simp [fr']
  refine ⟨tail.drop fr.pad.length, ?_⟩
  rw [hsplit]
  exact decodeFrame_wire P f fr' _

/-- A receiver at the sender's counter rejects every message that differs from
the frame in header, ciphertext or tag, or is shorter than it, and cannot tell
any other message from the frame. -/
theorem recv_authenticates
    (P : Primitives) (f f' : FrameAEAD) (t : FrameType)
    (metaBytes payload : Bytes) (padLen : ℤ) (draw : RandRead) (w : Bytes)
    (hsent : encodeFrameAppend P [] f t metaBytes payload padLen draw =
      .ok (w, f'))
    (s : SecureStream) (hopen : s.closed = false) (hcontext : s.recv = f)
    (env : StreamEnv) (w' : Bytes)
    (hideal : ∀ n plain,
      P.aeadOpen f.key (f.composeNonce f.counter)
          ((w'.drop frameHeaderSize).take n) (w'.take frameHeaderSize) =
        some plain →
      (w'.drop frameHeaderSize).take n =
          slice w frameHeaderSize
            (rawWireLen metaBytes.length payload.length) ∧
        w'.take frameHeaderSize = w.take frameHeaderSize) :
    (w'.take (rawWireLen metaBytes.length payload.length) ≠
          w.take (rawWireLen metaBytes.length payload.length) ∨
        w'.length < w.length →
      ∃ e, (recv P { env with readMessage := .ok w' } s).1 = .error e) ∧
    (w'.take (rawWireLen metaBytes.length payload.length) =
        w.take (rawWireLen metaBytes.length payload.length) →
      w.length ≤ w'.length →
      (recv P { env with readMessage := .ok w' } s).1 =
        (recv P { env with readMessage := .ok w } s).1) := by
  obtain ⟨fr, htype, hmeta, hpayload, _, hw, _⟩ := encodeFrameAppend_ok hsent
  simp only [List.nil_append] at hw
  subst hw hcontext
  have hraw : rawWireLen metaBytes.length payload.length =
      frameHeaderSize + fr.cipherLen := by
    simp [rawWireLen, Frame.cipherLen, hmeta, hpayload]
    omega
  have htake : (fr.wire P s.recv).take frameHeaderSize =
      fr.header s.recv.counter := by
    rw [Frame.wire, List.take_left' (fr.header_length _)]
  have hslice : slice (fr.wire P s.recv) frameHeaderSize
      (frameHeaderSize + fr.cipherLen) = fr.cipher P s.recv :=
    slice_middle (fr.header_length _) (by simp)
  rw [hraw] at hideal ⊢
  rw [hslice, htake] at hideal
  constructor
  · intro hdiffers
    cases hrecv : (recv P { env with readMessage := .ok w' } s).1 with
    | error e => exact ⟨e, rfl⟩
    | ok ev =>
        obtain ⟨wire, rest, df, recv', hread, hdec⟩ := recv_ok hrecv
        rw [← Except.ok.inj hread] at hdec
        obtain ⟨hsame, hlen⟩ := decodeFrame_authenticated hideal hdec
        rcases hdiffers with hne | hshort
        · exact absurd hsame hne
        · omega
  · intro hsame hlen
    obtain ⟨rest, hdec⟩ := decodeFrame_of_authenticated hsame hlen
    have hrefl : authenticated fr (fr.wire P s.recv) =
        authenticated fr (fr.wire P s.recv) := rfl
    obtain ⟨rest', hdec'⟩ := decodeFrame_of_authenticated hrefl le_rfl
    rw [recv_of_decode hopen rfl hdec, recv_of_decode hopen rfl hdec']

namespace Transparent

def paddedFrame : Frame :=
  ⟨framePaddingOnly, [], [], [0], framePaddingOnly_valid, by simp, by simp,
    by decide⟩

def clientSend : FrameAEAD := (newClientSecureStream keys).send

def paddedWire : Bytes := paddedFrame.wire suite clientSend

/-- The padded frame with another pad byte. -/
def repadded : Bytes := paddedWire.take 33 ++ [1]

def retagged : Bytes := paddedWire.set 17 255

theorem paddedWire_sent :
    encodeFrameAppend suite [] clientSend framePaddingOnly []
        [] 1 (streamEnv (.ok [])).pad =
      .ok (paddedWire, clientSend.seek 1) := by
  decide

theorem opens_of_bounded
    {msg cipher header : Bytes} (hlen : msg.length = 34)
    (hopens : ∀ n < 18,
      (suite.aeadOpen clientSend.key (clientSend.composeNonce clientSend.counter)
          ((msg.drop frameHeaderSize).take n)
          (msg.take frameHeaderSize)).isSome →
      (msg.drop frameHeaderSize).take n = cipher ∧
        msg.take frameHeaderSize = header) :
    ∀ n plain,
      suite.aeadOpen clientSend.key (clientSend.composeNonce clientSend.counter)
          ((msg.drop frameHeaderSize).take n) (msg.take frameHeaderSize) =
        some plain →
      (msg.drop frameHeaderSize).take n = cipher ∧
        msg.take frameHeaderSize = header := by
  intro n plain hplain
  have hbody : (msg.drop frameHeaderSize).length = 17 := by
    simp [hlen]
  have hmin : (msg.drop frameHeaderSize).take n =
      (msg.drop frameHeaderSize).take (min n 17) := by
    rw [← hbody, List.take_eq_take_min]
  rw [hmin] at hplain ⊢
  exact hopens (min n 17) (by omega) (by rw [hplain]; rfl)

end Transparent

theorem recv_authenticates_retagged :
    ∃ e, (recv Transparent.suite
        { Transparent.streamEnv (.ok []) with
          readMessage := .ok Transparent.retagged }
        (newServerSecureStream Transparent.keys)).1 = .error e :=
  (recv_authenticates Transparent.suite Transparent.clientSend
    (Transparent.clientSend.seek 1) framePaddingOnly [] [] 1
    (Transparent.streamEnv (.ok [])).pad Transparent.paddedWire
    Transparent.paddedWire_sent (newServerSecureStream Transparent.keys) rfl rfl
    (Transparent.streamEnv (.ok [])) Transparent.retagged
    (Transparent.opens_of_bounded (by decide) (by decide))).1
    (.inl (by decide))

/-- The receiver accepts the padded frame with its pad byte changed, although
the cipher opens nothing in the changed message but what was sealed. -/
theorem recv_accepts_repadded :
    Transparent.repadded ≠ Transparent.paddedWire ∧
      encodeFrameAppend Transparent.suite [] Transparent.clientSend
          framePaddingOnly [] [] 1 (Transparent.streamEnv (.ok [])).pad =
        .ok (Transparent.paddedWire, Transparent.clientSend.seek 1) ∧
      (newServerSecureStream Transparent.keys).recv = Transparent.clientSend ∧
      (∀ n plain,
        Transparent.suite.aeadOpen Transparent.clientSend.key
            (Transparent.clientSend.composeNonce Transparent.clientSend.counter)
            ((Transparent.repadded.drop frameHeaderSize).take n)
            (Transparent.repadded.take frameHeaderSize) = some plain →
        (Transparent.repadded.drop frameHeaderSize).take n =
            slice Transparent.paddedWire frameHeaderSize (rawWireLen 0 0) ∧
          Transparent.repadded.take frameHeaderSize =
            Transparent.paddedWire.take frameHeaderSize) ∧
      (recv Transparent.suite (Transparent.streamEnv (.ok Transparent.repadded))
        (newServerSecureStream Transparent.keys)).1.isOk = true :=
  ⟨by decide, Transparent.paddedWire_sent, rfl,
    Transparent.opens_of_bounded (by decide) (by decide), by decide⟩

end SingEwp
