import SingEwp.LockStep
import SingEwp.SizeCells
import SingEwp.StreamTermination

/-!
# Streams that look alike

Two sets of calls on a stream whose frames look alike one by one.  Whatever the
calls carry, whichever kinds of frames they are, and however they interleave with
each other, with `Recv` and with `Close`, the two streams hand messages of the
same sizes to the transport at the same moments, and the calls end the same way.
-/

namespace SingEwp

variable {P : Primitives}

/-! ## Calls -/

/-- The arguments of one `sendFrame`. -/
structure SendRequest where
  type : FrameType
  metaBytes : Bytes
  payload : Bytes
  padLen : ℤ

namespace SendRequest

def raw (r : SendRequest) : ℕ := rawWireLen r.metaBytes.length r.payload.length

/-- A request that the encoder can only refuse for its size. -/
structure WellFormed (r : SendRequest) : Prop where
  type : r.type.valid = true
  metaBytes : r.metaBytes.length ≤ maxMetaLen

/-- Lengths that the policy makes alike, or the same length and pad. -/
def Alike (r r' : SendRequest) : Prop :=
  (r.padLen < 0 ∧ r'.padLen < 0 ∧ SizeAlike r.raw r'.raw) ∨
    (r.padLen = r'.padLen ∧ r.raw = r'.raw)

end SendRequest

/-- The frame of a call that sends one. -/
def SendCall.request? : SendCall → Option SendRequest
  | .tcpData payload =>
      if payload.length ≤ reshapeThreshold then
        some ⟨frameTCPData, [], payload, -1⟩
      else none
  | .udpNew globalID target initial =>
      (buildUDPMeta globalID target).toOption.map
        fun metaBytes => ⟨frameUDPNew, metaBytes, initial, -1⟩
  | .udpData globalID target payload =>
      (buildUDPMeta globalID target).toOption.map
        fun metaBytes => ⟨frameUDPData, metaBytes, payload, -1⟩
  | .udpEnd globalID => some ⟨frameUDPEnd, globalID.val, [], -1⟩
  | .probeReq globalID => some ⟨frameUDPProbeReq, globalID.val, [], -1⟩
  | .probeResp globalID observed =>
      (buildUDPMeta globalID observed).toOption.map
        fun metaBytes => ⟨frameUDPProbeResp, metaBytes, [], -1⟩
  | .ping cookie => some ⟨framePing, [], cookie, -1⟩
  | .pong cookie => some ⟨framePong, [], cookie, -1⟩
  | .coverPad padLen => some ⟨framePaddingOnly, [], [], padLen⟩

/-- Calls whose frames look alike: single frames, or payloads of the same length
that are cut by the same draws. -/
inductive SendCall.Alike : SendCall → SendCall → Prop where
  | frames {call call' : SendCall} {r r' : SendRequest}
      (hrequest : call.request? = some r) (hrequest' : call'.request? = some r')
      (halike : r.Alike r') : Alike call call'
  | lengths {payload payload' : Bytes} (hlength : payload.length = payload'.length) :
      Alike (.tcpData payload) (.tcpData payload')

inductive StreamCall.Alike : StreamCall → StreamCall → Prop where
  | send {call call' : SendCall} (halike : call.Alike call') :
      Alike (.send call) (.send call')
  | recv : Alike .recv .recv
  | close : Alike .close .close

/-- The same end, up to the name of the frame in the encoder's refusal. -/
def Outcome.Alike (outcome outcome' : Outcome EwpError Unit) : Prop :=
  outcome = outcome' ∨ ∃ code code' e,
    outcome = .error (.encodeFrame code e) ∧
      outcome' = .error (.encodeFrame code' e)

inductive StreamResult.Alike : StreamResult → StreamResult → Prop where
  | sent {outcome outcome' : Outcome EwpError Unit}
      (halike : outcome.Alike outcome') : Alike (.sent outcome) (.sent outcome')
  | received (result : Except EwpError Event) :
      Alike (.received result) (.received result)
  | closed : Alike .closed .closed

/-! ## States -/

/-- Two streams that an observer of the sizes cannot tell apart. -/
structure Twin (s s' : SecureStream) : Prop where
  closed : s.closed = s'.closed
  trCloses : s.trCloses = s'.trCloses
  sendBufCap : s.sendBufCap = s'.sendBufCap
  recv : s.recv = s'.recv
  bytesIn : s.bytesIn = s'.bytesIn
  bytesOut : s.bytesOut = s'.bytesOut
  frmIn : s.frmIn = s'.frmIn
  frmOut : s.frmOut = s'.frmOut
  sizes : s.handed.map (fun e => e.wire.length) =
    s'.handed.map (fun e => e.wire.length)

/-- The random source serves the pads, and the transport goes by the size of a
message. -/
structure StreamEnv.SizeBlind (env : StreamEnv) : Prop where
  pads : ∀ n, env.pad n ≠ none
  transport : ∀ msg msg' : Bytes, msg.length = msg'.length →
    env.sendMessage msg = env.sendMessage msg'

namespace Twin

variable {s s' : SecureStream}

theorem refl (s : SecureStream) : Twin s s :=
  ⟨rfl, rfl, rfl, rfl, rfl, rfl, rfl, rfl, rfl⟩

theorem close (htwin : Twin s s') : Twin s.close s'.close := by
  unfold SecureStream.close
  rw [htwin.closed]
  split
  · exact htwin
  · exact { htwin with closed := rfl, trCloses := by simp [htwin.trCloses] }

theorem growSendBuf (htwin : Twin s s') (total : ℤ) :
    Twin (s.growSendBuf total) (s'.growSendBuf total) := by
  unfold SecureStream.growSendBuf
  rw [htwin.sendBufCap]
  split
  · exact { htwin with sendBufCap := rfl }
  · exact htwin

theorem handOver
    {send send' : FrameAEAD} {e e' : SentFrame} (htwin : Twin s s')
    (hsize : e.wire.length = e'.wire.length) :
    Twin (s.handOver send e) (s'.handOver send' e') :=
  { htwin with sizes := by simp [SecureStream.handOver, htwin.sizes, hsize] }

theorem countSent
    {t t' : FrameType} {wire wire' : Bytes} {now now' : ℤ} (htwin : Twin s s')
    (hsize : wire.length = wire'.length) :
    Twin (s.countSent t wire now) (s'.countSent t' wire' now') :=
  { htwin with
    bytesOut := by simp [SecureStream.countSent, htwin.bytesOut, hsize]
    frmOut := by simp [SecureStream.countSent, htwin.frmOut] }

theorem recvOpened (htwin : Twin s s') (env : StreamEnv) :
    (SingEwp.recvOpened P env s).1 = (SingEwp.recvOpened P env s').1 ∧
      Twin (SingEwp.recvOpened P env s).2 (SingEwp.recvOpened P env s').2 := by
  unfold SingEwp.recvOpened
  rw [htwin.recv]
  cases env.readMessage with
  | error e => exact ⟨rfl, htwin.close⟩
  | ok wire =>
      dsimp only
      cases (decodeFrame P wire s'.recv).1 with
      | error e => exact ⟨rfl, htwin.close⟩
      | ok decoded =>
          have hcounted : Twin (s.countReceived decoded.2 wire)
              (s'.countReceived decoded.2 wire) :=
            { htwin with
              recv := rfl
              bytesIn := by simp [SecureStream.countReceived, htwin.bytesIn]
              frmIn := by simp [SecureStream.countReceived, htwin.frmIn] }
          dsimp only
          cases eventOf decoded.1 with
          | error e => exact ⟨rfl, hcounted.close⟩
          | ok ev => exact ⟨rfl, { hcounted with }⟩

end Twin

/-! ## Sending -/

theorem Outcome.Alike.refl (outcome : Outcome EwpError Unit) :
    outcome.Alike outcome :=
  Or.inl rfl

/-- The pads of two requests that look alike make up for what they differ in. -/
theorem SendRequest.Alike.framePad
    {r r' : SendRequest} {s s' : SecureStream} (halike : r.Alike r')
    (htwin : Twin s s') (draw : RandRead) :
    r.raw + framePad s r.raw r.padLen draw =
        r'.raw + framePad s' r'.raw r'.padLen draw ∧
      (framePad s r.raw r.padLen draw ≤ maxFramePad ↔
        framePad s' r'.raw r'.padLen draw ≤ maxFramePad) := by
  rcases halike with ⟨hauto, hauto', hsize⟩ | ⟨hpad, hraw⟩
  · refine ⟨?_, ?_⟩
    · rw [SingEwp.framePad, SingEwp.framePad, if_pos hauto, if_pos hauto',
        htwin.frmOut]
      exact hsize _ draw
    · exact iff_of_true (framePad_auto hauto s r.raw draw).le_max
        (framePad_auto hauto' s' r'.raw draw).le_max
  · rw [SingEwp.framePad, SingEwp.framePad, hpad, hraw, htwin.frmOut]
    exact ⟨rfl, Iff.rfl⟩

/-- What the encoder makes of a well-formed request, by its size alone. -/
theorem SendRequest.WellFormed.encode
    {r : SendRequest} (hwf : r.WellFormed) (f : FrameAEAD) {pad : ℤ}
    {draw : RandRead} (hpad : 0 ≤ pad) (hserved : ∀ n, draw n ≠ none) :
    if (maxFramePad : ℤ) < pad then
      encodeFrameAppend P [] f r.type r.metaBytes r.payload pad draw =
        .error .padTooLarge
    else if (maxFrameSize : ℤ) + 4 < r.raw + pad then
      encodeFrameAppend P [] f r.type r.metaBytes r.payload pad draw =
        .error .frameTooLarge
    else
      ∃ wire f', encodeFrameAppend P [] f r.type r.metaBytes r.payload pad draw =
        .ok (wire, f') ∧ (wire.length : ℤ) = r.raw + pad := by
  by_cases hbeyond : (maxFramePad : ℤ) < pad
  · rw [if_pos hbeyond]
    exact encodeFrameAppend_beyond hwf.type hwf.metaBytes hbeyond
  · rw [if_neg hbeyond]
    have hraw : r.raw = bareFrameLen r.metaBytes.length r.payload.length + 4 := by
      rw [SendRequest.raw, rawWireLen_eq]
    by_cases hlarge : (maxFrameSize : ℤ) + 4 < r.raw + pad
    · rw [if_pos hlarge]
      unfold encodeFrameAppend
      rw [if_neg (by simp [hwf.type]), if_neg (not_lt.mpr hwf.metaBytes)]
      dsimp only
      rw [if_neg (not_lt.mpr hpad), if_neg hbeyond, if_pos (by omega)]
    · rw [if_neg hlarge]
      have hsize : bareFrameLen r.metaBytes.length r.payload.length + pad.toNat ≤
          maxFrameSize := by
        omega
      obtain ⟨wire, f', henc⟩ := encodeFrameAppend_succeeds P [] f hwf.type
        hwf.metaBytes (not_lt.mp hbeyond) hsize
        (drawPad_ne_none hserved pad.toNat)
      refine ⟨wire, f', henc, ?_⟩
      rw [encodeFrameAppend_length henc, ← SendRequest.raw]
      omega

theorem SendRequest.Alike.sendFrameLocked
    {r r' : SendRequest} {s s' : SecureStream} {env : StreamEnv}
    (halike : r.Alike r') (hwf : r.WellFormed) (hwf' : r'.WellFormed)
    (hblind : env.SizeBlind) (htwin : Twin s s') :
    (SingEwp.sendFrameLocked P r.type r.metaBytes r.payload r.padLen env s).1.Alike
        (SingEwp.sendFrameLocked P r'.type r'.metaBytes r'.payload r'.padLen env
          s').1 ∧
      Twin
        (SingEwp.sendFrameLocked P r.type r.metaBytes r.payload r.padLen env s).2
        (SingEwp.sendFrameLocked P r'.type r'.metaBytes r'.payload r'.padLen env
          s').2 := by
  obtain ⟨htotal, hmax⟩ := halike.framePad htwin env.bucket
  have hnonneg := framePad_nonneg s r.raw r.padLen env.bucket
  have hnonneg' := framePad_nonneg s' r'.raw r'.padLen env.bucket
  have hraw : rawWireLen r.metaBytes.length r.payload.length = r.raw := rfl
  have hraw' : rawWireLen r'.metaBytes.length r'.payload.length = r'.raw := rfl
  unfold SingEwp.sendFrameLocked
  simp only [hraw, hraw']
  generalize SingEwp.framePad s r.raw r.padLen env.bucket = pad at *
  generalize SingEwp.framePad s' r'.raw r'.padLen env.bucket = pad' at *
  rw [htotal, htwin.sendBufCap]
  split
  · exact ⟨Outcome.Alike.refl _, htwin⟩
  · have hgrown := htwin.growSendBuf (toInt64 (r'.raw + pad'))
    generalize s.growSendBuf (toInt64 (r'.raw + pad')) = g at hgrown ⊢
    generalize s'.growSendBuf (toInt64 (r'.raw + pad')) = g' at hgrown ⊢
    have henc := hwf.encode (P := P) g.send hnonneg hblind.pads
    have henc' := hwf'.encode (P := P) g'.send hnonneg' hblind.pads
    by_cases hbeyond : (maxFramePad : ℤ) < pad
    · rw [if_pos hbeyond] at henc
      rw [if_pos (by omega)] at henc'
      rw [henc, henc']
      exact ⟨Or.inr ⟨_, _, _, rfl, rfl⟩, hgrown⟩
    · rw [if_neg hbeyond] at henc
      rw [if_neg (by omega)] at henc'
      by_cases hlarge : (maxFrameSize : ℤ) + 4 < r.raw + pad
      · rw [if_pos hlarge] at henc
        rw [if_pos (by omega)] at henc'
        rw [henc, henc']
        exact ⟨Or.inr ⟨_, _, _, rfl, rfl⟩, hgrown⟩
      · rw [if_neg hlarge] at henc
        rw [if_neg (by omega)] at henc'
        obtain ⟨wire, f, henc, hlen⟩ := henc
        obtain ⟨wire', f', henc', hlen'⟩ := henc'
        have hsize : wire.length = wire'.length := by omega
        rw [henc, henc']
        dsimp only
        rw [hblind.transport wire wire' hsize]
        cases env.sendMessage wire' with
        | some e =>
            exact ⟨Outcome.Alike.refl _, (hgrown.handOver hsize).close⟩
        | none =>
            exact ⟨Outcome.Alike.refl _, (hgrown.handOver hsize).countSent hsize⟩

theorem sendFrame_inStep
    {r r' : SendRequest} (halike : r.Alike r') (hwf : r.WellFormed)
    (hwf' : r'.WellFormed) :
    Proc.InStep StreamEnv.SizeBlind Twin Outcome.Alike
      (sendFrame P r.type r.metaBytes r.payload r.padLen)
      (sendFrame P r'.type r'.metaBytes r'.payload r'.padLen) := by
  have hclosed : Proc.InStep StreamEnv.SizeBlind Twin Eq
      (Proc.observe StreamLabel.closedTest SecureStream.closed)
      (Proc.observe StreamLabel.closedTest SecureStream.closed) :=
    Proc.InStep.atomic (fun _ _ _ _ htwin => ⟨htwin.closed, htwin⟩)
  apply hclosed.bind
  rintro closed _ rfl
  cases closed with
  | true => exact .ret (Outcome.Alike.refl _)
  | false =>
      exact Proc.InStep.atomic (fun _ _ _ hblind htwin =>
        halike.sendFrameLocked hwf hwf' hblind htwin)

theorem tcpRequest_wellFormed (payload : Bytes) :
    (SendRequest.mk frameTCPData [] payload (-1)).WellFormed :=
  ⟨rfl, Nat.zero_le _⟩

theorem sendFrame_tcp_inStep
    {payload payload' : Bytes} (hlength : payload.length = payload'.length) :
    Proc.InStep StreamEnv.SizeBlind Twin Outcome.Alike
      (sendFrame P frameTCPData [] payload (-1))
      (sendFrame P frameTCPData [] payload' (-1)) := by
  have halike : (SendRequest.mk frameTCPData [] payload (-1)).Alike
      ⟨frameTCPData, [], payload', -1⟩ :=
    Or.inr ⟨rfl, by simp [SendRequest.raw, hlength]⟩
  exact @sendFrame_inStep P ⟨frameTCPData, [], payload, -1⟩
    ⟨frameTCPData, [], payload', -1⟩ halike (tcpRequest_wellFormed payload)
    (tcpRequest_wellFormed payload')

/-- Payloads of the same length are cut in the same places. -/
theorem sendChunks_inStep
    {fuel : ℕ} {payload payload' : Bytes}
    (hlength : payload.length = payload'.length) :
    Proc.InStep StreamEnv.SizeBlind Twin Outcome.Alike
      (sendChunks P fuel payload) (sendChunks P fuel payload') := by
  induction fuel generalizing payload payload' with
  | zero => exact .ret (Outcome.Alike.refl _)
  | succ fuel ih =>
      have hnil : payload = [] ↔ payload' = [] := by
        rw [← List.length_eq_zero_iff, hlength, List.length_eq_zero_iff]
      unfold sendChunks
      by_cases hempty : payload' = []
      · rw [if_pos (hnil.mpr hempty), if_pos hempty]
        exact .ret (Outcome.Alike.refl _)
      · rw [if_neg (mt hnil.mp hempty), if_neg hempty]
        have hdraw : Proc.InStep StreamEnv.SizeBlind Twin Eq
            (Proc.atomic StreamLabel.chunkDraw (fun env s =>
              (nextChunk payload.length env.chunk, s)))
            (Proc.atomic StreamLabel.chunkDraw (fun env s =>
              (nextChunk payload'.length env.chunk, s))) :=
          Proc.InStep.atomic (fun _ _ _ _ htwin => ⟨by rw [hlength], htwin⟩)
        apply hdraw.bind
        rintro chunk _ rfl
        have hpiece : (payload.take chunk).length = (payload'.take chunk).length := by
          simp [hlength]
        apply (sendFrame_tcp_inStep hpiece).bind
        rintro outcome outcome' (rfl | ⟨_, _, _, rfl, rfl⟩)
        · cases outcome with
          | ok value => exact ih (by simp [hlength])
          | error e => exact .ret (Outcome.Alike.refl _)
          | panic => exact .ret (Outcome.Alike.refl _)
        · exact .ret (Or.inr ⟨_, _, _, rfl, rfl⟩)

theorem sendTCPData_inStep
    {payload payload' : Bytes} (hlength : payload.length = payload'.length) :
    Proc.InStep StreamEnv.SizeBlind Twin Outcome.Alike
      (sendTCPData P payload) (sendTCPData P payload') := by
  unfold sendTCPData
  rw [hlength]
  split
  · exact sendFrame_tcp_inStep hlength
  · exact sendChunks_inStep hlength

/-- A call with a request sends exactly that. -/
theorem SendCall.proc_of_request
    {call : SendCall} {r : SendRequest} (hrequest : call.request? = some r) :
    call.proc P = sendFrame P r.type r.metaBytes r.payload r.padLen ∧
      r.WellFormed := by
  have haddressed : ∀ (t : FrameType) (globalID : GlobalID) (target : Address)
      (payload : Bytes), t.valid = true →
      (buildUDPMeta globalID target).toOption.map
          (fun metaBytes => SendRequest.mk t metaBytes payload (-1)) = some r →
      sendAddressed P t globalID target payload =
          sendFrame P r.type r.metaBytes r.payload r.padLen ∧ r.WellFormed := by
    intro t globalID target payload htype hmap
    unfold sendAddressed
    cases hbuild : buildUDPMeta globalID target with
    | error e => simp [hbuild, Except.toOption] at hmap
    | ok metaBytes =>
        simp only [hbuild, Except.toOption, Option.map_some, Option.some.injEq]
          at hmap
        subst hmap
        exact ⟨rfl, htype, buildUDPMeta_length hbuild⟩
  cases call with
  | tcpData payload =>
      rw [SendCall.request?] at hrequest
      split at hrequest
      · rename_i hshort
        cases hrequest
        exact ⟨if_pos hshort, tcpRequest_wellFormed payload⟩
      · cases hrequest
  | udpNew globalID target initial => exact haddressed _ _ _ _ rfl hrequest
  | udpData globalID target payload => exact haddressed _ _ _ _ rfl hrequest
  | udpEnd globalID =>
      cases hrequest
      exact ⟨rfl, rfl, by rw [globalID.property]; decide⟩
  | probeReq globalID =>
      cases hrequest
      exact ⟨rfl, rfl, by rw [globalID.property]; decide⟩
  | probeResp globalID observed => exact haddressed _ _ _ _ rfl hrequest
  | ping cookie =>
      cases hrequest
      exact ⟨rfl, rfl, Nat.zero_le _⟩
  | pong cookie =>
      cases hrequest
      exact ⟨rfl, rfl, Nat.zero_le _⟩
  | coverPad padLen =>
      cases hrequest
      exact ⟨rfl, rfl, Nat.zero_le _⟩

theorem SendCall.Alike.inStep
    {call call' : SendCall} (halike : call.Alike call') :
    Proc.InStep StreamEnv.SizeBlind Twin Outcome.Alike (call.proc P)
      (call'.proc P) := by
  cases halike with
  | frames hrequest hrequest' halike =>
      obtain ⟨hproc, hwf⟩ := SendCall.proc_of_request (P := P) hrequest
      obtain ⟨hproc', hwf'⟩ := SendCall.proc_of_request (P := P) hrequest'
      rw [hproc, hproc']
      exact sendFrame_inStep halike hwf hwf'
  | lengths hlength => exact sendTCPData_inStep hlength

theorem StreamCall.Alike.inStep
    {call call' : StreamCall} (halike : call.Alike call') :
    Proc.InStep StreamEnv.SizeBlind Twin StreamResult.Alike (call.proc P)
      (call'.proc P) := by
  cases halike with
  | send halike =>
      exact halike.inStep.bind (fun _ _ houtcome => .ret (.sent houtcome))
  | recv =>
      have hclosed : Proc.InStep StreamEnv.SizeBlind Twin Eq
          (Proc.observe StreamLabel.closedTest SecureStream.closed)
          (Proc.observe StreamLabel.closedTest SecureStream.closed) :=
        Proc.InStep.atomic (fun _ _ _ _ htwin => ⟨htwin.closed, htwin⟩)
      apply hclosed.bind
      rintro closed _ rfl
      cases closed with
      | true => exact .ret (.received _)
      | false =>
          apply Proc.InStep.atomic
          intro env s s' _ htwin
          obtain ⟨hresult, hnext⟩ := htwin.recvOpened (P := P) env
          rw [hresult]
          exact ⟨.received _, hnext⟩
  | close =>
      exact Proc.InStep.atomic (fun _ _ _ _ htwin => ⟨.closed, htwin.close⟩)

/-- Calls that look alike one by one look alike together: after any schedule of
any interleaving the two streams have handed over messages of the same sizes,
count the same and are open or closed alike, and every call has ended the same
way or is still under way in both. -/
theorem sizes_reveal_cells_only
    (P : Primitives) (keys : SessionKeys) (side : Side)
    (calls calls' : List StreamCall)
    (hcalls : List.Forall₂ StreamCall.Alike calls calls')
    (schedule : List (ℕ × StreamEnv))
    (hblind : ∀ turn ∈ schedule, turn.2.SizeBlind) :
    Twin ((callPool P (newSecureStream keys side) calls).run schedule).shared
        ((callPool P (newSecureStream keys side) calls').run schedule).shared ∧
      ∀ thread : ℕ, Option.Rel StreamResult.Alike
        (((callPool P (newSecureStream keys side) calls).run
          schedule).threads[thread]?.bind Proc.result?)
        (((callPool P (newSecureStream keys side) calls').run
          schedule).threads[thread]?.bind Proc.result?) := by
  have hstart : Pool.InStep StreamEnv.SizeBlind Twin StreamResult.Alike
      (callPool P (newSecureStream keys side) calls)
      (callPool P (newSecureStream keys side) calls') := by
    refine ⟨Twin.refl _, fun thread => ?_⟩
    simp only [callPool, List.getElem?_map]
    induction hcalls generalizing thread with
    | nil => exact .none
    | cons halike _ ih =>
        cases thread with
        | zero => exact .some halike.inStep
        | succ thread => exact ih thread
  obtain ⟨hshared, hthreads⟩ := hstart.run hblind
  refine ⟨hshared, fun thread => ?_⟩
  have hthread := hthreads thread
  generalize ((callPool P (newSecureStream keys side) calls).run
    schedule).threads[thread]? = p at hthread ⊢
  generalize ((callPool P (newSecureStream keys side) calls').run
    schedule).threads[thread]? = p' at hthread ⊢
  cases hthread with
  | none => exact .none
  | some hstep => exact hstep.result

namespace Transparent

theorem framerEnv_sizeBlind : framerEnv.SizeBlind where
  pads := by simp [framerEnv, streamEnv]
  transport := by
    intro msg msg' hlength
    simp [framerEnv, framerAccept_eq, hlength]

theorem ping_looks_like_data :
    StreamCall.Alike (.send (.ping [7])) (.send (.tcpData [1, 2, 3])) :=
  .send (.frames rfl rfl (Or.inl ⟨by decide, by decide,
    @SizeAlike.of_cell _ _ 256 (by decide) (by decide) rfl rfl⟩))

end Transparent

/-- A keepalive and three bytes of data, seen from outside. -/
theorem sizes_reveal_cells_only_ping :
    (((callPool Transparent.suite (newSecureStream Transparent.keys .client)
        [.send (.ping [7])]).run
      [(0, Transparent.framerEnv), (0, Transparent.framerEnv)]).shared.handed.map
        fun e => e.wire.length) =
    ((callPool Transparent.suite (newSecureStream Transparent.keys .client)
        [.send (.tcpData [1, 2, 3])]).run
      [(0, Transparent.framerEnv), (0, Transparent.framerEnv)]).shared.handed.map
        fun e => e.wire.length :=
  (sizes_reveal_cells_only Transparent.suite Transparent.keys .client
    [.send (.ping [7])] [.send (.tcpData [1, 2, 3])]
    (.cons Transparent.ping_looks_like_data .nil)
    [(0, Transparent.framerEnv), (0, Transparent.framerEnv)]
    (by simp [Transparent.framerEnv_sizeBlind])).1.sizes

end SingEwp
