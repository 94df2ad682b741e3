import SingEwp.Address
import SingEwp.Frame
import SingEwp.Interleaving
import SingEwp.PaddingPolicy

/-!
# The secure stream

`securestream.go`.  Every sending method is a thread built from `sendFrame`,
whose two actions are the test of `closed` and the section under `writeMu`.
`Recv` and `Close` are single actions: `Recv` has one caller, and a `Close`
between its reads commutes with the rest of it.  The state carries two ghost
logs, the frames handed to the transport and the frames that successful `Recv`
calls returned.
-/

namespace SingEwp

/-! ## Meta and events -/

def buildUDPMeta (globalID : GlobalID) (target : Address) :
    Except EwpError Bytes :=
  if target.isDomain || target.addr.isValid then
    match target.append globalID.val with
    | .error e => .error e
    | .ok out => if maxMetaLen < out.length then .error .metaTooLarge else .ok out
  else .ok globalID.val

/-- `parseUDPMeta`; the address is absent when nothing follows the global ID. -/
def parseUDPMeta (metaBytes : Bytes) :
    Except EwpError (GlobalID × Option Address) :=
  if metaBytes.length < 8 then .error .udpMetaTooShort
  else if metaBytes.length = 8 then
    .ok (FixedBytes.copyFrom 8 (metaBytes.take 8), none)
  else
    match decodeAddress (metaBytes.drop 8) with
    | .error e => .error e
    | .ok (addr, _) => .ok (FixedBytes.copyFrom 8 (metaBytes.take 8), some addr)

/-- `Event`, with `HasAddr` and `Address` in one field. -/
structure Event where
  type : FrameType
  globalID : GlobalID := FixedBytes.copyFrom 8 []
  address : Option Address := none
  payload : Slice
  deriving DecidableEq

def eventOf (df : DecodedFrame) : Except EwpError Event :=
  if df.type ∈ [frameUDPNew, frameUDPData, frameUDPProbeResp] then
    match parseUDPMeta df.metaBytes.bytes with
    | .error e => .error (.parseUDPMeta e)
    | .ok (gid, addr) =>
        .ok { type := df.type, globalID := gid, address := addr,
              payload := df.payload }
  else if df.type ∈ [frameUDPEnd, frameUDPProbeReq] then
    if df.metaBytes.bytes.length < 8 then .error .udpEndMetaTooShort
    else
      .ok { type := df.type,
            globalID := FixedBytes.copyFrom 8 (df.metaBytes.bytes.take 8),
            payload := df.payload }
  else if df.type ∈ [frameTCPData, framePing, framePong, framePaddingOnly,
      frameRekeyReq, frameRekeyResp] then
    .ok { type := df.type, payload := df.payload }
  else .error .frameType

/-! ## State -/

/-- A frame handed to the transport, with the message it was encoded to. -/
structure SentFrame where
  type : FrameType
  metaBytes : Bytes
  payload : Bytes
  wire : Bytes

structure ReceivedFrame where
  frame : DecodedFrame
  event : Event

structure SecureStream where
  send : FrameAEAD
  recv : FrameAEAD
  sendBufCap : ℕ := 0
  lastSendNs : ℤ := 0
  closed : Bool := false
  /-- How often the transport has been closed. -/
  trCloses : ℕ := 0
  bytesIn : UInt64 := 0
  bytesOut : UInt64 := 0
  frmIn : UInt64 := 0
  frmOut : UInt64 := 0
  handed : List SentFrame := []
  received : List ReceivedFrame := []

def newClientSecureStream (keys : SessionKeys) : SecureStream where
  send := newFrameAEAD keys.c2sKey keys.c2sNonce
  recv := newFrameAEAD keys.s2cKey keys.s2cNonce

def newServerSecureStream (keys : SessionKeys) : SecureStream where
  send := newFrameAEAD keys.s2cKey keys.s2cNonce
  recv := newFrameAEAD keys.c2sKey keys.c2sNonce

/-- What one action obtains from outside: random reads, the clock and the
transport. -/
structure StreamEnv where
  bucket : RandRead
  pad : RandRead
  chunk : RandRead
  nowNs : ℤ
  sendMessage : Bytes → Option EwpError
  readMessage : Except EwpError Bytes

inductive StreamLabel where
  | closedTest
  | sendLocked
  | chunkDraw
  | recv
  | close
  deriving DecidableEq

abbrev StreamProc (α : Type) := Proc StreamLabel StreamEnv SecureStream α

namespace SecureStream

/-- `Close`, or what several calls of it come to: the flag is set and the transport
closed. -/
def close (s : SecureStream) : SecureStream :=
  if s.closed then s else { s with closed := true, trCloses := s.trCloses + 1 }

/-- `make([]byte, 0, total)` when the send buffer is too small. -/
def growSendBuf (s : SecureStream) (total : ℤ) : SecureStream :=
  if (s.sendBufCap : ℤ) < total then { s with sendBufCap := total.toNat } else s

def handOver (s : SecureStream) (send : FrameAEAD) (frame : SentFrame) :
    SecureStream :=
  { s with send := send, handed := s.handed ++ [frame] }

def countSent (s : SecureStream) (t : FrameType) (wire : Bytes) (nowNs : ℤ) :
    SecureStream :=
  { s with
    bytesOut := s.bytesOut + UInt64.ofNat wire.length
    frmOut := s.frmOut + 1
    lastSendNs := if t ≠ framePaddingOnly then nowNs else s.lastSendNs }

def countReceived (s : SecureStream) (recv : FrameAEAD) (wire : Bytes) :
    SecureStream :=
  { s with
    recv := recv
    bytesIn := s.bytesIn + UInt64.ofNat wire.length
    frmIn := s.frmIn + 1 }

end SecureStream

/-! ## Sending -/

def rawWireLen (metaLen payloadLen : ℕ) : ℕ :=
  frameHeaderSize + metaLen + payloadLen + aeadTagLen

/-- The pad length `sendFrame` settles on. -/
def framePad (s : SecureStream) (raw : ℕ) (padLen : ℤ) (draw : RandRead) : ℤ :=
  if padLen < 0 then suggestStreamPad raw (toInt64 s.frmOut.toNat) draw
  else padLen

/-- The section of `sendFrame` under `writeMu`. -/
def sendFrameLocked (P : Primitives) (t : FrameType) (metaBytes payload : Bytes)
    (padLen : ℤ) (env : StreamEnv) (s : SecureStream) :
    Outcome EwpError Unit × SecureStream :=
  let raw := rawWireLen metaBytes.length payload.length
  let padLen := framePad s raw padLen env.bucket
  let total := toInt64 (raw + padLen)
  if (s.sendBufCap : ℤ) < total ∧ (maxAlloc : ℤ) < total then (.panic, s)
  else
    let s := s.growSendBuf total
    -- encoding moves the counter on, even if the transport then fails
    match encodeFrameAppend P [] s.send t metaBytes payload padLen env.pad with
    | .error e => (.error (.encodeFrame t.code e), s)
    | .ok (wire, send) =>
        let s := s.handOver send ⟨t, metaBytes, payload, wire⟩
        match env.sendMessage wire with
        | some e => (.error (.transportSend e), s.close)
        | none => (.ok (), s.countSent t wire env.nowNs)

def sendFrame (P : Primitives) (t : FrameType) (metaBytes payload : Bytes)
    (padLen : ℤ) : StreamProc (Outcome EwpError Unit) := do
  let closed ← Proc.observe .closedTest SecureStream.closed
  if closed then pure (.error (.io .closedPipe))
  else Proc.atomic .sendLocked (sendFrameLocked P t metaBytes payload padLen)

def reshapeThreshold : ℕ := 8192
def reshapeMin : ℕ := 4096
def reshapeMax : ℕ := 12288

def nextChunk (len : ℕ) (draw : RandRead) : ℕ :=
  let chunk :=
    if reshapeMax < len then
      reshapeMin + (secureRandIntn ((reshapeMax : ℤ) - reshapeMin + 1) draw).toNat
    else len
  if len < chunk then len else chunk

/-- The loop of `SendTCPData`.  Every piece is nonempty, so the length of the
payload is fuel enough. -/
def sendChunks (P : Primitives) :
    ℕ → Bytes → StreamProc (Outcome EwpError Unit)
  | 0, _ => pure (.ok ())
  | fuel + 1, payload =>
      if payload = [] then pure (.ok ())
      else do
        let chunk ← Proc.atomic .chunkDraw
          (fun env s => (nextChunk payload.length env.chunk, s))
        match ← sendFrame P frameTCPData [] (payload.take chunk) (-1) with
        | .ok () => sendChunks P fuel (payload.drop chunk)
        | failed => pure failed

def sendTCPData (P : Primitives) (payload : Bytes) :
    StreamProc (Outcome EwpError Unit) :=
  if payload.length ≤ reshapeThreshold then
    sendFrame P frameTCPData [] payload (-1)
  else sendChunks P payload.length payload

/-- The common body of the methods that carry an address. -/
def sendAddressed (P : Primitives) (t : FrameType) (globalID : GlobalID)
    (target : Address) (payload : Bytes) : StreamProc (Outcome EwpError Unit) :=
  match buildUDPMeta globalID target with
  | .error e => pure (.error e)
  | .ok metaBytes => sendFrame P t metaBytes payload (-1)

def sendUDPNew (P : Primitives) (globalID : GlobalID) (target : Address)
    (initial : Bytes) : StreamProc (Outcome EwpError Unit) :=
  sendAddressed P frameUDPNew globalID target initial

def sendUDPData (P : Primitives) (globalID : GlobalID) (target : Address)
    (payload : Bytes) : StreamProc (Outcome EwpError Unit) :=
  sendAddressed P frameUDPData globalID target payload

def sendUDPEnd (P : Primitives) (globalID : GlobalID) :
    StreamProc (Outcome EwpError Unit) :=
  sendFrame P frameUDPEnd globalID.val [] (-1)

def sendProbeReq (P : Primitives) (globalID : GlobalID) :
    StreamProc (Outcome EwpError Unit) :=
  sendFrame P frameUDPProbeReq globalID.val [] (-1)

def sendProbeResp (P : Primitives) (globalID : GlobalID) (observed : Address) :
    StreamProc (Outcome EwpError Unit) :=
  sendAddressed P frameUDPProbeResp globalID observed []

def sendPing (P : Primitives) (cookie : Bytes) :
    StreamProc (Outcome EwpError Unit) :=
  sendFrame P framePing [] cookie (-1)

def sendPong (P : Primitives) (cookie : Bytes) :
    StreamProc (Outcome EwpError Unit) :=
  sendFrame P framePong [] cookie (-1)

def sendCoverPad (P : Primitives) (padLen : ℤ) :
    StreamProc (Outcome EwpError Unit) :=
  sendFrame P framePaddingOnly [] [] padLen

inductive SendCall where
  | tcpData (payload : Bytes)
  | udpNew (globalID : GlobalID) (target : Address) (initial : Bytes)
  | udpData (globalID : GlobalID) (target : Address) (payload : Bytes)
  | udpEnd (globalID : GlobalID)
  | probeReq (globalID : GlobalID)
  | probeResp (globalID : GlobalID) (observed : Address)
  | ping (cookie : Bytes)
  | pong (cookie : Bytes)
  | coverPad (padLen : ℤ)

def SendCall.proc (P : Primitives) :
    SendCall → StreamProc (Outcome EwpError Unit)
  | .tcpData payload => sendTCPData P payload
  | .udpNew globalID target initial => sendUDPNew P globalID target initial
  | .udpData globalID target payload => sendUDPData P globalID target payload
  | .udpEnd globalID => sendUDPEnd P globalID
  | .probeReq globalID => sendProbeReq P globalID
  | .probeResp globalID observed => sendProbeResp P globalID observed
  | .ping cookie => sendPing P cookie
  | .pong cookie => sendPong P cookie
  | .coverPad padLen => sendCoverPad P padLen

/-! ## Receiving -/

def recv (P : Primitives) (env : StreamEnv) (s : SecureStream) :
    Except EwpError Event × SecureStream :=
  if s.closed then (.error (.io .closedPipe), s)
  else
    match env.readMessage with
    | .error e => (.error e, s.close)
    | .ok wire =>
        match (decodeFrame P wire s.recv).1 with
        | .error e => (.error (.decodeFrame e), s.close)
        | .ok (df, recv) =>
            let s := s.countReceived recv wire
            match eventOf df with
            | .error e => (.error e, s.close)
            | .ok ev => (.ok ev, { s with received := s.received ++ [⟨df, ev⟩] })

def readingEnv (msg : Except EwpError Bytes) : StreamEnv where
  bucket := fun _ => none
  pad := fun _ => none
  chunk := fun _ => none
  nowNs := 0
  sendMessage := fun _ => none
  readMessage := msg

/-! ## What one action does -/

namespace SecureStream

variable (s : SecureStream)

@[simp] theorem close_closed : s.close.closed = true := by
  unfold close
  split <;> simp_all

@[simp] theorem close_send : s.close.send = s.send := by
  unfold close
  split <;> rfl

@[simp] theorem close_recv : s.close.recv = s.recv := by
  unfold close
  split <;> rfl

@[simp] theorem close_handed : s.close.handed = s.handed := by
  unfold close
  split <;> rfl

@[simp] theorem close_received : s.close.received = s.received := by
  unfold close
  split <;> rfl

@[simp] theorem close_sendBufCap : s.close.sendBufCap = s.sendBufCap := by
  unfold close
  split <;> rfl

/-- A frame leaves the stream: the buffer may have grown, the counter moves on
and the log records the message. -/
def emit (P : Primitives) (cap : ℕ) (fr : Frame) : SecureStream :=
  { s with sendBufCap := cap }.handOver
    { s.send with counter := s.send.counter + 1 }
    ⟨fr.type, fr.metaBytes, fr.payload, fr.wire P s.send⟩

end SecureStream

theorem growSendBuf_eq (s : SecureStream) (total : ℤ) :
    ∃ cap, s.growSendBuf total = { s with sendBufCap := cap } := by
  unfold SecureStream.growSendBuf
  split
  · exact ⟨_, rfl⟩
  · exact ⟨s.sendBufCap, rfl⟩

/-- The three ways through the locked section: nothing is handed over, a frame
is handed over and taken, or it is handed over and refused. -/
inductive SendStep (P : Primitives) (t : FrameType) (metaBytes payload : Bytes)
    (env : StreamEnv) (s : SecureStream) :
    Outcome EwpError Unit × SecureStream → Prop where
  | kept (outcome : Outcome EwpError Unit) (cap : ℕ)
      (failed : outcome = .panic ∨
        ∃ e, outcome = .error (.encodeFrame t.code e)) :
      SendStep P t metaBytes payload env s
        (outcome, { s with sendBufCap := cap })
  | taken (cap : ℕ) (fr : Frame) (htype : fr.type = t)
      (hmeta : fr.metaBytes = metaBytes) (hpayload : fr.payload = payload)
      (hsend : env.sendMessage (fr.wire P s.send) = none) :
      SendStep P t metaBytes payload env s
        (.ok (), (s.emit P cap fr).countSent t (fr.wire P s.send) env.nowNs)
  | refused (cap : ℕ) (fr : Frame) (htype : fr.type = t)
      (hmeta : fr.metaBytes = metaBytes) (hpayload : fr.payload = payload)
      (e : EwpError) (hsend : env.sendMessage (fr.wire P s.send) = some e) :
      SendStep P t metaBytes payload env s
        (.error (.transportSend e), (s.emit P cap fr).close)

theorem SendStep.ne_ok_of_failed
    {outcome : Outcome EwpError Unit} {t : FrameType}
    (failed : outcome = .panic ∨
      ∃ e, outcome = .error (.encodeFrame t.code e)) : outcome ≠ .ok () := by
  rcases failed with rfl | ⟨e, rfl⟩ <;> simp

theorem sendFrameLocked_step
    (P : Primitives) (t : FrameType) (metaBytes payload : Bytes) (padLen : ℤ)
    (env : StreamEnv) (s : SecureStream) :
    SendStep P t metaBytes payload env s
      (sendFrameLocked P t metaBytes payload padLen env s) := by
  unfold sendFrameLocked
  dsimp only
  split
  · exact SendStep.kept .panic s.sendBufCap (Or.inl rfl)
  · obtain ⟨cap, hcap⟩ := growSendBuf_eq s
      (toInt64 (rawWireLen metaBytes.length payload.length +
        framePad s (rawWireLen metaBytes.length payload.length) padLen
          env.bucket))
    rw [hcap]
    split
    · rename_i e _
      exact SendStep.kept _ cap (Or.inr ⟨e, rfl⟩)
    · rename_i wire send henc
      obtain ⟨fr, htype, hmeta, hpayload, _, hwire, hsend⟩ :=
        encodeFrameAppend_ok henc
      simp only [List.nil_append] at hwire
      subst hwire hsend
      cases htr : env.sendMessage (fr.wire P s.send) with
      | some e =>
          simp only [← htype, ← hmeta, ← hpayload]
          exact SendStep.refused cap fr rfl rfl rfl e htr
      | none =>
          simp only [← htype, ← hmeta, ← hpayload]
          exact SendStep.taken cap fr rfl rfl rfl htr

/-- The ways through `Recv`. -/
inductive RecvStep (P : Primitives) (env : StreamEnv) (s : SecureStream) :
    Except EwpError Event × SecureStream → Prop where
  | refused (hclosed : s.closed = true) :
      RecvStep P env s (.error (.io .closedPipe), s)
  | failed (e : EwpError) (hclosed : s.closed = false) :
      RecvStep P env s (.error e, s.close)
  | malformed (e : EwpError) (hclosed : s.closed = false) (wire : Bytes)
      (recv : FrameAEAD) :
      RecvStep P env s (.error e, (s.countReceived recv wire).close)
  | received (hclosed : s.closed = false) (wire rest : Bytes)
      (df : DecodedFrame) (ev : Event) (recv : FrameAEAD)
      (hread : env.readMessage = .ok wire)
      (hdec : decodeFrame P wire s.recv = (.ok (df, recv), rest))
      (hev : eventOf df = .ok ev) :
      RecvStep P env s
        (.ok ev,
          { s.countReceived recv wire with
            received := s.received ++ [⟨df, ev⟩] })

theorem recv_step (P : Primitives) (env : StreamEnv) (s : SecureStream) :
    RecvStep P env s (recv P env s) := by
  unfold recv
  cases hclosed : s.closed with
  | true => exact RecvStep.refused hclosed
  | false =>
      simp only [Bool.false_eq_true, if_false]
      cases hread : env.readMessage with
      | error e => exact RecvStep.failed e hclosed
      | ok wire =>
          dsimp only
          cases hdec : decodeFrame P wire s.recv with
          | mk result rest =>
              cases result with
              | error e => exact RecvStep.failed _ hclosed
              | ok pair =>
                  obtain ⟨df, recv⟩ := pair
                  dsimp only
                  cases hev : eventOf df with
                  | error e => exact RecvStep.malformed e hclosed wire recv
                  | ok ev =>
                      exact RecvStep.received hclosed wire rest df ev recv
                        hread hdec hev

theorem recv_wire
    {P : Primitives} {s : SecureStream} {fr : Frame} {env : StreamEnv}
    {ev : Event} (hopen : s.closed = false)
    (hread : env.readMessage = .ok (fr.wire P s.recv))
    (hevent : eventOf (fr.decoded s.recv.counter) = .ok ev) :
    ∃ s', recv P env s = (.ok ev, s') ∧ s'.closed = false ∧
      s'.recv = { s.recv with counter := s.recv.counter + 1 } := by
  have hdec := decodeFrame_wire P s.recv fr []
  rw [List.append_nil] at hdec
  unfold recv
  simp only [hopen, Bool.false_eq_true, if_false, hread, hdec, hevent]
  exact ⟨_, rfl, hopen, rfl⟩

theorem sendFrame_exec
    {P : Primitives} {t : FrameType} {metaBytes payload : Bytes} {padLen : ℤ}
    {supply : ℕ → StreamEnv} {s s' : SecureStream}
    {outcome : Outcome EwpError Unit} (hopen : s.closed = false)
    (hlocked : sendFrameLocked P t metaBytes payload padLen (supply 1) s =
      (outcome, s')) :
    (sendFrame P t metaBytes payload padLen).exec supply s =
      (outcome, s', fun k => supply (k + 1 + 1)) := by
  rw [sendFrame, Proc.bind_eq, Proc.exec_bind, Proc.exec_observe, hopen]
  simp only [Bool.false_eq_true, if_false, Proc.exec_atomic, zero_add, hlocked]

theorem sendFrame_exec_ok
    {P : Primitives} {t : FrameType} {metaBytes payload : Bytes} {padLen : ℤ}
    {supply supply' : ℕ → StreamEnv} {s s' : SecureStream}
    (hexec : (sendFrame P t metaBytes payload padLen).exec supply s =
      (.ok (), s', supply')) :
    ∃ env, sendFrameLocked P t metaBytes payload padLen env s = (.ok (), s') := by
  cases hclosed : s.closed with
  | true =>
      rw [sendFrame, Proc.bind_eq, Proc.exec_bind, Proc.exec_observe, hclosed]
        at hexec
      simp at hexec
  | false =>
      generalize hlocked :
        sendFrameLocked P t metaBytes payload padLen (supply 1) s = r
      obtain ⟨outcome, last⟩ := r
      rw [sendFrame_exec hclosed hlocked] at hexec
      simp only [Prod.mk.injEq] at hexec
      exact ⟨supply 1, by rw [hlocked, hexec.1, hexec.2.1]⟩

/-! ## The methods over any `sendFrame` -/

section Over

variable {ℓ ε σ : Type}
variable (send : FrameType → Bytes → Bytes → ℤ → Proc ℓ ε σ (Outcome EwpError Unit))
variable (draw : ℕ → Proc ℓ ε σ ℕ)

/-- The loop of `SendTCPData`; `draw` chooses the length of the next piece. -/
def sendChunksOver : ℕ → Bytes → Proc ℓ ε σ (Outcome EwpError Unit)
  | 0, _ => pure (.ok ())
  | fuel + 1, payload =>
      if payload = [] then pure (.ok ())
      else do
        let chunk ← draw payload.length
        match ← send frameTCPData [] (payload.take chunk) (-1) with
        | .ok () => sendChunksOver fuel (payload.drop chunk)
        | failed => pure failed

def sendTCPDataOver (payload : Bytes) : Proc ℓ ε σ (Outcome EwpError Unit) :=
  if payload.length ≤ reshapeThreshold then send frameTCPData [] payload (-1)
  else sendChunksOver send draw payload.length payload

def sendAddressedOver (t : FrameType) (globalID : GlobalID) (target : Address)
    (payload : Bytes) : Proc ℓ ε σ (Outcome EwpError Unit) :=
  match buildUDPMeta globalID target with
  | .error e => pure (.error e)
  | .ok metaBytes => send t metaBytes payload (-1)

def SendCall.over : SendCall → Proc ℓ ε σ (Outcome EwpError Unit)
  | .tcpData payload => sendTCPDataOver send draw payload
  | .udpNew globalID target initial =>
      sendAddressedOver send frameUDPNew globalID target initial
  | .udpData globalID target payload =>
      sendAddressedOver send frameUDPData globalID target payload
  | .udpEnd globalID => send frameUDPEnd globalID.val [] (-1)
  | .probeReq globalID => send frameUDPProbeReq globalID.val [] (-1)
  | .probeResp globalID observed =>
      sendAddressedOver send frameUDPProbeResp globalID observed []
  | .ping cookie => send framePing [] cookie (-1)
  | .pong cookie => send framePong [] cookie (-1)
  | .coverPad padLen => send framePaddingOnly [] [] padLen

variable {send draw}

theorem SendCall.proc_eq_over (P : Primitives) (call : SendCall) :
    call.proc P = call.over (sendFrame P) (fun len =>
      Proc.atomic .chunkDraw (fun env s => (nextChunk len env.chunk, s))) := by
  have hchunks : ∀ fuel payload, sendChunks P fuel payload =
      sendChunksOver (sendFrame P) (fun len =>
        Proc.atomic .chunkDraw (fun env s => (nextChunk len env.chunk, s)))
        fuel payload := by
    intro fuel
    induction fuel with
    | zero => exact fun _ => rfl
    | succ fuel ih =>
        intro payload
        by_cases hnil : payload = []
        · rw [sendChunks, sendChunksOver, if_pos hnil, if_pos hnil]
        · rw [sendChunks, sendChunksOver, if_neg hnil, if_neg hnil]
          refine congrArg (Proc.bind _) (funext fun chunk => ?_)
          refine congrArg (Proc.bind _) (funext fun outcome => ?_)
          cases outcome with
          | ok u => exact ih _
          | error e => rfl
          | panic => rfl
  cases call with
  | tcpData payload =>
      change sendTCPData P payload = sendTCPDataOver _ _ payload
      rw [sendTCPData, sendTCPDataOver, hchunks]
  | _ => rfl

/-- The actions of a method are those of `sendFrame` and of the draws. -/
theorem SendCall.over_acts
    {action : ℓ → (ε → σ → σ) → Prop}
    (hsend : ∀ t metaBytes payload padLen,
      Proc.Acts action (send t metaBytes payload padLen))
    (hdraw : ∀ len, Proc.Acts action (draw len)) (call : SendCall) :
    Proc.Acts action (call.over send draw) := by
  have hchunks : ∀ fuel payload,
      Proc.Acts action (sendChunksOver send draw fuel payload) := by
    intro fuel
    induction fuel with
    | zero => exact fun _ => trivial
    | succ fuel ih =>
        intro payload
        unfold sendChunksOver
        split
        · trivial
        · refine Proc.Acts.bind (hdraw _) fun chunk => ?_
          refine Proc.Acts.bind (hsend _ _ _ _) fun result => ?_
          split
          · exact ih _
          · trivial
  have haddressed : ∀ t globalID target payload,
      Proc.Acts action (sendAddressedOver send t globalID target payload) := by
    intro t globalID target payload
    unfold sendAddressedOver
    split
    · trivial
    · exact hsend _ _ _ _
  cases call with
  | tcpData payload =>
      change Proc.Acts action (sendTCPDataOver send draw payload)
      unfold sendTCPDataOver
      split
      · exact hsend _ _ _ _
      · exact hchunks _ _
  | udpNew globalID target initial => exact haddressed _ _ _ _
  | udpData globalID target payload => exact haddressed _ _ _ _
  | probeResp globalID observed => exact haddressed _ _ _ _
  | _ => exact hsend _ _ _ _

end Over

/-! ## What calls are made of -/

/-- The actions of the stream's methods: two that only read, and three that
write. -/
inductive StreamAction (P : Primitives) :
    StreamLabel → (StreamEnv → SecureStream → SecureStream) → Prop where
  | closedTest : StreamAction P .closedTest (fun _ s => s)
  | chunkDraw : StreamAction P .chunkDraw (fun _ s => s)
  | sendLocked (t : FrameType) (metaBytes payload : Bytes) (padLen : ℤ) :
      StreamAction P .sendLocked
        (fun env s => (sendFrameLocked P t metaBytes payload padLen env s).2)
  | recv : StreamAction P .recv (fun env s => (recv P env s).2)
  | close : StreamAction P .close (fun _ s => s.close)

section Acts

variable (P : Primitives)

theorem sendFrame_acts
    (t : FrameType) (metaBytes payload : Bytes) (padLen : ℤ) :
    Proc.Acts (StreamAction P) (sendFrame P t metaBytes payload padLen) := by
  unfold sendFrame
  apply Proc.Acts.bind (Proc.Acts.atomic StreamAction.closedTest)
  intro closed
  split
  · trivial
  · exact Proc.Acts.atomic (StreamAction.sendLocked t metaBytes payload padLen)

theorem SendCall.acts (call : SendCall) :
    Proc.Acts (StreamAction P) (call.proc P) := by
  rw [call.proc_eq_over P]
  exact call.over_acts (sendFrame_acts P) fun _ => Proc.Acts.atomic .chunkDraw

end Acts

theorem sendFrame_meets
    {P : Primitives} {I : SecureStream → Prop}
    {ok : StreamLabel → StreamEnv → SecureStream → Prop}
    {During : List SentFrame → Prop}
    {Post : List SentFrame → Outcome EwpError Unit → Prop}
    {so : List SentFrame} {t : FrameType} {metaBytes payload : Bytes}
    {padLen : ℤ} (hso : During so)
    (hclosed : ∀ s, I s → s.closed = true → Post so (.error (.io .closedPipe)))
    (hlocked : ∀ env s, I s → ok .sendLocked env s →
      I (sendFrameLocked P t metaBytes payload padLen env s).2 ∧
      ∃ new, (sendFrameLocked P t metaBytes payload padLen env s).2.handed =
          s.handed ++ new ∧
        During (so ++ new) ∧
        Post (so ++ new)
          (sendFrameLocked P t metaBytes payload padLen env s).1) :
    Proc.Meets I ok SecureStream.handed During Post so
      (sendFrame P t metaBytes payload padLen) := by
  have htest : Proc.Meets I ok SecureStream.handed During
      (fun all closed => all = so ∧ ∃ s, I s ∧ s.closed = closed) so
      (Proc.observe .closedTest SecureStream.closed) :=
    Proc.Meets.observe hso (fun _ s hinv _ => ⟨rfl, s, hinv, rfl⟩)
  refine Proc.Meets.bind htest ?_
  rintro all closed _ ⟨rfl, s, hinv, hs⟩
  by_cases hset : closed = true
  · rw [if_pos hset]
    exact ⟨hso, hclosed s hinv (hs.trans hset)⟩
  · rw [if_neg hset]
    exact Proc.Meets.atomic hso hlocked

end SingEwp
