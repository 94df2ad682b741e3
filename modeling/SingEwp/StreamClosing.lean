import SingEwp.StreamTermination

/-!
# Failures end a stream

`Close` of `securestream.go` step by step.  The goroutine that is first to enter
`closeOnce` sets `closed` and then closes the transport; every other closer waits
for it.  `Recv` and `sendFrame` test the flag only, so there is a moment at which
they already refuse and the transport is still open.  A call that has failed in
the transport or in decoding comes back from `closeUnderlying` first, and by then
the transport is closed, whoever has closed it.
-/

namespace SingEwp

variable {P : Primitives}

/-! ## The steps -/

/-- A `sync.Once`, with the goroutine that is inside and what it leaves behind. -/
inductive OnceState (ρ : Type) where
  | idle
  | running (owner : ℕ)
  | done (result : ρ)
  deriving DecidableEq

/-- A stream with its `closeOnce` and the holder of its `writeMu`. -/
structure ClosingStream where
  stream : SecureStream
  closeOnce : OnceState Unit := .idle
  writeMu : Option ℕ := none

/-- What one action obtains from outside, with the answer of the transport's
`Close`. -/
structure ClosingEnv where
  stream : StreamEnv
  trClose : Option EwpError

inductive ClosingLabel where
  | closedTest
  | chunkDraw
  | lockWrite
  | sendBody
  | unlockWrite
  | recvBody
  | onceEnter
  | storeClosed
  | trClose
  | onceLeave
  deriving DecidableEq

abbrev ClosingProc (α : Type) := Proc ClosingLabel ClosingEnv ClosingStream α

def OnceState.isRunning {ρ : Type} : OnceState ρ → Bool
  | .running _ => true
  | _ => false

/-- Two actions may have to wait. -/
def ClosingLabel.ready (label : ClosingLabel) (t : ClosingStream) : Bool :=
  match label with
  | .lockWrite => t.writeMu.isNone
  | .onceEnter => !t.closeOnce.isRunning
  | _ => true

def ClosingStream.setStream (s : SecureStream) (t : ClosingStream) : ClosingStream :=
  { t with stream := s }

/-- `Close`, called by the goroutine `me`.  Only the first call has an error to
return. -/
def closeSteps (me : ℕ) : ClosingProc (Option EwpError) := do
  let first ← Proc.atomic .onceEnter (fun _ t =>
    if t.closeOnce = .idle then (true, { t with closeOnce := .running me })
    else (false, t))
  if first then do
    let _ ← Proc.atomic .storeClosed (fun _ t =>
      ((), t.setStream { t.stream with closed := true }))
    let err ← Proc.atomic .trClose (fun env t =>
      (env.trClose, t.setStream { t.stream with trCloses := t.stream.trCloses + 1 }))
    let _ ← Proc.atomic .onceLeave (fun _ t => ((), { t with closeOnce := .done () }))
    pure err
  else pure none

/-- The section of `sendFrame` under `writeMu` up to the answer of the
transport. -/
def sendFrameBody (P : Primitives) (t : FrameType) (metaBytes payload : Bytes)
    (padLen : ℤ) (env : StreamEnv) (s : SecureStream) :
    Outcome EwpError Unit × SecureStream :=
  let raw := rawWireLen metaBytes.length payload.length
  let padLen := framePad s raw padLen env.bucket
  let total := toInt64 (raw + padLen)
  if (s.sendBufCap : ℤ) < total ∧ (maxAlloc : ℤ) < total then (.panic, s)
  else
    let s := s.growSendBuf total
    match encodeFrameAppend P [] s.send t metaBytes payload padLen env.pad with
    | .error e => (.error (.encodeFrame t.code e), s)
    | .ok (wire, send) =>
        let s := s.handOver send ⟨t, metaBytes, payload, wire⟩
        match env.sendMessage wire with
        | some e => (.error (.transportSend e), s)
        | none => (.ok (), s.countSent t wire env.nowNs)

/-- `closeUnderlying` after a failed `SendMessage`. -/
def closeIfLost (me : ℕ) (outcome : Outcome EwpError Unit) : ClosingProc Unit :=
  match outcome with
  | .error (.transportSend _) => do
      let _ ← closeSteps me
      pure ()
  | _ => pure ()

/-- `sendFrame`; the deferred `Unlock` comes last, also after a panic. -/
def sendFrameSteps (P : Primitives) (me : ℕ) (t : FrameType)
    (metaBytes payload : Bytes) (padLen : ℤ) :
    ClosingProc (Outcome EwpError Unit) := do
  let closed ← Proc.observe .closedTest (fun t => t.stream.closed)
  if closed then pure (.error (.io .closedPipe))
  else do
    let _ ← Proc.atomic .lockWrite (fun _ t => ((), { t with writeMu := some me }))
    let outcome ← Proc.atomic .sendBody (fun env u =>
      ((sendFrameBody P t metaBytes payload padLen env.stream u.stream).1,
        u.setStream
          (sendFrameBody P t metaBytes payload padLen env.stream u.stream).2))
    let _ ← closeIfLost me outcome
    let _ ← Proc.atomic .unlockWrite (fun _ t => ((), { t with writeMu := none }))
    pure outcome

/-- `Recv` between its test of `closed` and the calls of `closeUnderlying`. -/
def recvBody (P : Primitives) (env : StreamEnv) (s : SecureStream) :
    Except EwpError Event × SecureStream :=
  match env.readMessage with
  | .error e => (.error e, s)
  | .ok wire =>
      match (decodeFrame P wire s.recv).1 with
      | .error e => (.error (.decodeFrame e), s)
      | .ok (df, recv) =>
          let s := s.countReceived recv wire
          match eventOf df with
          | .error e => (.error e, s)
          | .ok ev => (.ok ev, { s with received := s.received ++ [⟨df, ev⟩] })

/-- The outcome of a call; a `Recv` that has found the stream closed is told apart
from one that has failed, though both return an error. -/
inductive ClosingResult where
  | sent (outcome : Outcome EwpError Unit)
  | refused (err : EwpError)
  | received (result : Except EwpError Event)
  | closed (err : Option EwpError)
  deriving DecidableEq

def recvSteps (P : Primitives) (me : ℕ) : ClosingProc ClosingResult := do
  let closed ← Proc.observe .closedTest (fun t => t.stream.closed)
  if closed then pure (.refused (.io .closedPipe))
  else do
    let result ← Proc.atomic .recvBody (fun env t =>
      ((recvBody P env.stream t.stream).1,
        t.setStream (recvBody P env.stream t.stream).2))
    match result with
    | .ok ev => pure (.received (.ok ev))
    | .error e => do
        let _ ← closeSteps me
        pure (.received (.error e))

def drawSteps (len : ℕ) : ClosingProc ℕ :=
  Proc.atomic .chunkDraw (fun env t => (nextChunk len env.stream.chunk, t))

def SendCall.steps (P : Primitives) (me : ℕ) (call : SendCall) :
    ClosingProc (Outcome EwpError Unit) :=
  call.over (sendFrameSteps P me) drawSteps

namespace StreamCall

def steps (P : Primitives) (me : ℕ) : StreamCall → ClosingProc ClosingResult
  | .send call => do
      let outcome ← call.steps P me
      pure (.sent outcome)
  | .recv => recvSteps P me
  | .close => do
      let err ← closeSteps me
      pure (.closed err)

end StreamCall

def closingPool (P : Primitives) (s : SecureStream) (calls : List StreamCall) :
    Pool ClosingLabel ClosingEnv ClosingStream ClosingResult where
  shared := { stream := s }
  threads := calls.mapIdx (fun me call => call.steps P me)

/-- The results after which the stream is over: a `Recv` has failed in the
transport, in decoding the frame or its meta, or on an unknown type, a send has
failed in the transport, or `Close` has returned. -/
def ClosingResult.Fatal : ClosingResult → Prop
  | .received (.error _) => True
  | .sent (.error (.transportSend _)) => True
  | .closed _ => True
  | _ => False

/-! ## The sections without the closing -/

/-- The locked section is its body, closed behind a failed `SendMessage`. -/
theorem sendFrameLocked_eq
    (t : FrameType) (metaBytes payload : Bytes) (padLen : ℤ) (env : StreamEnv)
    (s : SecureStream) :
    (sendFrameLocked P t metaBytes payload padLen env s).1 =
        (sendFrameBody P t metaBytes payload padLen env s).1 ∧
      ((sendFrameLocked P t metaBytes payload padLen env s).2 =
          (sendFrameBody P t metaBytes payload padLen env s).2 ∨
        (sendFrameLocked P t metaBytes payload padLen env s).2 =
          (sendFrameBody P t metaBytes payload padLen env s).2.close) := by
  unfold sendFrameLocked sendFrameBody
  dsimp only
  split
  · exact ⟨rfl, Or.inl rfl⟩
  · generalize encodeFrameAppend P [] _ t metaBytes payload _ env.pad = r
    rcases r with e | ⟨wire, send⟩
    · exact ⟨rfl, Or.inl rfl⟩
    · dsimp only
      generalize env.sendMessage wire = answer
      cases answer with
      | some e => exact ⟨rfl, Or.inr rfl⟩
      | none => exact ⟨rfl, Or.inl rfl⟩

theorem SecureStream.growSendBuf_life (s : SecureStream) (total : ℤ) :
    (s.growSendBuf total).closed = s.closed ∧
      (s.growSendBuf total).trCloses = s.trCloses := by
  unfold growSendBuf
  split
  · exact ⟨rfl, rfl⟩
  · exact ⟨rfl, rfl⟩

theorem sendFrameBody_life
    (t : FrameType) (metaBytes payload : Bytes) (padLen : ℤ) (env : StreamEnv)
    (s : SecureStream) :
    (sendFrameBody P t metaBytes payload padLen env s).2.closed = s.closed ∧
      (sendFrameBody P t metaBytes payload padLen env s).2.trCloses =
        s.trCloses := by
  unfold sendFrameBody
  dsimp only
  split
  · exact ⟨rfl, rfl⟩
  · split
    · exact s.growSendBuf_life _
    · split
      · exact s.growSendBuf_life _
      · exact s.growSendBuf_life _

theorem sendFrameBody_ledger
    {f : FrameAEAD} {s : SecureStream} (hledger : Ledger P f s) (t : FrameType)
    (metaBytes payload : Bytes) (padLen : ℤ) (env : StreamEnv) :
    Ledger P f (sendFrameBody P t metaBytes payload padLen env s).2 := by
  have hlocked := sendFrameLocked_ledger hledger t metaBytes payload padLen env
  rcases (sendFrameLocked_eq (P := P) t metaBytes payload padLen env s).2 with
    hsame | hclosed
  · rwa [hsame] at hlocked
  · rw [hclosed] at hlocked
    exact hlocked.of_eq (SecureStream.close_send _).symm
      (SecureStream.close_handed _).symm

/-- A frame is handed over unless it cannot be encoded, and then it is sent or
lost. -/
theorem sendFrameBody_handed
    (t : FrameType) (metaBytes payload : Bytes) (padLen : ℤ) (env : StreamEnv)
    (s : SecureStream) :
    ((sendFrameBody P t metaBytes payload padLen env s).1 ≠ .ok () ∧
        (sendFrameBody P t metaBytes payload padLen env s).2.send = s.send ∧
        (sendFrameBody P t metaBytes payload padLen env s).2.handed = s.handed) ∨
      ∃ wire, (sendFrameBody P t metaBytes payload padLen env s).2.handed =
          s.handed ++ [⟨t, metaBytes, payload, wire⟩] ∧
        ((sendFrameBody P t metaBytes payload padLen env s).1 = .ok () ∨
          ∃ e, (sendFrameBody P t metaBytes payload padLen env s).1 =
            .error (.transportSend e)) := by
  obtain ⟨hsame, hstate⟩ :=
    sendFrameLocked_eq (P := P) t metaBytes payload padLen env s
  have hsender : (sendFrameLocked P t metaBytes payload padLen env s).2.send =
        (sendFrameBody P t metaBytes payload padLen env s).2.send ∧
      (sendFrameLocked P t metaBytes payload padLen env s).2.handed =
        (sendFrameBody P t metaBytes payload padLen env s).2.handed := by
    rcases hstate with hstate | hstate
    · rw [hstate]
      exact ⟨rfl, rfl⟩
    · rw [hstate]
      exact ⟨SecureStream.close_send _, SecureStream.close_handed _⟩
  rw [← hsame, ← hsender.1, ← hsender.2]
  have hstep := sendFrameLocked_step P t metaBytes payload padLen env s
  generalize sendFrameLocked P t metaBytes payload padLen env s = r at hstep ⊢
  cases hstep with
  | kept outcome cap failed =>
      exact Or.inl ⟨SendStep.ne_ok_of_failed failed, rfl, rfl⟩
  | taken cap fr htype hmeta hpayload hsend =>
      subst htype hmeta hpayload
      exact Or.inr ⟨_, rfl, Or.inl rfl⟩
  | refused cap fr htype hmeta hpayload e hsend =>
      subst htype hmeta hpayload
      exact Or.inr ⟨_, SecureStream.close_handed _, Or.inr ⟨e, rfl⟩⟩

theorem recvBody_life (env : StreamEnv) (s : SecureStream) :
    (recvBody P env s).2.closed = s.closed ∧
      (recvBody P env s).2.trCloses = s.trCloses := by
  unfold recvBody
  repeat' split
  all_goals exact ⟨rfl, rfl⟩

theorem recvBody_sender (env : StreamEnv) (s : SecureStream) :
    (recvBody P env s).2.send = s.send ∧
      (recvBody P env s).2.handed = s.handed := by
  unfold recvBody
  repeat' split
  all_goals exact ⟨rfl, rfl⟩

/-! ## Closing once -/

namespace ClosingStream

/-- `closeOnce` and the transport, between any two actions. -/
structure Sound (t : ClosingStream) : Prop where
  idle : t.closeOnce = .idle → t.stream.closed = false ∧ t.stream.trCloses = 0
  closes_le : t.stream.trCloses ≤ 1
  done : t.closeOnce = .done () → t.stream.closed = true ∧ t.stream.trCloses = 1

/-- What the goroutine `me` may rely on: nobody else closes the stream while it is
inside `closeOnce`. -/
structure Relies (me : ℕ) (t t' : ClosingStream) : Prop where
  closed : StaysClosed t.stream t'.stream
  done : t.closeOnce = .done () → t'.closeOnce = .done ()
  own : t.closeOnce = .running me → t'.closeOnce = .running me ∧
    t'.stream.closed = t.stream.closed ∧ t'.stream.trCloses = t.stream.trCloses

/-- An action of `me`. -/
def Moves (me : ℕ) (t t' : ClosingStream) : Prop :=
  ∀ other, other ≠ me → Relies other t t'

/-- An action of `me` that hands nothing over. -/
structure QuietMoves (me : ℕ) (t t' : ClosingStream) : Prop where
  moves : Moves me t t'
  send : t'.stream.send = t.stream.send
  handed : t'.stream.handed = t.stream.handed

/-- `Close` has come to its end. -/
structure Ended (t : ClosingStream) : Prop where
  once : t.closeOnce = .done ()
  closed : t.stream.closed = true

variable {me : ℕ} {t t' : ClosingStream}

theorem Relies.ended (hrelies : Relies me t t') (hended : t.Ended) : t'.Ended :=
  ⟨hrelies.done hended.once, hrelies.closed hended.closed⟩

theorem Relies.refl (me : ℕ) (t : ClosingStream) : Relies me t t :=
  ⟨id, id, fun hown => ⟨hown, rfl, rfl⟩⟩

theorem Relies.trans
    {a b c : ClosingStream} (hab : Relies me a b) (hbc : Relies me b c) :
    Relies me a c where
  closed := hab.closed.trans hbc.closed
  done := fun hdone => hbc.done (hab.done hdone)
  own := by
    intro hown
    obtain ⟨honce, hclosed, hcloses⟩ := hab.own hown
    obtain ⟨honce', hclosed', hcloses'⟩ := hbc.own honce
    exact ⟨honce', hclosed'.trans hclosed, hcloses'.trans hcloses⟩

theorem Moves.closed (hmoves : Moves me t t') : StaysClosed t.stream t'.stream :=
  (hmoves (me + 1) (Nat.succ_ne_self me)).closed

theorem Moves.ended (hmoves : Moves me t t') (hended : t.Ended) : t'.Ended :=
  (hmoves (me + 1) (Nat.succ_ne_self me)).ended hended

/-- An action that has nothing to do with closing. -/
theorem Moves.of_eq
    (honce : t'.closeOnce = t.closeOnce) (hclosed : t'.stream.closed = t.stream.closed)
    (hcloses : t'.stream.trCloses = t.stream.trCloses) : Moves me t t' :=
  fun _ _ => ⟨fun h => hclosed.trans h, fun h => honce.trans h,
    fun h => ⟨honce.trans h, hclosed, hcloses⟩⟩

theorem Sound.of_eq
    (hsound : t.Sound) (honce : t'.closeOnce = t.closeOnce)
    (hclosed : t'.stream.closed = t.stream.closed)
    (hcloses : t'.stream.trCloses = t.stream.trCloses) : t'.Sound := by
  refine ⟨?_, ?_, ?_⟩
  · rw [honce, hclosed, hcloses]
    exact hsound.idle
  · rw [hcloses]
    exact hsound.closes_le
  · rw [honce, hclosed, hcloses]
    exact hsound.done

theorem Sound.of_running
    {owner : ℕ} (honce : t.closeOnce = .running owner)
    (hle : t.stream.trCloses ≤ 1) : t.Sound := by
  refine ⟨fun h => ?_, hle, fun h => ?_⟩
  · rw [honce] at h
    cases h
  · rw [honce] at h
    cases h

/-- An action of the goroutine inside `closeOnce`. -/
theorem Moves.of_owner
    (howner : t.closeOnce = .running me) (hstays : StaysClosed t.stream t'.stream) :
    Moves me t t' := by
  intro other hne
  refine ⟨hstays, fun hdone => ?_, fun hrunning => ?_⟩
  · rw [howner] at hdone
    cases hdone
  · rw [howner] at hrunning
    cases hrunning
    exact absurd rfl hne

end ClosingStream

abbrev ClosingGrants {α : Type} (me : ℕ)
    (G : ClosingStream → ClosingStream → Prop) (Post : α → ClosingStream → Prop)
    (t : ClosingStream) (p : ClosingProc α) : Prop :=
  Proc.GrantsWhen ClosingLabel.ready (ClosingStream.Relies me) (fun _ => G)
    ClosingStream.Sound Post t p

section Closing

open ClosingStream

variable {me : ℕ}

/-- The goroutine inside `closeOnce` finds the stream as it has left it. -/
theorem owner_grants
    {α : Type} {Post : α → ClosingStream → Prop} {t : ClosingStream}
    {label : ClosingLabel} {body : ClosingEnv → ClosingStream → α × ClosingStream}
    (howner : t.closeOnce = .running me)
    (hbody : ∀ env t', t'.closeOnce = .running me →
      t'.stream.closed = t.stream.closed → t'.stream.trCloses = t.stream.trCloses →
      (body env t').2.Sound ∧ QuietMoves me t' (body env t').2 ∧
        Post (body env t').1 (body env t').2) :
    ClosingGrants me (QuietMoves me) Post t (Proc.atomic label body) := by
  refine Proc.GrantsWhen.atomic fun env t' hrelies _ _ => ?_
  obtain ⟨howner', hclosed, hcloses⟩ := hrelies.own howner
  exact hbody env t' howner' hclosed hcloses

/-- `closeOnce` lets one goroutine in, and nobody else comes past it before that
one has left. -/
theorem onceEnter_grants (t : ClosingStream) :
    ClosingGrants me (QuietMoves me)
      (fun first t => if first then t.closeOnce = .running me ∧
        t.stream.trCloses = 0 else t.Ended) t
      (Proc.atomic .onceEnter (fun _ t =>
        if t.closeOnce = .idle then (true, { t with closeOnce := .running me })
        else (false, t))) := by
  refine Proc.GrantsWhen.atomic fun env t' _ hsound hready => ?_
  cases honce : t'.closeOnce with
  | idle =>
      have hcloses := (hsound.idle honce).2
      rw [if_pos rfl]
      refine ⟨.of_running rfl hsound.closes_le, ⟨fun other _ => ?_, rfl, rfl⟩, rfl,
        hcloses⟩
      refine ⟨id, fun hdone => ?_, fun hrunning => ?_⟩
      · rw [honce] at hdone
        cases hdone
      · rw [honce] at hrunning
        cases hrunning
  | running owner => simp [ClosingLabel.ready, honce, OnceState.isRunning] at hready
  | done =>
      rw [if_neg (by simp)]
      exact ⟨hsound, ⟨.of_eq rfl rfl rfl, rfl, rfl⟩, honce, (hsound.done honce).1⟩

/-- Whoever comes back from `Close` finds the stream closed. -/
theorem closeSteps_grants (me : ℕ) (t : ClosingStream) :
    ClosingGrants me (QuietMoves me) (fun _ => Ended) t (closeSteps me) := by
  refine Proc.GrantsWhen.bind (onceEnter_grants t) ?_
  intro first t hfirst
  cases first with
  | false => exact hfirst
  | true =>
      obtain ⟨howner, hcloses⟩ := hfirst
      have hstore : ClosingGrants me (QuietMoves me)
          (fun _ t => t.closeOnce = .running me ∧ t.stream.closed = true ∧
            t.stream.trCloses = 0) t
          (Proc.atomic .storeClosed (fun _ t =>
            ((), t.setStream { t.stream with closed := true }))) := by
        refine owner_grants howner fun env t' howner' _ hsame => ?_
        have hzero : t'.stream.trCloses = 0 := hsame.trans hcloses
        exact ⟨.of_running howner' (hzero.le.trans (Nat.zero_le 1)),
          ⟨.of_owner howner' fun _ => rfl, rfl, rfl⟩, howner', rfl, hzero⟩
      refine Proc.GrantsWhen.bind hstore ?_
      rintro _ t ⟨howner, hclosed, hcloses⟩
      have hclose : ClosingGrants me (QuietMoves me)
          (fun _ t => t.closeOnce = .running me ∧ t.stream.closed = true ∧
            t.stream.trCloses = 1) t
          (Proc.atomic .trClose (fun env t => (env.trClose,
            t.setStream { t.stream with trCloses := t.stream.trCloses + 1 }))) := by
        refine owner_grants howner fun env t' howner' hsame hsame' => ?_
        have hone : t'.stream.trCloses + 1 = 1 := by rw [hsame', hcloses]
        exact ⟨.of_running howner' hone.le, ⟨.of_owner howner' id, rfl, rfl⟩, howner',
          hsame.trans hclosed, hone⟩
      refine Proc.GrantsWhen.bind hclose ?_
      rintro err t ⟨howner, hclosed, hcloses⟩
      have hleave : ClosingGrants me (QuietMoves me) (fun _ => Ended) t
          (Proc.atomic .onceLeave (fun _ t =>
            ((), { t with closeOnce := .done () }))) := by
        refine owner_grants howner fun env t' howner' hsame hsame' => ?_
        have hset := hsame.trans hclosed
        have hone := hsame'.trans hcloses
        exact ⟨⟨nofun, hone.le, fun _ => ⟨hset, hone⟩⟩,
          ⟨.of_owner howner' id, rfl, rfl⟩, rfl, hset⟩
      exact Proc.GrantsWhen.bind hleave fun _ _ hended => hended

end Closing

/-- A send that has failed in the transport has seen the stream closed. -/
def LostAndClosed (outcome : Outcome EwpError Unit) (t : ClosingStream) : Prop :=
  (∃ e, outcome = .error (.transportSend e)) → t.Ended

theorem closeIfLost_grants
    (me : ℕ) (outcome : Outcome EwpError Unit) (t : ClosingStream) :
    ClosingGrants me (ClosingStream.QuietMoves me)
      (fun _ t => LostAndClosed outcome t) t (closeIfLost me outcome) := by
  unfold closeIfLost
  split
  · exact Proc.GrantsWhen.bind (closeSteps_grants me t) fun _ _ hdone _ => hdone
  · rename_i hnot
    rintro ⟨e, rfl⟩
    exact absurd rfl (hnot e)

/-! ## Whole calls -/

section Calls

open ClosingStream

variable {me : ℕ}

/-- An action that has nothing to do with closing and hands nothing over. -/
theorem quiet_grants
    {α : Type} {Post : α → ClosingStream → Prop} {t : ClosingStream}
    {label : ClosingLabel} {body : ClosingEnv → ClosingStream → α × ClosingStream}
    (honce : ∀ env t, (body env t).2.closeOnce = t.closeOnce)
    (hlife : ∀ env t, (body env t).2.stream.closed = t.stream.closed ∧
      (body env t).2.stream.trCloses = t.stream.trCloses)
    (hsender : ∀ env t, (body env t).2.stream.send = t.stream.send ∧
      (body env t).2.stream.handed = t.stream.handed)
    (hpost : ∀ env t, Post (body env t).1 (body env t).2) :
    ClosingGrants me (QuietMoves me) Post t (Proc.atomic label body) := by
  refine Proc.GrantsWhen.atomic fun env t _ hsound _ => ?_
  obtain ⟨hclosed, hcloses⟩ := hlife env t
  obtain ⟨hsend, hhanded⟩ := hsender env t
  exact ⟨hsound.of_eq (honce env t) hclosed hcloses,
    ⟨.of_eq (honce env t) hclosed hcloses, hsend, hhanded⟩, hpost env t⟩

theorem closedTest_grants (t : ClosingStream) :
    ClosingGrants me (QuietMoves me) (fun closed t => t.stream.closed = closed) t
      (Proc.observe .closedTest (fun t => t.stream.closed)) :=
  quiet_grants (fun _ _ => rfl) (fun _ _ => ⟨rfl, rfl⟩) (fun _ _ => ⟨rfl, rfl⟩)
    fun _ _ => rfl

/-- `Lock` and `Unlock`. -/
theorem writeMu_grants (label : ClosingLabel) (mu : Option ℕ) (t : ClosingStream) :
    ClosingGrants me (QuietMoves me) (fun _ _ => True) t
      (Proc.atomic label (fun _ t => ((), { t with writeMu := mu }))) :=
  quiet_grants (fun _ _ => rfl) (fun _ _ => ⟨rfl, rfl⟩) (fun _ _ => ⟨rfl, rfl⟩)
    fun _ _ => trivial

theorem sendFrameSteps_grants
    (t : FrameType) (metaBytes payload : Bytes) (padLen : ℤ) (u : ClosingStream) :
    ClosingGrants me (Moves me) LostAndClosed u
      (sendFrameSteps P me t metaBytes payload padLen) := by
  have hquiet : ∀ {α : Type} {Post : α → ClosingStream → Prop} {u : ClosingStream}
      {p : ClosingProc α}, ClosingGrants me (QuietMoves me) Post u p →
      ClosingGrants me (Moves me) Post u p :=
    fun hgrants => hgrants.mono QuietMoves.moves fun _ _ => id
  refine Proc.GrantsWhen.bind (hquiet (closedTest_grants u)) ?_
  intro closed u _
  split
  · rintro ⟨e, he⟩
    cases he
  refine Proc.GrantsWhen.bind (hquiet (writeMu_grants .lockWrite (some me) u)) ?_
  intro _ u _
  have hbody : ClosingGrants me (Moves me) (fun _ _ => True) u
      (Proc.atomic .sendBody (fun env u =>
        ((sendFrameBody P t metaBytes payload padLen env.stream u.stream).1,
          u.setStream
            (sendFrameBody P t metaBytes payload padLen env.stream u.stream).2))) := by
    refine Proc.GrantsWhen.atomic fun env u _ hsound _ => ?_
    obtain ⟨hclosed, hcloses⟩ :=
      sendFrameBody_life (P := P) t metaBytes payload padLen env.stream u.stream
    exact ⟨hsound.of_eq rfl hclosed hcloses, .of_eq rfl hclosed hcloses, trivial⟩
  refine Proc.GrantsWhen.bind hbody ?_
  intro outcome u _
  refine Proc.GrantsWhen.bind (hquiet (closeIfLost_grants me outcome u)) ?_
  intro _ u hlost
  have hunlock : ClosingGrants me (Moves me) (fun _ u => True ∧ LostAndClosed outcome u)
      u (Proc.atomic .unlockWrite (fun _ t => ((), { t with writeMu := none }))) :=
    (hquiet (writeMu_grants .unlockWrite none u)).frame
      (fun hrelies h hgone => hrelies.ended (h hgone))
      (fun hmoves h hgone => Moves.ended hmoves (h hgone)) hlost
  exact Proc.GrantsWhen.bind hunlock fun _ _ hboth => hboth.2

theorem recvSteps_grants (t : ClosingStream) :
    ClosingGrants me (QuietMoves me)
      (fun result t => result.Fatal → t.Ended) t (recvSteps P me) := by
  refine Proc.GrantsWhen.bind (closedTest_grants t) ?_
  intro closed t _
  split
  · exact False.elim
  have hbody : ClosingGrants me (QuietMoves me) (fun _ _ => True) t
      (Proc.atomic .recvBody (fun env t => ((recvBody P env.stream t.stream).1,
        t.setStream (recvBody P env.stream t.stream).2))) :=
    quiet_grants (fun _ _ => rfl) (fun env t => recvBody_life env.stream t.stream)
      (fun env t => recvBody_sender env.stream t.stream) fun _ _ => trivial
  refine Proc.GrantsWhen.bind hbody ?_
  intro result t _
  split
  · exact False.elim
  · exact Proc.GrantsWhen.bind (closeSteps_grants me t) fun _ _ hended _ => hended

theorem drawSteps_grants (len : ℕ) (t : ClosingStream) :
    ClosingGrants me (QuietMoves me) (fun _ _ => True) t (drawSteps len) :=
  quiet_grants (fun _ _ => rfl) (fun _ _ => ⟨rfl, rfl⟩) (fun _ _ => ⟨rfl, rfl⟩)
    fun _ _ => trivial

theorem StreamCall.steps_grants (call : StreamCall) (t : ClosingStream) :
    ClosingGrants me (Moves me)
      (fun result t => result.Fatal → t.Ended) t (call.steps P me) := by
  cases call with
  | send call =>
      refine Proc.GrantsWhen.bind
        (call.over_grants (sendFrameSteps_grants (P := P))
          (fun len t => (drawSteps_grants len t).mono QuietMoves.moves fun _ _ => id)
          (fun _ => nofun) (fun _ => nofun) t) ?_
      intro outcome t hlost hfatal
      rcases outcome with _ | e | _
      · exact hfatal.elim
      · cases e with
        | transportSend e => exact hlost ⟨e, rfl⟩
        | _ => exact hfatal.elim
      · exact hfatal.elim
  | recv => exact (recvSteps_grants t).mono QuietMoves.moves fun _ _ => id
  | close =>
      refine Proc.GrantsWhen.bind
        ((closeSteps_grants me t).mono QuietMoves.moves fun _ _ => id) ?_
      exact fun _ _ hdone _ => hdone

end Calls

theorem closingPool_thread
    {s : SecureStream} {calls : List StreamCall} {me : ℕ}
    {p : ClosingProc ClosingResult}
    (hp : (closingPool P s calls).threads[me]? = some p) :
    ∃ call, calls[me]? = some call ∧ p = call.steps P me := by
  simp only [closingPool, List.getElem?_mapIdx, Option.map_eq_some_iff] at hp
  obtain ⟨call, hcall, rfl⟩ := hp
  exact ⟨call, hcall, rfl⟩

theorem closingPool_run
    {s : SecureStream} (hopen : s.closed = false) (hcloses : s.trCloses = 0)
    (calls : List StreamCall) (schedule : List (ℕ × ClosingEnv)) :
    ((closingPool P s calls).runWhen ClosingLabel.ready schedule).shared.Sound ∧
      ∀ (i : ℕ) (result : ClosingResult),
        ((closingPool P s calls).runWhen ClosingLabel.ready
          schedule).threads[i]?.bind Proc.result? = some result →
        result.Fatal →
        ((closingPool P s calls).runWhen ClosingLabel.ready
          schedule).shared.Ended := by
  have hinit : (closingPool P s calls).shared.Sound :=
    ⟨fun _ => ⟨hopen, hcloses⟩, hcloses.le.trans (Nat.zero_le 1), nofun⟩
  have hstart : ∀ me p, (closingPool P s calls).threads[me]? = some p →
      ClosingGrants me (ClosingStream.Moves me) (fun result t => result.Fatal → t.Ended)
        (closingPool P s calls).shared p := by
    intro me p hp
    obtain ⟨call, -, rfl⟩ := closingPool_thread hp
    exact call.steps_grants _
  have hstable : ∀ (me : ℕ) (result : ClosingResult) {t t' : ClosingStream},
      ClosingStream.Relies me t t' → (result.Fatal → t.Ended) →
      result.Fatal → t'.Ended :=
    fun _ _ _ _ hrelies hpost hfatal => hrelies.ended (hpost hfatal)
  obtain ⟨hsound, hthreads⟩ := Pool.runWhen_relies schedule
    ClosingStream.Relies.refl (fun _ => ClosingStream.Relies.trans)
    (fun mover thread _ _ _ hne hmoves => hmoves thread hne.symm) hstable hstart hinit
  exact ⟨hsound, fun i result hresult =>
    hthreads i _ (Pool.finished_of_result? hresult)⟩

/-! ## Calls on a closed stream -/

/-- A method that carries an address encodes it before it tests `closed`. -/
def addressRefusal (target : Address) : EwpError :=
  if maxDomainLen < target.domain.length then .domainLen else .io .closedPipe

/-- The error of a method that is called on a closed stream. -/
def SendCall.refusal : SendCall → EwpError
  | .udpNew _ target _ => addressRefusal target
  | .udpData _ target _ => addressRefusal target
  | .probeResp _ observed => addressRefusal observed
  | _ => .io .closedPipe

def StreamCall.refusal : StreamCall → ClosingResult
  | .send call => .sent (.error call.refusal)
  | .recv => .refused (.io .closedPipe)
  | .close => .closed none

/-- The stream is over for a call that begins now: the flag is set, and for another
`Close` the first one has come to its end. -/
def StreamCall.Over (call : StreamCall) (t : ClosingStream) : Prop :=
  match call with
  | .close => t.closeOnce = .done ()
  | _ => t.stream.closed = true

/-- The actions of a call on a stream that is over: none of them uses a context or
the transport. -/
def StreamCall.Quiet (call : StreamCall) (label : ClosingLabel) : Prop :=
  match call with
  | .close => label = .onceEnter
  | _ => label = .closedTest ∨ label = .chunkDraw

section Refuses

variable {ℓ ε σ : Type} {Q : σ → Prop} {quiet : ℓ → Prop}
variable {send : FrameType → Bytes → Bytes → ℤ → Proc ℓ ε σ (Outcome EwpError Unit)}
variable {draw : ℕ → Proc ℓ ε σ ℕ}

/-- A method whose `sendFrame` declines, declines. -/
theorem SendCall.over_refuses
    (hsend : ∀ t metaBytes payload padLen, Proc.Declines Q quiet
      (.error (.io .closedPipe)) 1 (send t metaBytes payload padLen))
    (hdraw : ∀ len {α : Type} {result : α} {rest : ℕ → Proc ℓ ε σ α},
      (∀ chunk, Proc.Declines Q quiet result 1 (rest chunk)) →
        Proc.Declines Q quiet result 2 ((draw len).bind rest))
    (call : SendCall) :
    Proc.Declines Q quiet (.error call.refusal) 2 (call.over send draw) := by
  have hframe : ∀ t metaBytes payload padLen, Proc.Declines Q quiet
      (.error (.io .closedPipe)) 2 (send t metaBytes payload padLen) :=
    fun _ _ _ _ => (hsend _ _ _ _).mono (by decide)
  have haddressed : ∀ t globalID target payload, Proc.Declines Q quiet
      (.error (addressRefusal target)) 2
        (sendAddressedOver send t globalID target payload) := by
    intro t globalID target payload
    unfold sendAddressedOver addressRefusal
    cases hmeta : buildUDPMeta globalID target with
    | error e =>
        obtain ⟨rfl, hlong⟩ := (buildUDPMeta_error_iff globalID target e).mp hmeta
        rw [if_pos hlong]
        exact Proc.declines_ret.mpr rfl
    | ok metaBytes =>
        have hshort : ¬maxDomainLen < target.domain.length := by
          intro hlong
          have herror :=
            (buildUDPMeta_error_iff globalID target .domainLen).mpr ⟨rfl, hlong⟩
          rw [hmeta] at herror
          cases herror
        rw [if_neg hshort]
        exact hframe _ _ _ _
  cases call with
  | tcpData payload =>
      change Proc.Declines Q quiet _ 2 (sendTCPDataOver send draw payload)
      unfold sendTCPDataOver
      split
      · exact hframe _ _ _ _
      · rename_i hlong
        cases payload with
        | nil => simp at hlong
        | cons b rest =>
            rw [List.length_cons, sendChunksOver, if_neg (List.cons_ne_nil b rest)]
            refine hdraw _ fun chunk => ?_
            -- the piece is refused, and the loop passes the error on
            exact (hsend _ _ _ _).bind rfl
  | udpNew globalID target initial => exact haddressed _ _ _ _
  | udpData globalID target payload => exact haddressed _ _ _ _
  | probeResp globalID observed => exact haddressed _ _ _ _
  | _ => exact hframe _ _ _ _

end Refuses

theorem StreamCall.steps_refuses (me : ℕ) (call : StreamCall) :
    Proc.Declines call.Over call.Quiet call.refusal 2 (call.steps P me) := by
  cases call with
  | send call =>
      refine (call.over_refuses ?_ ?_).bind rfl
      · intro t metaBytes payload padLen
        refine ⟨Or.inl rfl, fun env u hclosed => ⟨rfl, ?_⟩⟩
        have hset : u.stream.closed = true := hclosed
        simp [Proc.bind, hset]
      · exact fun len _ _ _ hrest => ⟨Or.inr rfl, fun env u _ => ⟨rfl, hrest _⟩⟩
  | recv =>
      refine ⟨Or.inl rfl, fun env t hclosed => ⟨rfl, ?_⟩⟩
      have hset : t.stream.closed = true := hclosed
      simp [Proc.bind, hset, StreamCall.refusal]
  | close =>
      refine ⟨rfl, fun env t hdone => ?_⟩
      have hset : t.closeOnce = .done () := hdone
      simp [Proc.bind, hset, StreamCall.refusal]

theorem StreamCall.Quiet.ready
    {call : StreamCall} {label : ClosingLabel} {t : ClosingStream}
    (hquiet : call.Quiet label) (hover : call.Over t) : label.ready t = true := by
  cases call with
  | close =>
      have hdone : t.closeOnce = .done () := hover
      obtain rfl : label = .onceEnter := hquiet
      simp [ClosingLabel.ready, hdone, OnceState.isRunning]
  | _ =>
      obtain rfl | rfl : label = .closedTest ∨ label = .chunkDraw := hquiet
      · rfl
      · rfl

/-! ## The end of a stream -/

/-- An action that undoes no closing. -/
def ClosingAction (_ : ClosingLabel)
    (update : ClosingEnv → ClosingStream → ClosingStream) : Prop :=
  ∀ env t, StaysClosed t.stream (update env t).stream ∧
    (t.closeOnce = .done () → (update env t).closeOnce = .done ())

theorem closeSteps_acts (me : ℕ) :
    Proc.Acts ClosingAction (closeSteps me) := by
  refine Proc.Acts.bind (.atomic fun env t => ?_) fun first => ?_
  · dsimp only
    split
    · rename_i hidle
      exact ⟨id, fun hdone => absurd (hidle.symm.trans hdone) (by simp)⟩
    · exact ⟨id, id⟩
  · split
    · refine Proc.Acts.bind (.atomic fun _ _ => ⟨fun _ => rfl, id⟩) fun _ => ?_
      refine Proc.Acts.bind (.atomic fun _ _ => ⟨id, id⟩) fun _ => ?_
      exact Proc.Acts.bind (.atomic fun _ _ => ⟨id, fun _ => rfl⟩) fun _ => trivial
    · trivial

theorem sendFrameSteps_acts
    (me : ℕ) (t : FrameType) (metaBytes payload : Bytes) (padLen : ℤ) :
    Proc.Acts ClosingAction (sendFrameSteps P me t metaBytes payload padLen) := by
  refine Proc.Acts.bind (.atomic fun _ _ => ⟨id, id⟩) fun closed => ?_
  split
  · trivial
  · refine Proc.Acts.bind (.atomic fun _ _ => ⟨id, id⟩) fun _ => ?_
    refine Proc.Acts.bind (.atomic fun env u => ⟨fun hclosed => ?_, id⟩)
      fun outcome => ?_
    · exact (sendFrameBody_life t metaBytes payload padLen env.stream
        u.stream).1.trans hclosed
    · refine Proc.Acts.bind ?_ fun _ =>
        Proc.Acts.bind (.atomic fun _ _ => ⟨id, id⟩) fun _ => trivial
      unfold closeIfLost
      split
      · exact Proc.Acts.bind (closeSteps_acts me) fun _ => trivial
      · trivial

theorem drawSteps_action (len : ℕ) :
    ClosingAction .chunkDraw (fun env t => (nextChunk len env.stream.chunk, t).2) :=
  fun _ _ => ⟨id, id⟩

theorem StreamCall.steps_acts (me : ℕ) (call : StreamCall) :
    Proc.Acts ClosingAction (call.steps P me) := by
  cases call with
  | send call =>
      exact Proc.Acts.bind (call.over_acts (sendFrameSteps_acts me)
        (fun len => Proc.Acts.atomic (drawSteps_action len))) fun _ => trivial
  | recv =>
      refine Proc.Acts.bind (.atomic fun _ _ => ⟨id, id⟩) fun closed => ?_
      split
      · trivial
      · refine Proc.Acts.bind (.atomic fun env t => ⟨fun hclosed => ?_, id⟩)
          fun result => ?_
        · exact (recvBody_life env.stream t.stream).1.trans hclosed
        · split
          · trivial
          · exact Proc.Acts.bind (closeSteps_acts me) fun _ => trivial
  | close => exact Proc.Acts.bind (closeSteps_acts me) fun _ => trivial

/-- How a stream ends for its callers: what holds in the pool that a schedule
of the calls has led to. -/
structure Terminal (P : Primitives) (calls : List StreamCall)
    (schedule : List (ℕ × ClosingEnv))
    (pool : Pool ClosingLabel ClosingEnv ClosingStream ClosingResult) : Prop where
  once : pool.shared.stream.trCloses ≤ 1
  /-- The transport has been closed before a fatal result is returned. -/
  fatal : ∀ (i : ℕ) (result : ClosingResult),
    pool.threads[i]?.bind Proc.result? = some result → result.Fatal →
      pool.shared.Ended
  done : pool.shared.closeOnce = .done () →
    pool.shared.stream.closed = true ∧ pool.shared.stream.trCloses = 1
  stays : ∀ (call : StreamCall) rest, call.Over pool.shared →
    call.Over (pool.runWhen ClosingLabel.ready rest).shared
  /-- Call `j` begins when the stream is over for it. -/
  later : ∀ (j : ℕ) (call : StreamCall), call.Over pool.shared →
    calls[j]? = some call → (∀ turn ∈ schedule, turn.1 ≠ j) → ∀ rest,
      pool.Moves (fun mover label t t' => mover = j → call.Quiet label ∧ t' = t)
        (pool.granted ClosingLabel.ready rest) ∧
      (2 ≤ Pool.turns j rest →
        (pool.runWhen ClosingLabel.ready rest).threads[j]?.bind Proc.result? =
          some call.refusal)

theorem ClosingAction.over
    {label : ClosingLabel} {update : ClosingEnv → ClosingStream → ClosingStream}
    (haction : ClosingAction label update) (call : StreamCall) (env : ClosingEnv)
    (t : ClosingStream) (hover : call.Over t) : call.Over (update env t) := by
  cases call with
  | close => exact (haction env t).2 hover
  | _ => exact (haction env t).1 hover

theorem closingPool_acts
    (s : SecureStream) (calls : List StreamCall)
    (schedule : List (ℕ × ClosingEnv)) :
    ∀ p ∈ ((closingPool P s calls).runWhen ClosingLabel.ready schedule).threads,
      Proc.Acts ClosingAction p := by
  apply Pool.run_acts
  intro p hp
  obtain ⟨me, hme⟩ := List.mem_iff_getElem?.mp hp
  obtain ⟨call, -, rfl⟩ := closingPool_thread hme
  exact call.steps_acts me

/-- A failed `Recv`, a send that failed in the transport and a `Close` end the
stream for every call that begins afterwards. -/
theorem failures_end_stream
    (P : Primitives) (keys : SessionKeys) (side : Side)
    (calls : List StreamCall) (schedule : List (ℕ × ClosingEnv)) :
    Terminal P calls schedule
      ((closingPool P (newSecureStream keys side) calls).runWhen
        ClosingLabel.ready schedule) := by
  obtain ⟨hsound, hfatal⟩ := @closingPool_run P (newSecureStream keys side)
    (by cases side <;> rfl) (by cases side <;> rfl) calls schedule
  have hacts := closingPool_acts (P := P) (newSecureStream keys side) calls schedule
  refine ⟨hsound.closes_le, hfatal, hsound.done, ?_, ?_⟩
  · intro call rest hover
    exact Pool.run_invariant hacts
      (fun _ _ haction env t ht _ => haction.over call env t ht)
      (Pool.admits_of_forall (fun _ _ _ => trivial) _ _) hover
  · intro j call hover hcall hidle rest
    have hthread :
        ((closingPool P (newSecureStream keys side) calls).runWhen
          ClosingLabel.ready schedule).threads[j]? = some (call.steps P j) := by
      rw [Pool.runWhen, Pool.run_idle (Pool.granted_idle hidle)]
      simp [closingPool, hcall]
    obtain ⟨hmoves, hreturns⟩ := Pool.runWhen_declines hacts
      (fun _ _ haction env t => haction.over call env t)
      (fun _ _ hquiet ht => hquiet.ready ht) hover hthread (call.steps_refuses j)
    refine ⟨hmoves, fun hturns => ?_⟩
    rw [hreturns hturns]
    rfl

/-- The environment in which the transport's `Close` succeeds. -/
def Transparent.closingEnv (read : Except EwpError Bytes) : ClosingEnv where
  stream := Transparent.streamEnv read
  trClose := none

/-- A `Recv` fails at the end of its input and closes the transport; a send that
begins then is refused. -/
theorem failures_end_stream_recv :
    let env := Transparent.closingEnv (.error (.io .eof))
    let pool := (closingPool Transparent.suite
      (newSecureStream Transparent.keys .client)
      [.recv, .send (.ping [7])]).runWhen ClosingLabel.ready
        (List.replicate 6 (0, env))
    pool.threads[0]?.bind Proc.result? = some (.received (.error (.io .eof))) ∧
      pool.shared.stream.closed = true ∧ pool.shared.stream.trCloses = 1 ∧
      (pool.runWhen ClosingLabel.ready [(1, env), (1, env)]).threads[1]?.bind
        Proc.result? = some (.sent (.error (.io .closedPipe))) := by
  have hterminal := failures_end_stream Transparent.suite Transparent.keys
    .client [.recv, .send (.ping [7])]
    (List.replicate 6 (0, Transparent.closingEnv (.error (.io .eof))))
  have hdone := (hterminal.fatal 0 (.received (.error (.io .eof))) rfl trivial).once
  refine ⟨rfl, (hterminal.done hdone).1, (hterminal.done hdone).2, ?_⟩
  exact (hterminal.later 1 (.send (.ping [7])) (hterminal.done hdone).1 rfl
    (by decide) [(1, _), (1, _)]).2 (by decide)

/-- A name of 254 bytes, the shortest that no method accepts. -/
def longName : Address where
  domain := List.replicate (maxDomainLen + 1) 97
  port := 80

/-- The address is encoded before `closed` is tested: a send that begins on a
closed stream may return another error. -/
theorem closed_stream_domainLen :
    let env := Transparent.closingEnv (.error (.io .eof))
    let pool := (closingPool Transparent.suite
      (newSecureStream Transparent.keys .client)
      [.close, .send (.udpNew (FixedBytes.copyFrom 8 [1]) longName [])]).runWhen
        ClosingLabel.ready (List.replicate 4 (0, env))
    pool.threads[0]?.bind Proc.result? = some (.closed none) ∧
      pool.shared.stream.closed = true ∧ pool.shared.stream.trCloses = 1 ∧
      (pool.runWhen ClosingLabel.ready [(1, env)]).threads[1]?.bind Proc.result? =
        some (.sent (.error .domainLen)) := by
  intro env pool
  have hmeta : buildUDPMeta (FixedBytes.copyFrom 8 [1]) longName =
      .error .domainLen := by
    rw [buildUDPMeta_error_iff]
    exact ⟨rfl, by rw [longName, List.length_replicate]; decide⟩
  have hsend : StreamCall.steps Transparent.suite 1
      (.send (.udpNew (FixedBytes.copyFrom 8 [1]) longName [])) =
        .ret (.sent (.error .domainLen)) := by
    simp [StreamCall.steps, SendCall.steps, SendCall.over, sendAddressedOver, hmeta,
      Proc.bind]
  have hidle : pool.threads[1]? = some (.ret (.sent (.error .domainLen))) := by
    simp only [pool, Pool.runWhen]
    rw [Pool.run_idle (Pool.granted_idle (by simp))]
    simp [closingPool, hsend]
  refine ⟨rfl, rfl, rfl, ?_⟩
  simp [Pool.runWhen, Pool.granted, Pool.waits, Pool.step, hidle, Proc.result?]

end SingEwp
