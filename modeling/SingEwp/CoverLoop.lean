import SingEwp.CoverTraffic
import SingEwp.StreamTermination
import SingEwp.ThreadRules

/-!
# The cover-traffic goroutine

`StartCoverTraffic` and `coverLoop` of `securestream.go`, among any number of
callers of the stream's methods.  The state has a clock, which any action may
find advanced, and two ghost logs: the frames handed over, with the thread and
the time, and the passes that the loop has completed.  A frame that the loop sends
records the idle test it is owed to.  `Close` closes the stop channel in the same
action in which it closes the stream; a second closing of the channel would panic
and is counted.  The goroutine is the thread of the `StartCoverTraffic` call that
won the `CompareAndSwap`; `running` is the result of a loop that has used up its
fuel.
-/

namespace SingEwp

/-! ## State -/

/-- `CoverConfig`. -/
structure CoverPlan (A : FloatArith) extends CoverConfig A where
  /-- A `time.Duration`, in nanoseconds. -/
  idleAfter : ℤ

/-- The channel `coverStop`, nil until it is made. -/
inductive StopChan where
  | unmade
  | made
  | closed
  deriving DecidableEq

/-- The test of a pass of `coverLoop`: how many frames had been handed over when
it loaded `lastSendNs`, and the clock that `time.Since` read. -/
structure IdleTest where
  before : ℕ
  now : ℤ

structure TimedFrame where
  thread : ℕ
  time : ℤ
  frame : SentFrame
  taken : Bool
  cause : Option IdleTest

/-- An application frame that the transport took. -/
def TimedFrame.Application (e : TimedFrame) : Prop :=
  e.taken = true ∧ e.frame.type ≠ framePaddingOnly

/-- A completed pass of `coverLoop`; `failed` if it called `SendCoverPad` and got
an error. -/
structure CoverPass where
  thread : ℕ
  now : ℤ
  failed : Bool

structure CoverStream where
  stream : SecureStream
  clock : ℤ
  coverStarted : Bool := false
  coverStop : StopChan := .unmade
  /-- How often a channel was made, and how often a closed one was closed. -/
  makes : ℕ := 0
  stopPanics : ℕ := 0
  /-- The call that won the `CompareAndSwap`. -/
  owner : Option ℕ := none
  frames : List TimedFrame := []
  passes : List CoverPass := []

def newCoverStream (keys : SessionKeys) (side : Side) (clock : ℤ) :
    CoverStream where
  stream := newSecureStream keys side
  clock := clock

/-- What one action obtains from outside: the time since the last action, which
of two ready cases `select` takes, the draw of `nextDelay`, and what the methods
of the stream obtain. -/
structure CoverEnv where
  elapsed : ℕ
  preferStop : Bool
  jitter : RandRead
  stream : StreamEnv

/-- The environment of a method of the stream, whose clock is the given one. -/
def CoverEnv.streamAt (env : CoverEnv) (clock : ℤ) : StreamEnv :=
  { env.stream with nowNs := clock }

inductive CoverLabel where
  | swap
  | makeStop
  | setTimer
  | select
  | closedTest
  | loadLast
  | since
  | stream (label : StreamLabel)
  deriving DecidableEq

abbrev CoverProc (α : Type) := Proc CoverLabel CoverEnv CoverStream α

namespace CoverStream

def tick (s : CoverStream) (elapsed : ℕ) : CoverStream :=
  { s with clock := s.clock + elapsed }

/-- The state after an action of `thread` has left the stream as `stream`.  The
action that closes the stream closes the stop channel, unless it is nil; closing
it again would panic. -/
def absorb (thread : ℕ) (cause : Option IdleTest) (env : CoverEnv)
    (stream : SecureStream) (s : CoverStream) : CoverStream :=
  let s := s.tick env.elapsed
  let fresh := stream.handed.drop s.stream.handed.length
  let taken := decide (stream.frmOut ≠ s.stream.frmOut)
  let closing := stream.closed && !s.stream.closed
  { s with
    stream := stream
    coverStop :=
      if closing ∧ s.coverStop = .made then .closed else s.coverStop
    stopPanics :=
      if closing ∧ s.coverStop = .closed then s.stopPanics + 1 else s.stopPanics
    frames := s.frames ++
      fresh.map (fun frame => ⟨thread, s.clock, frame, taken, cause⟩) }

/-- The `select` of `coverLoop`: `true` for the stop channel.  The timer case is
ready from the deadline on, and if both are ready either may be taken. -/
def select (deadline : ℤ) (env : CoverEnv) (s : CoverStream) :
    Bool × CoverStream :=
  let s := s.tick env.elapsed
  if s.coverStop = .closed ∧ (env.preferStop = true ∨ s.clock < deadline) then
    (true, s)
  else (false, { s with clock := max s.clock deadline })

def framesOf (s : CoverStream) (thread : ℕ) : List TimedFrame :=
  s.frames.filter (fun e => e.thread = thread)

end CoverStream

/-! ## The goroutine -/

/-- A method of the stream, called by a thread; its clock is the state's. -/
def onCover {α : Type} (thread : ℕ) (cause : Option IdleTest)
    (p : StreamProc α) : CoverProc α :=
  p.embed CoverLabel.stream
    (fun env s => env.streamAt (s.tick env.elapsed).clock) CoverStream.stream
    (CoverStream.absorb thread cause)

inductive CoverExit where
  | declined
  | alreadyStarted
  | stopped
  | running
  deriving DecidableEq

section Goroutine

variable {A : FloatArith} (P : Primitives) (thread : ℕ) (cfg : CoverPlan A)

/-- `time.NewTimer(nextDelay())`, or `t.Reset(nextDelay())` at the end of a pass:
the deadline. -/
def setTimer (pass : Option CoverPass) : CoverProc ℤ :=
  Proc.atomic .setTimer (fun env s =>
    let s := s.tick env.elapsed
    (s.clock + cfg.nextDelay env.jitter,
      { s with passes := s.passes ++ pass.toList }))

/-- `SendCoverPad(-1)` if the stream is idle; whether it was called and failed. -/
def coverFrame (last : ℤ) (test : IdleTest) : CoverProc Bool :=
  if cfg.idleAfter ≤ test.now - last then do
    let outcome ← onCover thread (some test) (sendCoverPad P (-1))
    pure (outcome != .ok ())
  else pure false

/-- The rest of a pass that has found the stream open, and what follows it. -/
def coverPass (next : ℤ → CoverProc CoverExit) : CoverProc CoverExit := do
  let (last, before) ← Proc.atomic .loadLast (fun env s =>
    ((s.stream.lastSendNs, s.frames.length), s.tick env.elapsed))
  let now ← Proc.atomic .since (fun env s =>
    ((s.tick env.elapsed).clock, s.tick env.elapsed))
  let failed ← coverFrame P thread cfg last ⟨before, now⟩
  let deadline ← setTimer cfg (some ⟨thread, now, failed⟩)
  next deadline

/-- The loop of `coverLoop`. -/
def coverPasses : ℕ → ℤ → CoverProc CoverExit
  | 0, _ => pure .running
  | fuel + 1, deadline => do
      let stop ← Proc.atomic .select (CoverStream.select deadline)
      if stop then pure .stopped
      else do
        let closed ← Proc.atomic .closedTest (fun env s =>
          (s.stream.closed, s.tick env.elapsed))
        if closed then pure .stopped
        else coverPass P thread cfg (coverPasses fuel)

def coverLoop (fuel : ℕ) : CoverProc CoverExit := do
  let deadline ← setTimer cfg none
  coverPasses P thread cfg fuel deadline

/-- `StartCoverTraffic`, and the goroutine it starts. -/
def startCoverTraffic (fuel : ℕ) : CoverProc CoverExit :=
  if cfg.interval ≤ 0 ∨ cfg.idleAfter ≤ 0 then pure .declined
  else do
    let won ← Proc.atomic .swap (fun env s =>
      if s.coverStarted then (false, s.tick env.elapsed)
      else
        (true,
          { s.tick env.elapsed with coverStarted := true, owner := some thread }))
    if won then do
      Proc.atomic .makeStop (fun env s =>
        ((), { s.tick env.elapsed with coverStop := .made, makes := s.makes + 1 }))
      coverLoop P thread cfg fuel
    else pure .alreadyStarted

end Goroutine

inductive CoveredCall (A : FloatArith) where
  | start (cfg : CoverPlan A)
  | method (call : StreamCall)

inductive CoveredResult where
  | cover (exit : CoverExit)
  | method (result : StreamResult)

def CoveredCall.proc {A : FloatArith} (P : Primitives) (fuel thread : ℕ) :
    CoveredCall A → CoverProc CoveredResult
  | .start cfg => do
      let exit ← startCoverTraffic P thread cfg fuel
      pure (.cover exit)
  | .method call => do
      let result ← onCover thread none (call.proc P)
      pure (.method result)

def coverPool {A : FloatArith} (P : Primitives) (fuel : ℕ) (s : CoverStream)
    (calls : List (CoveredCall A)) :
    Pool CoverLabel CoverEnv CoverStream CoveredResult where
  shared := s
  threads := calls.mapIdx (fun thread call => call.proc P fuel thread)

theorem absorb_stream
    (thread : ℕ) (cause : Option IdleTest) (env : CoverEnv) (s : CoverStream) :
    s.absorb thread cause env s.stream = s.tick env.elapsed := by
  simp [CoverStream.absorb, CoverStream.tick]

/-- `SendCoverPad` with its two actions written out. -/
theorem onCover_sendCoverPad
    (P : Primitives) (thread : ℕ) (cause : Option IdleTest) (padLen : ℤ) :
    onCover thread cause (sendCoverPad P padLen) =
      (Proc.atomic (.stream .closedTest) (fun env s =>
        (s.stream.closed, s.absorb thread cause env s.stream))).bind
        (fun closed =>
          if closed then .ret (.error (.io .closedPipe))
          else onCover thread cause (Proc.atomic .sendLocked
            (sendFrameLocked P framePaddingOnly [] [] padLen))) := by
  rw [onCover, sendCoverPad, sendFrame, Proc.bind_eq, Proc.embed_bind,
    Proc.observe, Proc.embed_atomic]
  congr 1
  funext closed
  cases closed <;> rfl

/-! ## What one action of the stream does -/

/-- An action at the time `now`: at most one frame is handed over, a closed stream
stays closed, and `lastSendNs` moves on with an application frame that the
transport took. -/
structure SendsAt (now : ℤ) (s s' : SecureStream) : Prop where
  stays : StaysClosed s s'
  handed : ∃ new, s'.handed = s.handed ++ new ∧ new.length ≤ 1
  last : s'.lastSendNs = s.lastSendNs ∨
    s'.lastSendNs = now ∧ s'.frmOut ≠ s.frmOut ∧ s'.handed ≠ s.handed
  counts : s'.frmOut ≠ s.frmOut → ∀ e ∈ s'.handed.drop s.handed.length,
    e.type ≠ framePaddingOnly → s'.lastSendNs = now

section Actions

variable {P : Primitives}

theorem SendsAt.of_eq
    {now : ℤ} {s s' : SecureStream} (hstays : StaysClosed s s')
    (hhanded : s'.handed = s.handed) (hlast : s'.lastSendNs = s.lastSendNs) :
    SendsAt now s s' where
  stays := hstays
  handed := ⟨[], by simpa using hhanded, by simp⟩
  last := Or.inl hlast
  counts := by simp [hhanded]

@[simp] theorem SecureStream.close_lastSendNs (s : SecureStream) :
    s.close.lastSendNs = s.lastSendNs := by
  unfold SecureStream.close
  split <;> rfl

@[simp] theorem SecureStream.close_frmOut (s : SecureStream) :
    s.close.frmOut = s.frmOut := by
  unfold SecureStream.close
  split <;> rfl

theorem sendFrameLocked_sendsAt
    (t : FrameType) (metaBytes payload : Bytes) (padLen : ℤ) (env : StreamEnv)
    (s : SecureStream) :
    SendsAt env.nowNs s (sendFrameLocked P t metaBytes payload padLen env s).2 := by
  have hstays := (sendFrameLocked_life (P := P) t metaBytes payload padLen env
    s).1.stays
  have hstep := sendFrameLocked_step P t metaBytes payload padLen env s
  generalize sendFrameLocked P t metaBytes payload padLen env s = r
    at hstep hstays ⊢
  cases hstep with
  | kept outcome cap failed => exact .of_eq hstays rfl rfl
  | taken cap fr htype hmeta hpayload hsend =>
      have hcount : s.frmOut + 1 ≠ s.frmOut := by
        intro heq
        simp at heq
      refine ⟨hstays, ⟨[_], rfl, le_rfl⟩, ?_, ?_⟩
      · by_cases hpad : t = framePaddingOnly
        · exact Or.inl (by simp [SecureStream.countSent, hpad, SecureStream.emit,
            SecureStream.handOver])
        · refine Or.inr ⟨by simp [SecureStream.countSent, hpad], hcount, ?_⟩
          simp [SecureStream.countSent, SecureStream.emit, SecureStream.handOver]
      · intro _ e he happ
        have heq : e.type = t := by
          simp only [SecureStream.countSent, SecureStream.emit,
            SecureStream.handOver, List.drop_left', List.mem_singleton] at he
          rw [he, htype]
        simp [SecureStream.countSent, ← heq, happ]
  | refused cap fr htype hmeta hpayload e hsend =>
      refine ⟨hstays, ⟨[_], by rw [SecureStream.close_handed]; rfl, le_rfl⟩,
        Or.inl (by simp [SecureStream.emit, SecureStream.handOver]), ?_⟩
      intro hcount
      simp [SecureStream.emit, SecureStream.handOver] at hcount

theorem recvOpened_sendsAt (env : StreamEnv) (s : SecureStream) :
    SendsAt env.nowNs s (recvOpened P env s).2 := by
  unfold recvOpened
  split
  · exact .of_eq (fun _ => s.close_closed) (by simp) (by simp)
  split
  · exact .of_eq (fun _ => s.close_closed) (by simp) (by simp)
  dsimp only
  split
  · exact .of_eq (fun _ => SecureStream.close_closed _)
      (by simp [SecureStream.countReceived])
      (by simp [SecureStream.countReceived])
  · exact .of_eq id rfl rfl

theorem CallAction.sendsAt
    {label : StreamLabel} {update : StreamEnv → SecureStream → SecureStream}
    (haction : CallAction P label update) (env : StreamEnv) (s : SecureStream) :
    SendsAt env.nowNs s (update env s) := by
  cases haction with
  | stream action =>
      cases action with
      | closedTest => exact .of_eq id rfl rfl
      | chunkDraw => exact .of_eq id rfl rfl
      | sendLocked t metaBytes payload padLen =>
          exact sendFrameLocked_sendsAt t metaBytes payload padLen env s
      | recv =>
          change SendsAt env.nowNs s (recv P env s).2
          rw [recv_eq]
          split
          · exact .of_eq id rfl rfl
          · exact recvOpened_sendsAt env s
      | close => exact .of_eq (fun _ => s.close_closed) (by simp) (by simp)
  | recvOpened => exact recvOpened_sendsAt env s

end Actions

/-! ## What one action of a thread does -/

/-- What an action of `thread` does to the parts of the state that the others
know of. -/
structure CoverMoves (thread : ℕ) (s s' : CoverStream) : Prop where
  clock : s.clock ≤ s'.clock
  frames : ∃ more, s'.frames = s.frames ++ more ∧ ∀ e ∈ more, e.thread = thread
  owner : ∀ other, s.owner = some other → s'.owner = some other
  unmade : s.coverStop = .unmade → s'.coverStop ≠ .unmade →
    s'.owner = some thread

/-- What `thread` relies on: only it sends its frames, and if the goroutine is
its own, only it makes the channel. -/
structure CoverRelies (thread : ℕ) (s s' : CoverStream) : Prop where
  clock : s.clock ≤ s'.clock
  frames : ∃ more, s'.frames = s.frames ++ more ∧ ∀ e ∈ more, e.thread ≠ thread
  owner : s.owner = some thread → s'.owner = some thread
  unmade : s.owner = some thread → s.coverStop = .unmade → s'.coverStop = .unmade

theorem CoverMoves.relied
    {mover thread : ℕ} {s s' : CoverStream} (hne : mover ≠ thread)
    (hmoves : CoverMoves mover s s') : CoverRelies thread s s' where
  clock := hmoves.clock
  frames := by
    obtain ⟨more, hmore, hown⟩ := hmoves.frames
    exact ⟨more, hmore, fun e he => hown e he ▸ hne⟩
  owner := hmoves.owner thread
  unmade := by
    intro howner hunmade
    by_contra hmade
    have hmover := hmoves.unmade hunmade hmade
    rw [hmoves.owner thread howner] at hmover
    exact hne (Option.some.inj hmover).symm

theorem CoverRelies.refl (thread : ℕ) (s : CoverStream) :
    CoverRelies thread s s :=
  ⟨le_rfl, ⟨[], by simp, by simp⟩, id, fun _ => id⟩

theorem CoverRelies.trans
    {thread : ℕ} {a b c : CoverStream} (hab : CoverRelies thread a b)
    (hbc : CoverRelies thread b c) : CoverRelies thread a c where
  clock := hab.clock.trans hbc.clock
  frames := by
    obtain ⟨more, hmore, hforeign⟩ := hab.frames
    obtain ⟨last, hlast, hforeign'⟩ := hbc.frames
    refine ⟨more ++ last, by rw [hlast, hmore, List.append_assoc], ?_⟩
    intro e he
    rcases List.mem_append.mp he with hold | hnew
    · exact hforeign e hold
    · exact hforeign' e hnew
  owner := fun howner => hbc.owner (hab.owner howner)
  unmade := fun howner hunmade =>
    hbc.unmade (hab.owner howner) (hab.unmade howner hunmade)

theorem CoverRelies.later
    (thread : ℕ) {s : CoverStream} {clock : ℤ} (hlater : s.clock ≤ clock) :
    CoverRelies thread s { s with clock := clock } :=
  ⟨hlater, ⟨[], by simp, by simp⟩, id, fun _ => id⟩

/-- What an action of the stream's methods, taken by `thread`, does to the
state. -/
structure Absorbed (thread : ℕ) (cause : Option IdleTest) (s s' : CoverStream) :
    Prop where
  clock : s.clock ≤ s'.clock
  frames : ∃ more, s'.frames = s.frames ++ more ∧ more.length ≤ 1 ∧
    s'.stream.handed = s.stream.handed ++ more.map TimedFrame.frame ∧
    ∀ e ∈ more, e.thread = thread ∧ e.time = s'.clock ∧ e.cause = cause ∧
      (e.Application → s'.stream.lastSendNs = s'.clock) ∧
      (s'.stream.frmOut ≠ s.stream.frmOut → e.taken = true)
  last : s'.stream.lastSendNs = s.stream.lastSendNs ∨
    s'.stream.lastSendNs = s'.clock ∧
      ∃ e ∈ s'.frames, e.taken = true ∧ e.time = s'.clock
  started : s'.coverStarted = s.coverStarted
  owner : s'.owner = s.owner
  makes : s'.makes = s.makes
  passes : s'.passes = s.passes
  stays : StaysClosed s.stream s'.stream
  stop : s'.coverStop = s.coverStop ∨
    s.coverStop = .made ∧ s'.coverStop = .closed ∧ s'.stream.closed = true
  panics : (s.coverStop = .closed → s.stream.closed = true) →
    s'.stopPanics = s.stopPanics

section Absorb

variable {thread : ℕ} {cause : Option IdleTest} {env : CoverEnv}
variable {stream : SecureStream} {s : CoverStream}

theorem absorb_absorbed
    (thread : ℕ) (cause : Option IdleTest)
    (hsends : SendsAt (s.clock + env.elapsed) s.stream stream) :
    Absorbed thread cause s (s.absorb thread cause env stream) := by
  obtain ⟨new, hnew, hone⟩ := hsends.handed
  have hfresh : stream.handed.drop s.stream.handed.length = new := by
    rw [hnew, List.drop_left]
  refine
    { clock := by simp [CoverStream.absorb, CoverStream.tick]
      frames := ?_
      last := ?_
      started := rfl
      owner := rfl
      makes := rfl
      passes := rfl
      stays := hsends.stays
      stop := ?_
      panics := ?_ }
  · refine ⟨_, rfl, ?_, ?_, ?_⟩
    · simpa [CoverStream.tick, hfresh] using hone
    · simp [CoverStream.absorb, CoverStream.tick, Function.comp_def, hnew]
    · intro e he
      obtain ⟨frame, hframe, rfl⟩ := List.mem_map.mp he
      refine ⟨rfl, rfl, rfl, ?_, fun hcount => decide_eq_true hcount⟩
      rintro ⟨htaken, happ⟩
      exact hsends.counts (of_decide_eq_true htaken) frame hframe happ
  · rcases hsends.last with hsame | ⟨hnow, hcount, hgrown⟩
    · exact Or.inl hsame
    · refine Or.inr ⟨hnow, ?_⟩
      cases hcase : new with
      | nil =>
          rw [hcase, List.append_nil] at hnew
          exact absurd hnew hgrown
      | cons frame rest =>
          refine ⟨_, List.mem_append_right _ (List.mem_map.mpr
            ⟨frame, ?_, rfl⟩), ?_, rfl⟩
          · change frame ∈ stream.handed.drop s.stream.handed.length
            rw [hfresh, hcase]
            exact List.mem_cons_self
          · exact decide_eq_true hcount
  · by_cases hmade : (stream.closed && !s.stream.closed) = true ∧
        s.coverStop = .made
    · refine Or.inr ⟨hmade.2, if_pos hmade, ?_⟩
      have hclosed := hmade.1
      simp only [Bool.and_eq_true] at hclosed
      exact hclosed.1
    · exact Or.inl (if_neg hmade)
  · intro hstopped
    refine if_neg ?_
    rintro ⟨hclosing, hchan⟩
    have hclosed := hstopped hchan
    simp [CoverStream.tick, hclosed] at hclosing

theorem Absorbed.moves
    {s' : CoverStream} (hstep : Absorbed thread cause s s') :
    CoverMoves thread s s' where
  clock := hstep.clock
  frames := by
    obtain ⟨more, hmore, _, _, hown⟩ := hstep.frames
    exact ⟨more, hmore, fun e he => (hown e he).1⟩
  owner := by
    intro other howner
    rw [hstep.owner, howner]
  unmade := by
    intro hunmade hmade
    rcases hstep.stop with hsame | ⟨hwas, _⟩
    · exact absurd (hsame.trans hunmade) hmade
    · rw [hunmade] at hwas
      cases hwas

end Absorb

end SingEwp
