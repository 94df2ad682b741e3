import SingEwp.CoverLoop

/-!
# The pace of the cover traffic

What the cover-traffic goroutine does in every interleaving with the callers of
the stream.  The invariant is about the two logs; the goroutine's own knowledge,
when its timer runs out, which frames its test has seen, is kept while the other
threads go on, since only the goroutine sends its frames.
-/

namespace SingEwp

/-! ## What the loop owes -/

/-- No delay is shorter; the last case is that of a sum that can overflow. -/
def CoverConfig.shortest {A : FloatArith} (cfg : CoverConfig A) : ℤ :=
  if A.nonpos cfg.jitterFrac = true ∨ cfg.spanNs < 1 then cfg.interval
  else if cfg.earliest + cfg.spanNs ≤ 2 ^ 63 then cfg.earliest
  else -2 ^ 63

/-- The `k`-th frame as a frame of the loop: no content, and owed to an idle test
that came after the loop's last frame and found the stream silent for long
enough. -/
structure CoverFrame {A : FloatArith} (cfg : CoverPlan A)
    (frames : List TimedFrame) (k : ℕ) (e : TimedFrame) (test : IdleTest) :
    Prop where
  type : e.frame.type = framePaddingOnly
  metaBytes : e.frame.metaBytes = []
  payload : e.frame.payload = []
  cause : e.cause = some test
  before_le : test.before ≤ k
  now_le : test.now ≤ e.time
  silent : ∀ i f, i < test.before → frames[i]? = some f → f.Application →
    f.time + cfg.idleAfter ≤ test.now
  fresh : ∀ i f, i < k → frames[i]? = some f → f.thread = e.thread →
    i < test.before

/-- How a loop has gone about its frames since the time `start`. -/
structure Paced {A : FloatArith} (cfg : CoverPlan A) (thread : ℕ) (start : ℤ)
    (s : CoverStream) : Prop where
  apart : (s.framesOf thread).Pairwise
    (fun e e' => e.time + cfg.shortest ≤ e'.time)
  cover : ∀ k e, s.frames[k]? = some e → e.thread = thread →
    ∃ test, CoverFrame cfg s.frames k e test
  covered : cfg.idleAfter ≤ start → ∀ pass ∈ s.passes, pass.thread = thread →
    pass.failed = false →
      ∃ f ∈ s.frames, f.taken = true ∧ pass.now < f.time + cfg.idleAfter

/-- What holds at every moment. -/
structure CoverSound {A : FloatArith} (calls : List (CoveredCall A)) (start : ℤ)
    (s : CoverStream) : Prop where
  started : s.coverStarted = true ↔ s.owner ≠ none
  unowned : s.owner = none → s.coverStop = .unmade
  makes : s.makes = if s.coverStop = .unmade then 0 else 1
  stopped : s.coverStop = .closed → s.stream.closed = true
  panics : s.stopPanics = 0
  handed : s.frames.map TimedFrame.frame = s.stream.handed
  clock : start ≤ s.clock
  times : ∀ e ∈ s.frames, e.time ≤ s.clock
  last : ∀ e ∈ s.frames, e.Application → e.time ≤ s.stream.lastSendNs
  last_sent : s.stream.lastSendNs = 0 ∨
    ∃ e ∈ s.frames, e.taken = true ∧ e.time = s.stream.lastSendNs
  single : ∀ e ∈ s.frames, e.cause ≠ none → s.owner = some e.thread
  paced : ∀ thread cfg, calls[thread]? = some (.start cfg) →
    Paced cfg thread start s

/-! ## The invariant -/

section Invariant

variable {A : FloatArith} {calls : List (CoveredCall A)} {start : ℤ}
variable {s s' : CoverStream}

theorem CoverFrame.grown
    {cfg : CoverPlan A} {frames more : List TimedFrame} {k : ℕ} {e : TimedFrame}
    {test : IdleTest} (hcover : CoverFrame cfg frames k e test)
    (hk : k < frames.length) : CoverFrame cfg (frames ++ more) k e test := by
  have hbefore := hcover.before_le
  refine { hcover with silent := ?_, fresh := ?_ }
  · intro i f hi hf
    rw [List.getElem?_append_left (by omega)] at hf
    exact hcover.silent i f hi hf
  · intro i f hi hf
    rw [List.getElem?_append_left (by omega)] at hf
    exact hcover.fresh i f hi hf

/-- A frame, or a completed pass, is added to what a loop has done. -/
theorem Paced.extend
    {cfg : CoverPlan A} {thread : ℕ} (hpaced : Paced cfg thread start s)
    {more : List TimedFrame} {done : List CoverPass}
    (hframes : s'.frames = s.frames ++ more) (hone : more.length ≤ 1)
    (hpasses : s'.passes = s.passes ++ done)
    (hmore : ∀ e ∈ more, e.thread = thread →
      (∀ f ∈ s.frames, f.thread = thread → f.time + cfg.shortest ≤ e.time) ∧
        ∃ test, CoverFrame cfg s'.frames s.frames.length e test)
    (hdone : cfg.idleAfter ≤ start → ∀ pass ∈ done, pass.thread = thread →
      pass.failed = false →
        ∃ f ∈ s'.frames, f.taken = true ∧ pass.now < f.time + cfg.idleAfter) :
    Paced cfg thread start s' where
  apart := by
    have hsplit : s'.framesOf thread = s.framesOf thread ++
        more.filter (fun e => e.thread = thread) := by
      rw [CoverStream.framesOf, hframes, List.filter_append]
      rfl
    rw [hsplit, List.pairwise_append]
    refine ⟨hpaced.apart, ?_, ?_⟩
    · have hle := (List.length_filter_le
        (fun e : TimedFrame => decide (e.thread = thread)) more).trans hone
      cases hcase : more.filter (fun e => e.thread = thread) with
      | nil => exact List.Pairwise.nil
      | cons e rest =>
          rw [hcase, List.length_cons] at hle
          obtain rfl : rest = [] := List.length_eq_zero_iff.mp (by omega)
          exact List.pairwise_singleton _ _
    · intro f hf e he
      obtain ⟨hf, hthread⟩ := List.mem_filter.mp hf
      obtain ⟨he, hthread'⟩ := List.mem_filter.mp he
      exact (hmore e he (of_decide_eq_true hthread')).1 f hf
        (of_decide_eq_true hthread)
  cover := by
    intro k e he hthread
    by_cases hk : k < s.frames.length
    · rw [hframes, List.getElem?_append_left hk] at he
      obtain ⟨test, hcover⟩ := hpaced.cover k e he hthread
      refine ⟨test, ?_⟩
      rw [hframes]
      exact hcover.grown hk
    · rw [hframes, List.getElem?_append_right (not_lt.mp hk)] at he
      have hlast : k = s.frames.length := by
        have hlt := (List.getElem?_eq_some_iff.mp he).1
        omega
      rw [hlast]
      exact (hmore e (List.mem_of_getElem? he) hthread).2
  covered := by
    intro hstart pass hpass hthread hfailed
    rw [hpasses] at hpass
    rcases List.mem_append.mp hpass with hold | hnew
    · obtain ⟨f, hf, htaken, htime⟩ :=
        hpaced.covered hstart pass hold hthread hfailed
      exact ⟨f, by rw [hframes]; exact List.mem_append_left _ hf, htaken, htime⟩
    · exact hdone hstart pass hnew hthread hfailed

theorem Paced.of_eq
    {cfg : CoverPlan A} {thread : ℕ} (hpaced : Paced cfg thread start s)
    (hframes : s'.frames = s.frames) (hpasses : s'.passes = s.passes) :
    Paced cfg thread start s' :=
  hpaced.extend (hframes.trans (List.append_nil _).symm) (Nat.zero_le 1)
    (hpasses.trans (List.append_nil _).symm) (by simp) (by simp)

/-- Time passes. -/
theorem CoverSound.later
    (hsound : CoverSound calls start s) {clock : ℤ} (hlater : s.clock ≤ clock) :
    CoverSound calls start { s with clock := clock } :=
  { hsound with
    clock := hsound.clock.trans hlater
    times := fun e he => (hsound.times e he).trans hlater
    paced := fun thread cfg hcall =>
      (hsound.paced thread cfg hcall).of_eq rfl rfl }

theorem CoverMoves.later
    (thread : ℕ) {clock : ℤ} (hlater : s.clock ≤ clock) :
    CoverMoves thread s { s with clock := clock } :=
  ⟨hlater, ⟨[], by simp, by simp⟩, fun _ => id, fun hunmade hmade =>
    absurd hunmade hmade⟩

/-- An action of the stream keeps the invariant if the frame of a loop is one
that the loop may send. -/
theorem CoverSound.absorbed
    {thread : ℕ} {cause : Option IdleTest} (hsound : CoverSound calls start s)
    (hstep : Absorbed thread cause s s')
    (hcause : cause ≠ none → s.owner = some thread)
    (hown : ∀ cfg, calls[thread]? = some (.start cfg) → ∀ e,
      s'.frames = s.frames ++ [e] →
        (∀ f ∈ s.frames, f.thread = thread →
          f.time + cfg.shortest ≤ s'.clock) ∧
        ∃ test, CoverFrame cfg s'.frames s.frames.length e test) :
    CoverSound calls start s' := by
  obtain ⟨more, hmore, hone, hhanded, hnew⟩ := hstep.frames
  have hsingle : ∀ e ∈ more, more = [e] := by
    intro e he
    obtain ⟨f, rfl⟩ := List.length_eq_one_iff.mp
      (le_antisymm hone (List.length_pos_of_mem he))
    rw [List.mem_singleton.mp he]
  refine
    { started := by rw [hstep.started, hstep.owner]; exact hsound.started
      unowned := ?_
      makes := ?_
      stopped := ?_
      panics := by rw [hstep.panics hsound.stopped]; exact hsound.panics
      handed := by rw [hmore, hhanded, List.map_append, hsound.handed]
      clock := hsound.clock.trans hstep.clock
      times := ?_
      last := ?_
      last_sent := ?_
      single := ?_
      paced := ?_ }
  · intro hnone
    have hunmade := hsound.unowned (hstep.owner ▸ hnone)
    rcases hstep.stop with hsame | ⟨hmade, _⟩
    · exact hsame.trans hunmade
    · rw [hunmade] at hmade
      cases hmade
  · rw [hstep.makes, hsound.makes]
    rcases hstep.stop with hsame | ⟨hmade, hclosed, _⟩
    · rw [hsame]
    · rw [hmade, hclosed]
      rfl
  · intro hclosed
    rcases hstep.stop with hsame | ⟨_, _, hstream⟩
    · exact hstep.stays (hsound.stopped (hsame ▸ hclosed))
    · exact hstream
  · intro e he
    rw [hmore] at he
    rcases List.mem_append.mp he with hold | hfresh
    · exact (hsound.times e hold).trans hstep.clock
    · exact (hnew e hfresh).2.1.le
  · intro e he happ
    rw [hmore] at he
    rcases List.mem_append.mp he with hold | hfresh
    · rcases hstep.last with hsame | ⟨hnow, _⟩
      · rw [hsame]
        exact hsound.last e hold happ
      · rw [hnow]
        exact (hsound.times e hold).trans hstep.clock
    · obtain ⟨_, htime, _, hlast, _⟩ := hnew e hfresh
      rw [htime, hlast happ]
  · rcases hstep.last with hsame | ⟨hnow, e, he, htaken, htime⟩
    · rw [hsame]
      refine hsound.last_sent.imp_right ?_
      rintro ⟨e, he, hsent⟩
      exact ⟨e, by rw [hmore]; exact List.mem_append_left _ he, hsent⟩
    · exact Or.inr ⟨e, he, htaken, htime.trans hnow.symm⟩
  · intro e he hcaused
    rw [hmore] at he
    rw [hstep.owner]
    rcases List.mem_append.mp he with hold | hfresh
    · exact hsound.single e hold hcaused
    · obtain ⟨hthread, _, hsame, _⟩ := hnew e hfresh
      rw [hthread]
      exact hcause (hsame ▸ hcaused)
  · intro other cfg hcall
    refine (hsound.paced other cfg hcall).extend hmore hone
      (hstep.passes.trans (List.append_nil _).symm) ?_ (by simp)
    intro e he hthread
    obtain ⟨hmover, htime, _⟩ := hnew e he
    obtain rfl : thread = other := hmover.symm.trans hthread
    rw [htime]
    exact hown cfg hcall e (by rw [hmore, hsingle e he])

end Invariant

/-! ## The threads -/

theorem sendFrameLocked_fields
    {P : Primitives} {t : FrameType} {metaBytes payload : Bytes} {padLen : ℤ}
    (env : StreamEnv) (s : SecureStream) :
    (∀ e ∈ (sendFrameLocked P t metaBytes payload padLen env s).2.handed.drop
        s.handed.length,
      e.type = t ∧ e.metaBytes = metaBytes ∧ e.payload = payload) ∧
    ((sendFrameLocked P t metaBytes payload padLen env s).1 = .ok () →
      (sendFrameLocked P t metaBytes payload padLen env s).2.handed ≠ s.handed ∧
      (sendFrameLocked P t metaBytes payload padLen env s).2.frmOut ≠
        s.frmOut) := by
  have hstep := sendFrameLocked_step P t metaBytes payload padLen env s
  generalize sendFrameLocked P t metaBytes payload padLen env s = r at hstep ⊢
  cases hstep with
  | kept outcome cap failed =>
      exact ⟨by simp, fun hok => absurd hok (SendStep.ne_ok_of_failed failed)⟩
  | taken cap fr htype hmeta hpayload hsend =>
      refine ⟨?_, fun _ => ⟨?_, ?_⟩⟩
      · intro e he
        simp only [SecureStream.countSent, SecureStream.emit,
          SecureStream.handOver, List.drop_left', List.mem_singleton] at he
        rw [he]
        exact ⟨htype, hmeta, hpayload⟩
      · simp [SecureStream.countSent, SecureStream.emit, SecureStream.handOver]
      · simp [SecureStream.countSent, SecureStream.emit, SecureStream.handOver]
  | refused cap fr htype hmeta hpayload e hsend =>
      refine ⟨?_, fun hok => by cases hok⟩
      intro e he
      simp only [SecureStream.close_handed, SecureStream.emit,
        SecureStream.handOver, List.drop_left', List.mem_singleton] at he
      rw [he]
      exact ⟨htype, hmeta, hpayload⟩

section Threads

variable {P : Primitives} {A : FloatArith} {calls : List (CoveredCall A)}
variable {start : ℤ} {thread : ℕ} {cfg : CoverPlan A}

/-- The loop's frames are over by the shortest delay at `deadline`. -/
def Spent (cfg : CoverPlan A) (thread : ℕ) (deadline : ℤ) (s : CoverStream) :
    Prop :=
  ∀ f ∈ s.frames, f.thread = thread → f.time + cfg.shortest ≤ deadline

theorem Spent.relied
    {s s' : CoverStream} {deadline : ℤ} (hspent : Spent cfg thread deadline s)
    (hrelies : CoverRelies thread s s') : Spent cfg thread deadline s' := by
  obtain ⟨more, hmore, hforeign⟩ := hrelies.frames
  intro f hf hthread
  rw [hmore] at hf
  rcases List.mem_append.mp hf with hold | hnew
  · exact hspent f hold hthread
  · exact absurd hthread (hforeign f hnew)

/-- A pass that the loop may log. -/
def Owed (cfg : CoverPlan A) (thread : ℕ) (start : ℤ) (pass : CoverPass)
    (s : CoverStream) : Prop :=
  pass.thread = thread ∧
    (cfg.idleAfter ≤ start → pass.failed = false →
      ∃ f ∈ s.frames, f.taken = true ∧ pass.now < f.time + cfg.idleAfter)

theorem Owed.relied
    {s s' : CoverStream} {pass : CoverPass} (howed : Owed cfg thread start pass s)
    (hrelies : CoverRelies thread s s') : Owed cfg thread start pass s' := by
  obtain ⟨more, hmore, _⟩ := hrelies.frames
  refine ⟨howed.1, fun hstart hfailed => ?_⟩
  obtain ⟨f, hf, hsent⟩ := howed.2 hstart hfailed
  exact ⟨f, by rw [hmore]; exact List.mem_append_left _ hf, hsent⟩

/-- What the loop knows after its timer has fired. -/
def Fired (cfg : CoverPlan A) (thread : ℕ) (s : CoverStream) : Prop :=
  s.owner = some thread ∧ Spent cfg thread s.clock s

theorem Fired.relied
    {s s' : CoverStream} (hfired : Fired cfg thread s)
    (hrelies : CoverRelies thread s s') : Fired cfg thread s' :=
  ⟨hrelies.owner hfired.1, fun f hf hown =>
    (hfired.2.relied hrelies f hf hown).trans hrelies.clock⟩

/-- What the loop knows after it has loaded `lastSendNs`. -/
structure Loaded (cfg : CoverPlan A) (thread : ℕ) (last : ℤ) (before : ℕ)
    (s : CoverStream) : Prop where
  fired : Fired cfg thread s
  before_le : before ≤ s.frames.length
  own : ∀ i f, s.frames[i]? = some f → f.thread = thread → i < before
  applications : ∀ i f, i < before → s.frames[i]? = some f →
    f.Application → f.time ≤ last
  sent : last = 0 ∨ ∃ f ∈ s.frames, f.taken = true ∧ f.time = last

theorem Loaded.relied
    {s s' : CoverStream} {last : ℤ} {before : ℕ}
    (hloaded : Loaded cfg thread last before s)
    (hrelies : CoverRelies thread s s') : Loaded cfg thread last before s' := by
  obtain ⟨more, hmore, hforeign⟩ := hrelies.frames
  refine
    { fired := hloaded.fired.relied hrelies
      before_le := ?_
      own := ?_
      applications := ?_
      sent := ?_ }
  · rw [hmore, List.length_append]
    exact hloaded.before_le.trans (Nat.le_add_right _ _)
  · intro i f hf hthread
    by_cases hi : i < s.frames.length
    · rw [hmore, List.getElem?_append_left hi] at hf
      exact hloaded.own i f hf hthread
    · rw [hmore, List.getElem?_append_right (not_lt.mp hi)] at hf
      exact absurd hthread (hforeign f (List.mem_of_getElem? hf))
  · intro i f hi hf
    rw [hmore, List.getElem?_append_left
      (lt_of_lt_of_le hi hloaded.before_le)] at hf
    exact hloaded.applications i f hi hf
  · refine hloaded.sent.imp_right ?_
    rintro ⟨f, hf, hsent⟩
    exact ⟨f, by rw [hmore]; exact List.mem_append_left _ hf, hsent⟩

/-- What the loop knows after its idle test. -/
structure Tested (cfg : CoverPlan A) (thread : ℕ) (start last : ℤ)
    (test : IdleTest) (s : CoverStream) : Prop where
  loaded : Loaded cfg thread last test.before s
  now_le : test.now ≤ s.clock
  start_le : start ≤ test.now

theorem Tested.relied
    {s s' : CoverStream} {last : ℤ} {test : IdleTest}
    (htested : Tested cfg thread start last test s)
    (hrelies : CoverRelies thread s s') :
    Tested cfg thread start last test s' :=
  ⟨htested.loaded.relied hrelies, htested.now_le.trans hrelies.clock,
    htested.start_le⟩

theorem Tested.coverFrame
    {s : CoverStream} {last : ℤ} {test : IdleTest}
    {frames : List TimedFrame} {e : TimedFrame}
    (htested : Tested cfg thread start last test s)
    (hidle : cfg.idleAfter ≤ test.now - last)
    (hframes : frames = s.frames ++ [e]) (hthread : e.thread = thread)
    (htime : s.clock ≤ e.time) (hcause : e.cause = some test)
    (hfields : e.frame.type = framePaddingOnly ∧ e.frame.metaBytes = [] ∧
      e.frame.payload = []) :
    CoverFrame cfg frames s.frames.length e test where
  type := hfields.1
  metaBytes := hfields.2.1
  payload := hfields.2.2
  cause := hcause
  before_le := htested.loaded.before_le
  now_le := htested.now_le.trans htime
  silent := by
    intro i f hi hf happ
    rw [hframes, List.getElem?_append_left
      (lt_of_lt_of_le hi htested.loaded.before_le)] at hf
    have hle := htested.loaded.applications i f hi hf happ
    omega
  fresh := by
    intro i f hi hf hsame
    rw [hframes, List.getElem?_append_left hi] at hf
    exact htested.loaded.own i f hf (hsame.trans hthread)

/-- A cover frame that the loop has tested for keeps the invariant, and a pass
whose call of `SendCoverPad` succeeded has a frame to show for it. -/
theorem Tested.absorb
    {s : CoverStream} {last : ℤ} {test : IdleTest} {env : CoverEnv}
    {outcome : Outcome EwpError Unit} {stream : SecureStream}
    (hpositive : 0 < cfg.idleAfter)
    (hcall : calls[thread]? = some (.start cfg))
    (htested : Tested cfg thread start last test s)
    (hidle : cfg.idleAfter ≤ test.now - last)
    (hsound : CoverSound calls start s)
    (hsends : SendsAt (s.clock + env.elapsed) s.stream stream)
    (hfields : ∀ e ∈ stream.handed.drop s.stream.handed.length,
      e.type = framePaddingOnly ∧ e.metaBytes = [] ∧ e.payload = [])
    (hok : outcome = .ok () →
      stream.handed ≠ s.stream.handed ∧ stream.frmOut ≠ s.stream.frmOut) :
    CoverSound calls start (s.absorb thread (some test) env stream) ∧
      CoverMoves thread s (s.absorb thread (some test) env stream) ∧
      (s.absorb thread (some test) env stream).owner = some thread ∧
      Owed cfg thread start ⟨thread, test.now, outcome != .ok ()⟩
        (s.absorb thread (some test) env stream) := by
  have hstep := absorb_absorbed thread (some test) hsends
  have hstream : (s.absorb thread (some test) env stream).stream = stream := rfl
  generalize s.absorb thread (some test) env stream = s' at hstep hstream ⊢
  subst hstream
  obtain ⟨more, hmore, hone, hhanded, hnew⟩ := hstep.frames
  have hcontent : ∀ e ∈ more, e.frame.type = framePaddingOnly ∧
      e.frame.metaBytes = [] ∧ e.frame.payload = [] := by
    intro e he
    apply hfields
    rw [hhanded, List.drop_left]
    exact List.mem_map_of_mem he
  obtain ⟨howner, hspent⟩ := htested.loaded.fired
  refine ⟨hsound.absorbed hstep (fun _ => howner) ?_, hstep.moves,
    hstep.owner.trans howner, rfl, ?_⟩
  · intro cfg' hcall' e he
    rw [hcall] at hcall'
    obtain rfl := CoveredCall.start.inj (Option.some.inj hcall')
    have hmem : e ∈ more := by
      rw [List.append_cancel_left (hmore.symm.trans he)]
      exact List.mem_singleton_self e
    obtain ⟨hthread, htime, hcause, _⟩ := hnew e hmem
    refine ⟨fun f hf hown => (hspent f hf hown).trans hstep.clock, test, ?_⟩
    exact htested.coverFrame hidle he hthread (htime ▸ hstep.clock) hcause
      (hcontent e hmem)
  · intro _ hfailed
    have hsent : outcome = .ok () := by simpa using hfailed
    obtain ⟨hgrown, hcount⟩ := hok hsent
    cases hcase : more with
    | nil =>
        rw [hcase, List.map_nil, List.append_nil] at hhanded
        exact absurd hhanded hgrown
    | cons e rest =>
        have hmem : e ∈ more := by rw [hcase]; exact List.mem_cons_self
        obtain ⟨_, htime, _, _, htaken⟩ := hnew e hmem
        refine ⟨e, by rw [hmore]; exact List.mem_append_right _ hmem,
          htaken hcount, ?_⟩
        have hnow := htested.now_le
        have hclock := hstep.clock
        dsimp only
        omega

/-- A section under `writeMu` that sends nothing but an empty cover frame. -/
structure SendsCover
    (body : StreamEnv → SecureStream → Outcome EwpError Unit × SecureStream) :
    Prop where
  sends : ∀ env s, SendsAt env.nowNs s (body env s).2
  fields : ∀ env s, ∀ e ∈ (body env s).2.handed.drop s.handed.length,
    e.type = framePaddingOnly ∧ e.metaBytes = [] ∧ e.payload = []
  grown : ∀ env s, (body env s).1 = .ok () →
    (body env s).2.handed ≠ s.handed ∧ (body env s).2.frmOut ≠ s.frmOut

theorem sendFrameLocked_sendsCover (P : Primitives) (padLen : ℤ) :
    SendsCover (sendFrameLocked P framePaddingOnly [] [] padLen) where
  sends := fun env s => sendFrameLocked_sendsAt _ _ _ _ env s
  fields := fun env s => (sendFrameLocked_fields env s).1
  grown := fun env s => (sendFrameLocked_fields env s).2

end Threads

/-! ## Every interleaving -/

section Runs

variable {A : FloatArith} (P : Primitives) (fuel : ℕ) (keys : SessionKeys)
variable (side : Side) (clock : ℤ) (calls : List (CoveredCall A))

theorem coverPool_thread
    {P : Primitives} {fuel : ℕ} {s : CoverStream} {calls : List (CoveredCall A)}
    {thread : ℕ} {p : CoverProc CoveredResult}
    (hp : (coverPool P fuel s calls).threads[thread]? = some p) :
    ∃ call, calls[thread]? = some call ∧ p = call.proc P fuel thread := by
  simp only [coverPool, List.getElem?_mapIdx, Option.map_eq_some_iff] at hp
  obtain ⟨call, hcall, rfl⟩ := hp
  exact ⟨call, hcall, rfl⟩

end Runs

theorem steadyInterval_lt : (500000000 : ℤ) < 2 ^ 63 := by norm_num

/-- The durations of `DefaultCoverConfig`, without jitter. -/
def steadyPlan : CoverPlan exactArith where
  interval := 500000000
  jitterFrac := (0 : ℚ)
  interval_lt := steadyInterval_lt
  idleAfter := 500000000

def promptEnv : CoverEnv where
  elapsed := 0
  preferStop := true
  jitter := fun _ => none
  stream := Transparent.framerEnv

end SingEwp
