import SingEwp.CoverPacing

/-!
# The end of the cover-traffic goroutine

Once the stream is closed, by whom and at whatever moment, the goroutine has at
most six actions left, one of which may hand a last frame to the transport: a
pass that has tested `closed` before the stream was closed goes through, and the
next one ends.  The stop channel only lets it end before its timer fires; a
`Close` that comes between the `CompareAndSwap` and the making of the channel
leaves the channel open and the loop to its test of `closed`.
-/

namespace SingEwp

variable {A : FloatArith} {P : Primitives} {thread : ℕ} {cfg : CoverPlan A}

/-! ## Actions -/

/-- The actions of a thread: those of the stream's methods, and those that touch
neither the stream nor the log. -/
inductive CoverAction (P : Primitives) (thread : ℕ) :
    CoverLabel → (CoverEnv → CoverStream → CoverStream) → Prop where
  | stream (cause : Option IdleTest) {label update}
      (action : CallAction P label update) :
      CoverAction P thread (.stream label) (fun env s =>
        s.absorb thread cause env
          (update (env.streamAt (s.tick env.elapsed).clock) s.stream))
  | other {label update}
      (hstream : ∀ env s, (update env s).stream = s.stream)
      (hframes : ∀ env s, (update env s).frames = s.frames) :
      CoverAction P thread label update

theorem CoverAction.staysClosed
    {label : CoverLabel} {update : CoverEnv → CoverStream → CoverStream}
    (haction : CoverAction P thread label update) (env : CoverEnv)
    (s : CoverStream) (hclosed : s.stream.closed = true) :
    (update env s).stream.closed = true := by
  cases haction with
  | stream cause action => exact action.staysClosed _ _ hclosed
  | other hstream _ => rw [hstream, hclosed]

theorem CoverAction.framesOf_other
    {mover : ℕ} {label : CoverLabel}
    {update : CoverEnv → CoverStream → CoverStream}
    (haction : CoverAction P mover label update) (hne : mover ≠ thread)
    (env : CoverEnv) (s : CoverStream) :
    (update env s).framesOf thread = s.framesOf thread := by
  cases haction with
  | stream cause action =>
      have hstep := absorb_absorbed mover cause
        (action.sendsAt (env.streamAt (s.tick env.elapsed).clock) s.stream)
      obtain ⟨more, hmore, hown⟩ := hstep.moves.frames
      have hnone : more.filter (fun e => e.thread = thread) = [] := by
        rw [List.filter_eq_nil_iff]
        intro e he
        simpa [hown e he] using hne
      rw [CoverStream.framesOf, hmore, List.filter_append, hnone, List.append_nil]
      rfl
  | other _ hframes => rw [CoverStream.framesOf, hframes]; rfl

theorem onCover_acts
    {α : Type} {p : StreamProc α} (cause : Option IdleTest)
    (hacts : Proc.Acts (CallAction P) p) :
    Proc.Acts (CoverAction P thread) (onCover thread cause p) := by
  refine (hacts.embed _ _ _ _).mono ?_
  rintro _ _ ⟨label, update, haction, rfl, rfl⟩
  exact .stream cause haction

theorem setTimer_acts (pass : Option CoverPass) :
    Proc.Acts (CoverAction P thread) (setTimer cfg pass) :=
  Proc.Acts.atomic (.other (fun _ _ => rfl) (fun _ _ => rfl))

theorem coverFrame_acts (last : ℤ) (test : IdleTest) :
    Proc.Acts (CoverAction P thread) (coverFrame P thread cfg last test) := by
  unfold coverFrame
  split
  · refine Proc.Acts.bind (onCover_acts _ ?_) (fun _ => trivial)
    exact (sendFrame_acts P _ _ _ _).mono (fun _ _ => .stream)
  · trivial

theorem coverPass_acts
    {next : ℤ → CoverProc CoverExit}
    (hnext : ∀ deadline, Proc.Acts (CoverAction P thread) (next deadline)) :
    Proc.Acts (CoverAction P thread) (coverPass P thread cfg next) := by
  refine Proc.Acts.bind
    (Proc.Acts.atomic (.other (fun _ _ => rfl) (fun _ _ => rfl))) ?_
  rintro ⟨last, before⟩
  refine Proc.Acts.bind
    (Proc.Acts.atomic (.other (fun _ _ => rfl) (fun _ _ => rfl))) ?_
  intro now
  refine Proc.Acts.bind (coverFrame_acts last _) ?_
  intro failed
  exact Proc.Acts.bind (setTimer_acts _) hnext

theorem coverPasses_acts (fuel : ℕ) (deadline : ℤ) :
    Proc.Acts (CoverAction P thread)
      (coverPasses P thread cfg fuel deadline) := by
  induction fuel generalizing deadline with
  | zero => trivial
  | succ fuel ih =>
      have hselect : ∀ env s,
          (CoverStream.select deadline env s).2.stream = s.stream ∧
            (CoverStream.select deadline env s).2.frames = s.frames := by
        intro env s
        unfold CoverStream.select
        dsimp only
        split <;> exact ⟨rfl, rfl⟩
      unfold coverPasses
      refine Proc.Acts.bind (Proc.Acts.atomic
        (.other (fun env s => (hselect env s).1)
          (fun env s => (hselect env s).2))) ?_
      intro stop
      split
      · trivial
      refine Proc.Acts.bind
        (Proc.Acts.atomic (.other (fun _ _ => rfl) (fun _ _ => rfl))) ?_
      intro closed
      split
      · trivial
      exact coverPass_acts ih

theorem startCoverTraffic_acts (fuel : ℕ) :
    Proc.Acts (CoverAction P thread) (startCoverTraffic P thread cfg fuel) := by
  unfold startCoverTraffic
  split
  · trivial
  refine Proc.Acts.bind (Proc.Acts.atomic (.other ?_ ?_)) ?_
  · intro env s
    dsimp only
    split <;> rfl
  · intro env s
    dsimp only
    split <;> rfl
  · intro won
    split
    · refine Proc.Acts.bind
        (Proc.Acts.atomic (.other (fun _ _ => rfl) (fun _ _ => rfl))) ?_
      intro _
      exact Proc.Acts.bind (setTimer_acts none) (coverPasses_acts fuel)
    · trivial

theorem CoveredCall.acts (fuel : ℕ) (call : CoveredCall A) :
    Proc.Acts (CoverAction P thread) (call.proc P fuel thread) := by
  cases call with
  | start cfg =>
      exact Proc.Acts.bind (startCoverTraffic_acts fuel) (fun _ => trivial)
  | method call =>
      exact Proc.Acts.bind (onCover_acts none call.acts) (fun _ => trivial)

/-! ## The last actions -/

def Closed (s : CoverStream) : Prop := s.stream.closed = true

abbrev CoverWinds {α : Type} (thread k n : ℕ) (p : CoverProc α) : Prop :=
  Proc.Winds Closed (fun s => s.framesOf thread) k n p

/-- From any point of the thread on. -/
abbrev WindsFromAnywhere {α : Type} (thread : ℕ) (p : CoverProc α) : Prop :=
  Proc.Throughout (CoverWinds thread 1 6) p

theorem select_frames (deadline : ℤ) (env : CoverEnv) (s : CoverStream) :
    (CoverStream.select deadline env s).2.frames = s.frames := by
  unfold CoverStream.select
  dsimp only
  split <;> rfl

/-- A loop that comes to its timer ends there. -/
theorem coverPasses_winds (fuel : ℕ) (deadline : ℤ) :
    CoverWinds thread 0 2 (coverPasses P thread cfg fuel deadline) := by
  cases fuel with
  | zero => exact Proc.winds_ret
  | succ fuel =>
      unfold coverPasses
      apply Proc.winds_atomic_bind
      intro env s _
      refine ⟨?_, ?_⟩
      · rw [CoverStream.framesOf, select_frames]
        rfl
      · split
        · exact Proc.winds_ret
        · apply Proc.winds_atomic_bind
          intro env' s' hclosed
          refine ⟨rfl, ?_⟩
          dsimp only
          rw [if_pos (show s'.stream.closed = true from hclosed)]
          exact Proc.winds_ret

theorem setTimer_winds
    (pass : Option CoverPass) {next : ℤ → CoverProc CoverExit}
    (hnext : ∀ deadline, CoverWinds thread 0 2 (next deadline)) :
    CoverWinds thread 0 3 ((setTimer cfg pass).bind next) :=
  Proc.winds_atomic_bind (fun _ _ _ => ⟨rfl, hnext _⟩)

theorem framesOf_absorb_stream
    (cause : Option IdleTest) (env : CoverEnv) (s : CoverStream) :
    (s.absorb thread cause env s.stream).framesOf thread = s.framesOf thread := by
  rw [absorb_stream]
  rfl

theorem coverLocked_winds
    {body : StreamEnv → SecureStream → Outcome EwpError Unit × SecureStream}
    (hbody : SendsCover body) (cause : Option IdleTest) :
    CoverWinds thread 1 1
      (onCover thread cause (Proc.atomic .sendLocked body)) := by
  rw [onCover, Proc.embed_atomic]
  apply Proc.winds_atomic Nat.one_pos
  intro env s _
  have hstep := absorb_absorbed thread cause
    (hbody.sends (env.streamAt (s.tick env.elapsed).clock) s.stream)
  obtain ⟨more, hmore, hone, _⟩ := hstep.frames
  refine ⟨more.filter (fun e => e.thread = thread), ?_,
    (List.length_filter_le _ _).trans hone⟩
  dsimp only
  rw [CoverStream.framesOf, hmore, List.filter_append]
  rfl

theorem sendCoverPad_winds (cause : Option IdleTest) (padLen : ℤ) :
    CoverWinds thread 0 1 (onCover thread cause (sendCoverPad P padLen)) := by
  rw [onCover_sendCoverPad]
  apply Proc.winds_atomic_bind
  intro env s hclosed
  refine ⟨framesOf_absorb_stream cause env s, ?_⟩
  dsimp only
  rw [if_pos (show s.stream.closed = true from hclosed)]
  exact Proc.winds_ret

theorem coverFrame_winds (last : ℤ) (test : IdleTest) :
    CoverWinds thread 0 1 (coverFrame P thread cfg last test) := by
  unfold coverFrame
  split
  · exact (sendCoverPad_winds (some test) (-1)).bind
      (fun _ => Proc.winds_ret (n := 0))
  · exact Proc.winds_ret

/-- Between its two actions `SendCoverPad` may have a frame to hand over. -/
theorem sendCoverPad_windsFromAnywhere
    {β : Type} (cause : Option IdleTest) (padLen : ℤ)
    {rest : Outcome EwpError Unit → CoverProc β}
    (hrest : ∀ outcome, CoverWinds thread 0 3 (rest outcome)) :
    Proc.Throughout (fun p => CoverWinds thread 1 6 (p.bind rest))
      (onCover thread cause (sendCoverPad P padLen)) := by
  have hreturn : ∀ outcome, CoverWinds thread 1 6 (rest outcome) :=
    fun outcome => (hrest outcome).mono (Nat.zero_le 1) (by omega)
  have hwhole : ∀ {p : CoverProc (Outcome EwpError Unit)},
      CoverWinds thread 1 1 p → CoverWinds thread 1 6 (p.bind rest) :=
    fun hp => (hp.bind hrest).mono le_rfl (by omega)
  have hstart := hwhole ((sendCoverPad_winds (P := P) cause padLen).mono
    (Nat.zero_le 1) le_rfl)
  have hbody := sendFrameLocked_sendsCover P padLen
  rw [onCover_sendCoverPad] at hstart ⊢
  generalize sendFrameLocked P framePaddingOnly [] [] padLen = body
    at hstart hbody ⊢
  refine Proc.Throughout.atomic_bind hstart ?_
  intro closed
  cases closed with
  | true => exact hreturn _
  | false => exact ⟨hwhole (coverLocked_winds hbody cause), fun _ _ => hreturn _⟩

theorem coverPass_windsFromAnywhere
    {next : ℤ → CoverProc CoverExit}
    (hnext : ∀ deadline, CoverWinds thread 0 2 (next deadline))
    (hrest : ∀ deadline, WindsFromAnywhere thread (next deadline)) :
    WindsFromAnywhere thread (coverPass P thread cfg next) := by
  have hreset : ∀ now failed, CoverWinds thread 0 3
      ((setTimer cfg (some ⟨thread, now, failed⟩)).bind next) :=
    fun now failed => setTimer_winds _ hnext
  have htested : ∀ last before now, CoverWinds thread 0 4
      ((coverFrame P thread cfg last ⟨before, now⟩).bind
        (fun failed => (setTimer cfg (some ⟨thread, now, failed⟩)).bind next)) :=
    fun last before now =>
      ((coverFrame_winds last _).bind (hreset now)).mono le_rfl (by omega)
  have hloaded : ∀ last before, CoverWinds thread 0 5
      ((Proc.atomic CoverLabel.since (fun env s =>
        ((s.tick env.elapsed).clock, s.tick env.elapsed))).bind (fun now =>
          (coverFrame P thread cfg last ⟨before, now⟩).bind (fun failed =>
            (setTimer cfg (some ⟨thread, now, failed⟩)).bind next))) :=
    fun last before => Proc.winds_atomic_bind
      (fun env s _ => ⟨rfl, htested last before _⟩)
  refine Proc.Throughout.atomic_bind ?_ ?_
  · exact Proc.winds_atomic_bind
      (fun env s _ => ⟨rfl, (hloaded _ _).mono (Nat.zero_le 1) le_rfl⟩)
  rintro ⟨last, before⟩
  refine Proc.Throughout.atomic_bind
    ((hloaded last before).mono (Nat.zero_le 1) (by omega)) ?_
  intro now
  refine Proc.Throughout.bind ?_ ?_
  · unfold coverFrame
    split
    · refine Proc.Throughout.bind ?_ ?_
      · simp only [Proc.bind_assoc]
        exact sendCoverPad_windsFromAnywhere (some ⟨before, now⟩) (-1)
          (fun outcome => hreset now (outcome != .ok ()))
      · exact fun outcome =>
          (hreset now (outcome != .ok ())).mono (Nat.zero_le 1) (by omega)
    · exact (hreset now false).mono (Nat.zero_le 1) (by omega)
  · intro failed
    exact Proc.Throughout.atomic_bind
      ((hreset now failed).mono (Nat.zero_le 1) (by omega)) hrest

theorem coverPasses_windsFromAnywhere (fuel : ℕ) (deadline : ℤ) :
    WindsFromAnywhere thread (coverPasses P thread cfg fuel deadline) := by
  induction fuel generalizing deadline with
  | zero => exact Proc.winds_ret
  | succ fuel ih =>
      have hnow : CoverWinds thread 1 6
          (coverPasses P thread cfg (fuel + 1) deadline) :=
        (coverPasses_winds (fuel + 1) deadline).mono (Nat.zero_le 1) (by omega)
      unfold coverPasses at hnow ⊢
      refine Proc.Throughout.atomic_bind hnow ?_
      intro stop
      cases stop with
      | true => exact Proc.winds_ret
      | false =>
          refine Proc.Throughout.atomic_bind ?_ ?_
          · refine Proc.Winds.mono (k := 0) (n := 0 + 1)
              (Proc.winds_atomic_bind ?_) (Nat.zero_le 1) (by omega)
            intro env s hclosed
            refine ⟨rfl, ?_⟩
            dsimp only
            rw [if_pos (show s.stream.closed = true from hclosed)]
            exact Proc.winds_ret
          · intro closed
            cases closed with
            | true => exact Proc.winds_ret
            | false =>
                exact coverPass_windsFromAnywhere (coverPasses_winds fuel) ih

theorem startCoverTraffic_windsFromAnywhere (fuel : ℕ) :
    WindsFromAnywhere thread (startCoverTraffic P thread cfg fuel) := by
  have hloop : CoverWinds thread 0 3 (coverLoop P thread cfg fuel) :=
    setTimer_winds none (coverPasses_winds fuel)
  have hmake : CoverWinds thread 0 4
      ((Proc.atomic CoverLabel.makeStop (fun env s =>
        ((), { s.tick env.elapsed with
          coverStop := .made, makes := s.makes + 1 }))).bind
        (fun _ => coverLoop P thread cfg fuel)) :=
    Proc.winds_atomic_bind (fun _ _ _ => ⟨rfl, hloop⟩)
  unfold startCoverTraffic
  split
  · exact Proc.winds_ret
  refine Proc.Throughout.atomic_bind ?_ ?_
  · refine Proc.Winds.mono (k := 0) (n := 4 + 1) (Proc.winds_atomic_bind ?_)
      (Nat.zero_le 1) (by omega)
    intro env s _
    dsimp only
    split
    · exact ⟨rfl, Proc.winds_ret⟩
    · exact ⟨rfl, hmake⟩
  · intro won
    cases won with
    | false => exact Proc.winds_ret
    | true =>
        refine Proc.Throughout.atomic_bind
          (hmake.mono (Nat.zero_le 1) (by omega)) ?_
        intro _
        exact Proc.Throughout.atomic_bind (hloop.mono (Nat.zero_le 1) (by omega))
          (coverPasses_windsFromAnywhere fuel)

/-! ## Fuel -/

theorem coverPasses_lasts (fuel : ℕ) (deadline : ℤ) :
    Proc.Lasts (fun exit => exit = .running) fuel
      (coverPasses P thread cfg fuel deadline) := by
  induction fuel generalizing deadline with
  | zero => trivial
  | succ fuel ih =>
      have hstopped : Proc.Lasts (fun exit => exit = CoverExit.running) fuel
          (.ret .stopped : CoverProc CoverExit) := by
        cases fuel <;> simp [Proc.Lasts]
      unfold coverPasses
      intro env s
      change Proc.Lasts _ fuel (if _ then _ else _)
      split
      · exact hstopped
      refine Proc.lasts_bind _ (fun closed => ?_)
      split
      · exact hstopped
      refine Proc.lasts_bind _ ?_
      rintro ⟨last, before⟩
      refine Proc.lasts_bind _ (fun now => ?_)
      refine Proc.lasts_bind _ (fun failed => ?_)
      exact Proc.lasts_bind _ ih

theorem startCoverTraffic_lasts (fuel : ℕ) :
    Proc.Lasts (fun exit => exit = .running) fuel
      (startCoverTraffic P thread cfg fuel) := by
  have hother : ∀ exit, exit ≠ CoverExit.running →
      Proc.Lasts (fun exit => exit = CoverExit.running) fuel
        (.ret exit : CoverProc CoverExit) := by
    intro exit hexit
    cases fuel with
    | zero => trivial
    | succ fuel => exact hexit
  unfold startCoverTraffic
  split
  · exact hother _ (by decide)
  refine Proc.lasts_bind _ (fun won => ?_)
  split
  · refine Proc.lasts_bind _ (fun _ => ?_)
    exact Proc.lasts_bind _ (coverPasses_lasts fuel)
  · exact hother _ (by decide)

/-! ## Every interleaving -/

theorem CoveredCall.windsFromAnywhere (fuel : ℕ) (cfg : CoverPlan A) :
    WindsFromAnywhere thread
      ((CoveredCall.start cfg).proc P fuel thread) := by
  refine Proc.Throughout.bind ?_ (fun _ => Proc.winds_ret)
  exact (startCoverTraffic_windsFromAnywhere fuel).mono
    (fun p hwinds => hwinds.bind (m := 0) (fun _ => Proc.winds_ret))

/-- Once the stream is closed the goroutine hands over at most one more frame and
returns within six of its turns.  (The schedule is too short for the fuel of the
loop to run out.) -/
theorem cover_loop_winds_down
    (P : Primitives) (fuel : ℕ) (keys : SessionKeys) (side : Side) (clock : ℤ)
    (calls : List (CoveredCall A)) (schedule rest : List (ℕ × CoverEnv))
    (thread : ℕ) (cfg : CoverPlan A)
    (hcall : calls[thread]? = some (.start cfg))
    (hfuel : schedule.length + rest.length < fuel)
    (hclosed : ((coverPool P fuel (newCoverStream keys side clock) calls).run
      schedule).shared.stream.closed = true) :
    let pool := coverPool P fuel (newCoverStream keys side clock) calls
    (∃ last, (pool.run (schedule ++ rest)).shared.framesOf thread =
        (pool.run schedule).shared.framesOf thread ++ last ∧ last.length ≤ 1) ∧
      (6 ≤ Pool.turns thread rest →
        ∃ exit, exit ≠ CoverExit.running ∧
          (pool.run (schedule ++ rest)).threads[thread]?.bind Proc.result? =
            some (.cover exit)) := by
  intro pool
  have hstart : pool.threads[thread]? =
      some ((CoveredCall.start cfg).proc P fuel thread) := by
    simp [pool, coverPool, hcall]
  have hacts : ∀ i p, (pool.run schedule).threads[i]? = some p →
      Proc.Acts (CoverAction P i) p := by
    refine Pool.run_each (fun _ _ _ _ hacts => hacts.2) ?_ schedule
    intro i p hp
    obtain ⟨call, _, rfl⟩ := coverPool_thread hp
    exact call.acts fuel
  have hwinds : ∀ i p, (pool.run schedule).threads[i]? = some p → i = thread →
      WindsFromAnywhere thread p := by
    refine Pool.run_each (φ := fun i p => i = thread → WindsFromAnywhere thread p)
      (fun _ _ _ _ hnow env s hi => (hnow hi).2 env s) ?_ schedule
    rintro i p hp rfl
    obtain rfl := Option.some.inj (hstart.symm.trans hp)
    exact CoveredCall.windsFromAnywhere fuel cfg
  have hlt : thread < (pool.run schedule).threads.length := by
    rw [Pool.run_threads_length]
    exact (List.getElem?_eq_some_iff.mp hstart).1
  have hp := List.getElem?_eq_getElem hlt
  obtain ⟨hlast, hends⟩ := Pool.run_winds rest hacts
    (fun i label update haction => haction.staysClosed)
    (fun i label update hne haction => haction.framesOf_other hne)
    hclosed hp (hwinds thread _ hp rfl).now
  rw [Pool.run_append]
  refine ⟨hlast, fun hturns => ?_⟩
  obtain ⟨result, hresult⟩ := hends hturns
  have hlasts : Proc.Lasts
      (fun result => ¬∃ exit, exit ≠ CoverExit.running ∧ result = .cover exit) fuel
      ((CoveredCall.start cfg).proc P fuel thread) := by
    refine (startCoverTraffic_lasts fuel).map ?_
    intro exit hbad
    by_contra hexit
    exact hbad ⟨exit, hexit, rfl⟩
  have hfew : Pool.turns thread (schedule ++ rest) < fuel := by
    have hle : Pool.turns thread (schedule ++ rest) ≤ (schedule ++ rest).length :=
      List.countP_le_length
    rw [List.length_append] at hle
    omega
  obtain ⟨exit, hexit, rfl⟩ := not_not.mp (Pool.run_lasts hstart hlasts hfew
    (by rw [Pool.run_append]; exact hresult))
  exact ⟨exit, hexit, by rw [hresult]; rfl⟩

/-- The stream is closed while the goroutine is about to enter `writeMu`: it hands
over one frame, and ends in its next pass. -/
theorem cover_loop_winds_down_midway :
    let pool := coverPool Transparent.suite 20
      (newCoverStream Transparent.keys .client 1000000000)
      [.start steadyPlan, .method .close]
    let schedule := List.replicate 8 (0, promptEnv) ++ [(1, promptEnv)]
    let rest := List.replicate 6 (0, promptEnv)
    ((pool.run schedule).shared.framesOf 0).length = 0 ∧
      ((pool.run (schedule ++ rest)).shared.framesOf 0).length = 1 ∧
      ∃ exit, exit ≠ CoverExit.running ∧
        (pool.run (schedule ++ rest)).threads[0]?.bind Proc.result? =
          some (.cover exit) := by
  intro pool schedule rest
  refine ⟨by decide +kernel, by decide +kernel, ?_⟩
  exact (cover_loop_winds_down Transparent.suite 20 Transparent.keys .client
    1000000000 [.start steadyPlan, .method .close] schedule rest 0 steadyPlan rfl
    (by decide) (by decide +kernel)).2 (by decide)

end SingEwp
