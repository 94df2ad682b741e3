import SingEwp.Interleaving

/-!
# Runs of single threads

Schedules that exist.  A thread that has the pool to itself finishes, and on the
way there is a moment at which it has appended exactly one entry to the log, if
each of its actions appends at most one.  All threads of a pool can be run to
their ends one after the other.  `Pool.Contracts.exists_overtaken` puts such runs
together: the entries of a second thread come between those of the first.
`Proc.trace` records the actions of an undisturbed execution.
-/

namespace SingEwp

variable {ℓ ε σ α β : Type}

/-! ## Traces -/

/-- One action of a thread: the environment it met and the state it changed. -/
structure Moment (ℓ ε σ : Type) where
  label : ℓ
  env : ε
  before : σ
  after : σ

namespace Proc

/-- The actions of the undisturbed execution `exec`. -/
def trace : Proc ℓ ε σ α → (ℕ → ε) → σ → List (Moment ℓ ε σ)
  | .ret _, _, _ => []
  | .act label update next, supply, s =>
      ⟨label, supply 0, s, update (supply 0) s⟩ ::
        trace (next (supply 0) s) (fun k => supply (k + 1)) (update (supply 0) s)

@[simp] theorem trace_ret (a : α) (supply : ℕ → ε) (s : σ) :
    (Proc.ret a : Proc ℓ ε σ α).trace supply s = [] := rfl

@[simp] theorem trace_atomic
    (label : ℓ) (body : ε → σ → α × σ) (supply : ℕ → ε) (s : σ) :
    (atomic label body).trace supply s =
      [⟨label, supply 0, s, (body (supply 0) s).2⟩] := rfl

@[simp] theorem trace_observe
    (label : ℓ) (read : σ → α) (supply : ℕ → ε) (s : σ) :
    (observe label read).trace supply s = [⟨label, supply 0, s, s⟩] := rfl

theorem trace_bind
    (p : Proc ℓ ε σ α) (rest : α → Proc ℓ ε σ β)
    (supply : ℕ → ε) (s : σ) :
    (p.bind rest).trace supply s =
      p.trace supply s ++
        (rest (p.exec supply s).1).trace (p.exec supply s).2.2
          (p.exec supply s).2.1 := by
  induction p generalizing supply s with
  | ret result => rfl
  | act label update next ih =>
      simp only [bind, trace, exec, List.cons_append]
      rw [ih]

end Proc

/-! ## Schedules -/

namespace Pool

theorem exists_solo_end
    {pool : Pool ℓ ε σ α} {thread : ℕ} (hthread : thread < pool.threads.length)
    (env : ε) :
    ∃ m result, (pool.run (List.replicate m (thread, env))).threads[thread]? =
      some (.ret result) := by
  have hfair : ∀ n, ∃ m, n ≤ m ∧ ((fun _ : ℕ => (thread, env)) m).1 = thread :=
    fun n => ⟨n, le_rfl, rfl⟩
  obtain ⟨m, result, hdone⟩ := finishes_of_fair hthread hfair
  refine ⟨m, result, ?_⟩
  rwa [List.map_const', List.length_range] at hdone

theorem exists_end
    (pool : Pool ℓ ε σ α) (env : ε) :
    ∃ schedule : List (ℕ × ε), (∀ turn ∈ schedule, turn.2 = env) ∧
      ∀ thread < pool.threads.length, ∃ result,
        (pool.run schedule).threads[thread]? = some (.ret result) := by
  suffices hfirst : ∀ k ≤ pool.threads.length, ∃ schedule : List (ℕ × ε),
      (∀ turn ∈ schedule, turn.2 = env) ∧ ∀ thread < k, ∃ result,
        (pool.run schedule).threads[thread]? = some (.ret result) from
    hfirst pool.threads.length le_rfl
  intro k
  induction k with
  | zero => exact fun _ => ⟨[], by simp, by simp⟩
  | succ k ih =>
      intro hk
      obtain ⟨schedule, henv, hdone⟩ := ih (by omega)
      have hlt : k < (pool.run schedule).threads.length := by
        rw [run_threads_length]
        omega
      obtain ⟨m, result, hend⟩ := exists_solo_end hlt env
      refine ⟨schedule ++ List.replicate m (k, env), ?_, ?_⟩
      · intro turn hturn
        rcases List.mem_append.mp hturn with hold | hnew
        · exact henv turn hold
        · rw [List.eq_of_mem_replicate hnew]
      · intro thread hthread
        rw [run_append]
        by_cases heq : thread = k
        · rw [heq]
          exact ⟨result, hend⟩
        · -- the threads before have finished and take no turns
          obtain ⟨result', hdone'⟩ := hdone thread (by omega)
          refine ⟨result', ?_⟩
          rw [run_idle, hdone']
          intro turn hturn
          rw [List.eq_of_mem_replicate hturn]
          exact Ne.symm heq

section Contracts

variable {I : σ → Prop} {ok : ℓ → ε → σ → Prop} {log : σ → List β}
variable {During : ℕ → List β → Prop} {Post : ℕ → List β → α → Prop}

/-- The contracts of all threads, each with what it has appended so far. -/
structure Contracts (I : σ → Prop) (ok : ℓ → ε → σ → Prop) (log : σ → List β)
    (During : ℕ → List β → Prop) (Post : ℕ → List β → α → Prop)
    (so : ℕ → List β) (pool : Pool ℓ ε σ α) : Prop where
  inv : I pool.shared
  threads : ∀ thread p, pool.threads[thread]? = some p →
    Proc.Meets I ok log (During thread) (Post thread) (so thread) p

theorem Contracts.run
    {so : ℕ → List β} {pool : Pool ℓ ε σ α} {schedule : List (ℕ × ε)}
    (hcontracts : Contracts I ok log During Post so pool)
    (hadmits : pool.Admits ok schedule) :
    Contracts I ok log During Post
      (fun thread => so thread ++ pool.contribution log thread schedule)
      (pool.run schedule) := by
  obtain ⟨hinv, hthreads⟩ :=
    run_meets_from so hcontracts.threads hadmits hcontracts.inv
  exact ⟨hinv, hthreads⟩

/-- While one thread runs alone, the log grows by its contribution. -/
theorem Contracts.run_solo
    {so : ℕ → List β} {pool : Pool ℓ ε σ α} {schedule : List (ℕ × ε)}
    {thread : ℕ} (hcontracts : Contracts I ok log During Post so pool)
    (hadmits : pool.Admits ok schedule)
    (hsolo : ∀ turn ∈ schedule, turn.1 = thread) :
    log (pool.run schedule).shared =
        log pool.shared ++ pool.contribution log thread schedule ∧
      ∀ other, other ≠ thread → pool.contribution log other schedule = [] := by
  induction schedule generalizing pool so with
  | nil => simp [contribution]
  | cons turn rest ih =>
      obtain ⟨new, hnext, hlog, _, hafter⟩ :=
        step_meets hcontracts.threads hadmits.1 hcontracts.inv
      obtain ⟨hrest, hothers⟩ := ih ⟨hnext, hafter⟩ hadmits.2
        (fun later hlater => hsolo later (List.mem_cons_of_mem _ hlater))
      have hturn := hsolo turn List.mem_cons_self
      constructor
      · rw [run_cons, hrest, hlog, contribution_cons hlog, if_pos hturn,
          List.append_assoc]
      · intro other hne
        rw [contribution_cons hlog, hothers other hne, hturn,
          if_neg (Ne.symm hne), List.append_nil]

theorem admits_of_env
    {env : ε} {schedule : List (ℕ × ε)} (hok : ∀ label s, ok label env s)
    (henv : ∀ turn ∈ schedule, turn.2 = env) (pool : Pool ℓ ε σ α) :
    pool.Admits ok schedule := by
  apply admits_of_turns
  intro turn hturn label s
  rw [henv turn hturn]
  exact hok label s

theorem Contracts.run_alone
    {so : ℕ → List β} {pool : Pool ℓ ε σ α} {env : ε}
    (hcontracts : Contracts I ok log During Post so pool)
    (hok : ∀ label s, ok label env s) (thread m : ℕ) :
    Contracts I ok log During Post
        (fun other => so other ++
          pool.contribution log other (List.replicate m (thread, env)))
        (pool.run (List.replicate m (thread, env))) ∧
      log (pool.run (List.replicate m (thread, env))).shared =
        log pool.shared ++
          pool.contribution log thread (List.replicate m (thread, env)) ∧
      ∀ other, other ≠ thread →
        pool.contribution log other (List.replicate m (thread, env)) = [] := by
  have hadmits : pool.Admits ok (List.replicate m (thread, env)) :=
    admits_of_env hok (fun turn hturn => by rw [List.eq_of_mem_replicate hturn])
      pool
  exact ⟨hcontracts.run hadmits, hcontracts.run_solo hadmits
    (fun turn hturn => by rw [List.eq_of_mem_replicate hturn])⟩

/-- A thread that has to append something comes to have appended one entry. -/
theorem Contracts.exists_first_entry
    {so : ℕ → List β} {pool : Pool ℓ ε σ α} {thread : ℕ} {env : ε}
    {action : ℓ → (ε → σ → σ) → Prop} {p : Proc ℓ ε σ α}
    (hcontracts : Contracts I ok log During Post so pool)
    (hok : ∀ label s, ok label env s)
    (hone : ∀ label update, action label update → ∀ env s,
      (log (update env s)).length ≤ (log s).length + 1)
    (hp : pool.threads[thread]? = some p) (hacts : Proc.Acts action p)
    (hmore : ∀ result, ¬Post thread (so thread) result) :
    ∃ m entry,
      log (pool.run (List.replicate m (thread, env))).shared =
        log pool.shared ++ [entry] := by
  induction p generalizing pool so with
  | ret result =>
      exact absurd (hcontracts.threads thread _ hp).2 (hmore result)
  | act label update next ih =>
      have hguard : ∀ label update next,
          pool.threads[(thread, env).1]? = some (.act label update next) →
            ok label (thread, env).2 pool.shared :=
        fun label _ _ _ => hok label pool.shared
      obtain ⟨new, hnext, hlog, _, hafter⟩ :=
        step_meets hcontracts.threads hguard hcontracts.inv
      have hact : pool.threads[(thread, env).1]? =
          some (.act label update next) := hp
      have hstep := step_eq_of_act hact
      have hbound := (List.getElem?_eq_some_iff.mp hp).1
      cases new with
      | nil =>
          have hthread : (pool.step (thread, env)).threads[thread]? =
              some (next env pool.shared) := by
            rw [hstep]
            exact List.getElem?_set_self hbound
          obtain ⟨m, entry, hentry⟩ := ih env pool.shared ⟨hnext, hafter⟩ hthread
            (hacts.2 env pool.shared) (by simpa using hmore)
          refine ⟨m + 1, entry, ?_⟩
          rw [List.replicate_succ, run_cons, hentry, hlog, List.append_nil]
      | cons entry more =>
          have hlen := hone label update hacts.1 env pool.shared
          have hupdate : (pool.step (thread, env)).shared =
              update env pool.shared := by rw [hstep]
          rw [← hupdate, hlog, List.length_append, List.length_cons] at hlen
          have hnone : more = [] := List.eq_nil_of_length_eq_zero (by omega)
          subst hnone
          exact ⟨1, entry, hlog⟩

/-- Between the first entry of one thread and its next, another thread can run
to its end. -/
theorem Contracts.exists_overtaken
    {pool : Pool ℓ ε σ α} {i j : ℕ} {env : ε}
    {action : ℓ → (ε → σ → σ) → Prop} {p : Proc ℓ ε σ α}
    (hcontracts : Contracts I ok log During Post (fun _ => []) pool)
    (hok : ∀ label s, ok label env s)
    (hone : ∀ label update, action label update → ∀ env s,
      (log (update env s)).length ≤ (log s).length + 1)
    (hij : i ≠ j) (hj : j < pool.threads.length)
    (hp : pool.threads[i]? = some p) (hacts : Proc.Acts action p)
    (hmore : ∀ result, ¬Post i [] result) :
    ∃ schedule entry share tail so,
      (∀ turn ∈ schedule, turn.2 = env) ∧
      (∀ thread < pool.threads.length, ∃ result,
        (pool.run schedule).threads[thread]? = some (.ret result)) ∧
      Contracts I ok log During Post so (pool.run schedule) ∧
      log (pool.run schedule).shared =
        log pool.shared ++ [entry] ++ share ++ tail ∧
      During i [entry] ∧ ∃ result, Post j share result := by
  obtain ⟨m, entry, hentry⟩ :=
    hcontracts.exists_first_entry hok hone hp hacts hmore
  obtain ⟨hfirst, hlog, hothers⟩ := hcontracts.run_alone hok i m
  have hshare : [entry] = pool.contribution log i (List.replicate m (i, env)) :=
    List.append_cancel_left (hentry.symm.trans hlog)
  have hilt : i < (pool.run (List.replicate m (i, env))).threads.length := by
    rw [run_threads_length]
    exact (List.getElem?_eq_some_iff.mp hp).1
  have hduring := (hfirst.threads i _ (List.getElem?_eq_getElem hilt)).during
  rw [← hshare, List.nil_append] at hduring
  have hjlt : j < (pool.run (List.replicate m (i, env))).threads.length := by
    rwa [run_threads_length]
  obtain ⟨m', result, hdone⟩ := exists_solo_end hjlt env
  obtain ⟨hsecond, hlog', _⟩ := hfirst.run_alone hok j m'
  have hpost := (hsecond.threads j _ hdone).2
  rw [hothers j (Ne.symm hij), List.append_nil, List.nil_append] at hpost
  obtain ⟨schedule, henv, hend⟩ := exists_end
    ((pool.run (List.replicate m (i, env))).run (List.replicate m' (j, env))) env
  have hadmits := admits_of_env hok henv
    ((pool.run (List.replicate m (i, env))).run (List.replicate m' (j, env)))
  have hthird := hsecond.run hadmits
  obtain ⟨tail, htail⟩ :=
    run_log_isPrefix _ hsecond.threads hadmits hsecond.inv
  rw [← run_append, ← run_append] at hthird
  refine ⟨List.replicate m (i, env) ++ List.replicate m' (j, env) ++ schedule,
    entry, _, tail, _, ?_, ?_, hthird, ?_, hduring, result, hpost⟩
  · intro turn hturn
    rcases List.mem_append.mp hturn with hturn | hturn
    · rcases List.mem_append.mp hturn with hturn | hturn
      · rw [List.eq_of_mem_replicate hturn]
      · rw [List.eq_of_mem_replicate hturn]
    · exact henv turn hturn
  · intro thread hthread
    rw [run_append, run_append]
    exact hend thread (by rwa [run_threads_length, run_threads_length])
  · rw [run_append, run_append, ← htail, hlog', hentry]

end Contracts

end Pool

end SingEwp
