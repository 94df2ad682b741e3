import SingEwp.Interleaving

/-!
# Pools in lock step

A relation between two runs.  Two threads are in step if they take their actions
together, from related states to related states, and end with related results;
the data they compute with may differ.  Two pools of such threads stay in step
under every schedule they share.  With a relation that says what an observer
sees of a state, this is noninterference for all interleavings.
-/

namespace SingEwp

variable {ℓ ε σ τ α β α' β' : Type}

/-- The threads take the same turns under every environment that is `ok`. -/
inductive Proc.InStep (ok : ε → Prop) (R : σ → τ → Prop) (Q : α → β → Prop) :
    Proc ℓ ε σ α → Proc ℓ ε τ β → Prop
  | ret {a : α} {b : β} (hresult : Q a b) : InStep ok R Q (.ret a) (.ret b)
  | act {label : ℓ} {update : ε → σ → σ} {update' : ε → τ → τ}
      {next : ε → σ → Proc ℓ ε σ α} {next' : ε → τ → Proc ℓ ε τ β}
      (hupdate : ∀ env s t, ok env → R s t → R (update env s) (update' env t))
      (hnext : ∀ env s t, ok env → R s t →
        InStep ok R Q (next env s) (next' env t)) :
      InStep ok R Q (.act label update next) (.act label update' next')

namespace Proc.InStep

variable {ok : ε → Prop} {R : σ → τ → Prop} {Q : α → β → Prop}
variable {Q' : α' → β' → Prop}

theorem bind
    {p : Proc ℓ ε σ α} {p' : Proc ℓ ε τ β} {rest : α → Proc ℓ ε σ α'}
    {rest' : β → Proc ℓ ε τ β'} (hfirst : InStep ok R Q p p')
    (hrest : ∀ a b, Q a b → InStep ok R Q' (rest a) (rest' b)) :
    InStep ok R Q' (p.bind rest) (p'.bind rest') := by
  induction hfirst with
  | ret hresult => exact hrest _ _ hresult
  | act hupdate _ ih => exact .act hupdate ih

theorem atomic
    {label : ℓ} {body : ε → σ → α × σ} {body' : ε → τ → β × τ}
    (hbody : ∀ env s t, ok env → R s t →
      Q (body env s).1 (body' env t).1 ∧ R (body env s).2 (body' env t).2) :
    InStep ok R Q (Proc.atomic label body) (Proc.atomic label body') :=
  .act (fun env s t hok hst => (hbody env s t hok hst).2)
    (fun env s t hok hst => .ret (hbody env s t hok hst).1)

theorem result
    {p : Proc ℓ ε σ α} {p' : Proc ℓ ε τ β} (hstep : InStep ok R Q p p') :
    Option.Rel Q p.result? p'.result? := by
  cases hstep with
  | ret hresult => exact .some hresult
  | act _ _ => exact .none

end Proc.InStep

namespace Pool

variable {ok : ε → Prop} {R : σ → τ → Prop} {Q : α → β → Prop}

/-- Related states, and threads that are in step one by one. -/
structure InStep (ok : ε → Prop) (R : σ → τ → Prop) (Q : α → β → Prop)
    (pool : Pool ℓ ε σ α) (pool' : Pool ℓ ε τ β) : Prop where
  shared : R pool.shared pool'.shared
  threads : ∀ thread : ℕ, Option.Rel (Proc.InStep ok R Q)
    pool.threads[thread]? pool'.threads[thread]?

theorem InStep.step
    {pool : Pool ℓ ε σ α} {pool' : Pool ℓ ε τ β}
    (hpools : InStep ok R Q pool pool') {turn : ℕ × ε} (hok : ok turn.2) :
    InStep ok R Q (pool.step turn) (pool'.step turn) := by
  have hthread := hpools.threads turn.1
  generalize hp : pool.threads[turn.1]? = p at hthread
  generalize hp' : pool'.threads[turn.1]? = p' at hthread
  cases hthread with
  | none =>
      have hsame : pool.step turn = pool := by simp [Pool.step, hp]
      have hsame' : pool'.step turn = pool' := by simp [Pool.step, hp']
      rwa [hsame, hsame']
  | some hstep =>
      cases hstep with
      | ret hresult =>
          have hsame : pool.step turn = pool := by simp [Pool.step, hp]
          have hsame' : pool'.step turn = pool' := by simp [Pool.step, hp']
          rwa [hsame, hsame']
      | act hupdate hnext =>
          have hbound := (List.getElem?_eq_some_iff.mp hp).1
          have hbound' := (List.getElem?_eq_some_iff.mp hp').1
          rw [step_eq_of_act hp, step_eq_of_act hp']
          refine ⟨hupdate _ _ _ hok hpools.shared, fun thread => ?_⟩
          by_cases heq : turn.1 = thread
          · subst heq
            rw [List.getElem?_set_self hbound, List.getElem?_set_self hbound']
            exact .some (hnext _ _ _ hok hpools.shared)
          · rw [List.getElem?_set_ne heq, List.getElem?_set_ne heq]
            exact hpools.threads thread

/-- Pools that start in step stay in step. -/
theorem InStep.run
    {pool : Pool ℓ ε σ α} {pool' : Pool ℓ ε τ β}
    (hpools : InStep ok R Q pool pool') {schedule : List (ℕ × ε)}
    (hok : ∀ turn ∈ schedule, ok turn.2) :
    InStep ok R Q (pool.run schedule) (pool'.run schedule) := by
  induction schedule generalizing pool pool' with
  | nil => exact hpools
  | cons turn rest ih =>
      exact ih (hpools.step (hok turn List.mem_cons_self))
        (fun turn hmem => hok turn (List.mem_cons_of_mem _ hmem))

end Pool

end SingEwp
