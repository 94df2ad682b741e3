import Mathlib.Algebra.BigOperators.Group.Finset.Basic
import Mathlib.Algebra.Order.BigOperators.Group.Finset
import Mathlib.Data.List.Perm.Basic
import Mathlib.Tactic

/-!
# Threads as resumptions and their interleavings

A thread is a tree of atomic actions.  Each action carries a label naming the
critical section it stands for, reads one environment value (random draws,
clock readings, results of calls to the outside) and the shared state, updates
that state, and decides how the thread continues.  A pool runs any number of
such threads over one shared state under an arbitrary schedule.

Three proof rules.  `Pool.run_invariant` needs only which actions the threads
are built from.  The second is thread-modular: relative to an append-only log
kept in the shared state, `Proc.Meets` says what one thread contributes to the
log, at every moment and when it returns.  `Pool.run_meets` lifts the contracts
of the single threads to every interleaving, and `Pool.run_log_perm` and
`Pool.run_log_filter` relate the whole log to the separate contributions.  The
third is rely-guarantee reasoning over a preorder along which the state grows:
`Proc.Grants` lets a thread keep what it has learnt of the state for as long as
growth preserves it, and `Pool.run_grants` composes such threads.
`Pool.finishes_of_fair` is about progress.
-/

namespace SingEwp

variable {ℓ ε σ α β κ τ : Type}

theorem sum_range_countP (l : List α) (p : α → Bool) :
    ∑ i ∈ Finset.range l.length, (if (l[i]?).any p then 1 else 0) =
      l.countP p := by
  induction l with
  | nil => simp
  | cons x rest ih =>
      rw [List.length_cons, Finset.sum_range_succ', List.countP_cons]
      simpa using ih

theorem flatMap_range_single (a n : ℕ) (l : List α) :
    (List.range n).flatMap (fun i => if a = i then l else []) =
      if a < n then l else [] := by
  induction n with
  | zero => simp
  | succ n ih =>
      rw [List.range_succ, List.flatMap_append, ih]
      by_cases hlt : a < n
      · simp [hlt, Nat.lt_succ_of_lt hlt, hlt.ne]
      · by_cases heq : a = n
        · simp [heq]
        · have hnot : ¬a < n + 1 := by omega
          simp [hlt, heq, hnot]

/-- A thread: a finished result, or one atomic action and its continuation. -/
inductive Proc (ℓ ε σ α : Type) where
  | ret (result : α)
  | act (label : ℓ) (update : ε → σ → σ) (next : ε → σ → Proc ℓ ε σ α)

namespace Proc

def bind : Proc ℓ ε σ α → (α → Proc ℓ ε σ β) → Proc ℓ ε σ β
  | .ret result, rest => rest result
  | .act label update next, rest =>
      .act label update (fun env s => bind (next env s) rest)

instance : Monad (Proc ℓ ε σ) where
  pure := Proc.ret
  bind := Proc.bind

/-- One atomic section that returns a value. -/
def atomic (label : ℓ) (body : ε → σ → α × σ) : Proc ℓ ε σ α :=
  .act label (fun env s => (body env s).2) (fun env s => .ret (body env s).1)

def observe (label : ℓ) (read : σ → α) : Proc ℓ ε σ α :=
  atomic label (fun _ s => (read s, s))

/-- The same thread acting on one component of a larger state. -/
def zoom (relabel : ℓ → κ) (get : τ → σ) (put : σ → τ → τ) :
    Proc ℓ ε σ α → Proc κ ε τ α
  | .ret result => .ret result
  | .act label update next =>
      .act (relabel label) (fun env t => put (update env (get t)) t)
        (fun env t => zoom relabel get put (next env (get t)))

def result? : Proc ℓ ε σ α → Option α
  | .ret result => some result
  | .act _ _ _ => none

/-- Undisturbed execution.  The environment supplies one value per action and
the unused supply is returned. -/
def exec : Proc ℓ ε σ α → (ℕ → ε) → σ → α × σ × (ℕ → ε)
  | .ret result, supply, s => (result, s, supply)
  | .act _ update next, supply, s =>
      exec (next (supply 0) s) (fun k => supply (k + 1)) (update (supply 0) s)

theorem result?_eq_some_iff {p : Proc ℓ ε σ α} {result : α} :
    p.result? = some result ↔ p = .ret result := by
  cases p <;> simp [result?]

@[simp] theorem pure_eq (a : α) : (pure a : Proc ℓ ε σ α) = .ret a := rfl

@[simp] theorem bind_eq
    (p : Proc ℓ ε σ α) (rest : α → Proc ℓ ε σ β) :
    (p >>= rest) = p.bind rest := rfl

@[simp] theorem exec_ret (a : α) (supply : ℕ → ε) (s : σ) :
    (Proc.ret a : Proc ℓ ε σ α).exec supply s = (a, s, supply) := rfl

@[simp] theorem exec_atomic
    (label : ℓ) (body : ε → σ → α × σ) (supply : ℕ → ε) (s : σ) :
    (atomic label body).exec supply s =
      ((body (supply 0) s).1, (body (supply 0) s).2,
        fun k => supply (k + 1)) := rfl

@[simp] theorem exec_observe
    (label : ℓ) (read : σ → α) (supply : ℕ → ε) (s : σ) :
    (observe label read).exec supply s =
      (read s, s, fun k => supply (k + 1)) := rfl

theorem exec_bind
    (p : Proc ℓ ε σ α) (rest : α → Proc ℓ ε σ β)
    (supply : ℕ → ε) (s : σ) :
    (p.bind rest).exec supply s =
      (rest (p.exec supply s).1).exec (p.exec supply s).2.2
        (p.exec supply s).2.1 := by
  induction p generalizing supply s with
  | ret result => rfl
  | act label update next ih =>
      simp only [bind, exec]
      exact ih (supply 0) s (fun k => supply (k + 1)) (update (supply 0) s)

@[simp] theorem zoom_ret
    (relabel : ℓ → κ) (get : τ → σ) (put : σ → τ → τ) (a : α) :
    zoom relabel get put (.ret a : Proc ℓ ε σ α) = .ret a := rfl

theorem zoom_atomic
    (relabel : ℓ → κ) (get : τ → σ) (put : σ → τ → τ) (label : ℓ)
    (body : ε → σ → α × σ) :
    zoom relabel get put (atomic label body) =
      atomic (relabel label)
        (fun env t => ((body env (get t)).1, put (body env (get t)).2 t)) := rfl

theorem zoom_bind
    (relabel : ℓ → κ) (get : τ → σ) (put : σ → τ → τ) (p : Proc ℓ ε σ α)
    (rest : α → Proc ℓ ε σ β) :
    zoom relabel get put (p.bind rest) =
      (zoom relabel get put p).bind
        (fun result => zoom relabel get put (rest result)) := by
  induction p with
  | ret result => rfl
  | act label update next ih =>
      simp only [bind, zoom]
      congr 1
      funext env t
      exact ih env (get t)

theorem exec_zoom
    {relabel : ℓ → κ} {get : τ → σ} {put : σ → τ → τ}
    (hget : ∀ s t, get (put s t) = s) (hput : ∀ s s' t, put s (put s' t) = put s t)
    (hself : ∀ t, put (get t) t = t) (p : Proc ℓ ε σ α) (supply : ℕ → ε) (t : τ) :
    (zoom relabel get put p).exec supply t =
      ((p.exec supply (get t)).1, put (p.exec supply (get t)).2.1 t,
        (p.exec supply (get t)).2.2) := by
  induction p generalizing supply t with
  | ret result => simp [hself]
  | act label update next ih =>
      simp only [zoom, exec]
      rw [ih, hget, hput]

/-! ## Contracts of single threads -/

/-- What a thread appends to `log` while the invariant `I` holds and every
action meets the guard `ok`.  `so` is what it has appended already; `During`
holds of that at every moment and `Post` relates it to the result. -/
def Meets (I : σ → Prop) (ok : ℓ → ε → σ → Prop) (log : σ → List β)
    (During : List β → Prop) (Post : List β → α → Prop) :
    List β → Proc ℓ ε σ α → Prop
  | so, .ret result => During so ∧ Post so result
  | so, .act label update next =>
      During so ∧ ∀ env s, I s → ok label env s →
        I (update env s) ∧ ∃ new, log (update env s) = log s ++ new ∧
          Meets I ok log During Post (so ++ new) (next env s)

section Contracts

variable {I : σ → Prop} {ok : ℓ → ε → σ → Prop} {log : σ → List β}
variable {During : List β → Prop}

theorem Meets.during
    {Post : List β → α → Prop} {so : List β} {p : Proc ℓ ε σ α}
    (hmeets : Meets I ok log During Post so p) : During so := by
  cases p with
  | ret result => exact hmeets.1
  | act label update next => exact hmeets.1

theorem Meets.bind
    {γ : Type} {Mid : List β → α → Prop} {Post : List β → γ → Prop}
    {so : List β} {p : Proc ℓ ε σ α} {rest : α → Proc ℓ ε σ γ}
    (hfirst : Meets I ok log During Mid so p)
    (hrest : ∀ mid result, During mid → Mid mid result →
      Meets I ok log During Post mid (rest result)) :
    Meets I ok log During Post so (p.bind rest) := by
  induction p generalizing so with
  | ret result => exact hrest so result hfirst.1 hfirst.2
  | act label update next ih =>
      refine ⟨hfirst.1, ?_⟩
      intro env s hinv hok
      obtain ⟨hnext, new, hlog, htail⟩ := hfirst.2 env s hinv hok
      exact ⟨hnext, new, hlog, ih env s htail⟩

theorem Meets.atomic
    {Post : List β → α → Prop} {so : List β} {label : ℓ}
    {body : ε → σ → α × σ} (hso : During so)
    (hbody : ∀ env s, I s → ok label env s →
      I (body env s).2 ∧ ∃ new, log (body env s).2 = log s ++ new ∧
        During (so ++ new) ∧ Post (so ++ new) (body env s).1) :
    Meets I ok log During Post so (Proc.atomic label body) :=
  ⟨hso, hbody⟩

theorem Meets.observe
    {Post : List β → α → Prop} {so : List β} {label : ℓ} {read : σ → α}
    (hso : During so)
    (hread : ∀ env s, I s → ok label env s → Post so (read s)) :
    Meets I ok log During Post so (Proc.observe label read) := by
  apply Meets.atomic hso
  intro env s hinv hok
  refine ⟨hinv, [], by simp, by simpa using hso, ?_⟩
  simpa using hread env s hinv hok

theorem Meets.mono
    {Post Post' : List β → α → Prop} {so : List β} {p : Proc ℓ ε σ α}
    (hmeets : Meets I ok log During Post so p)
    (himp : ∀ all result, During all → Post all result → Post' all result) :
    Meets I ok log During Post' so p := by
  induction p generalizing so with
  | ret result => exact ⟨hmeets.1, himp so result hmeets.1 hmeets.2⟩
  | act label update next ih =>
      refine ⟨hmeets.1, ?_⟩
      intro env s hinv hok
      obtain ⟨hnext, new, hlog, htail⟩ := hmeets.2 env s hinv hok
      exact ⟨hnext, new, hlog, ih env s htail⟩

theorem Meets.mono_during
    {During' : List β → Prop} {Post : List β → α → Prop} {so : List β}
    {p : Proc ℓ ε σ α} (hmeets : Meets I ok log During Post so p)
    (himp : ∀ all, During all → During' all) :
    Meets I ok log During' Post so p := by
  induction p generalizing so with
  | ret result => exact ⟨himp so hmeets.1, hmeets.2⟩
  | act label update next ih =>
      refine ⟨himp so hmeets.1, ?_⟩
      intro env s hinv hok
      obtain ⟨hnext, new, hlog, htail⟩ := hmeets.2 env s hinv hok
      exact ⟨hnext, new, hlog, ih env s htail⟩

end Contracts

/-- Every action of the thread is one of the given ones. -/
def Acts (action : ℓ → (ε → σ → σ) → Prop) : Proc ℓ ε σ α → Prop
  | .ret _ => True
  | .act label update next =>
      action label update ∧ ∀ env s, Acts action (next env s)

section Acts

variable {action : ℓ → (ε → σ → σ) → Prop}

theorem Acts.bind
    {p : Proc ℓ ε σ α} {rest : α → Proc ℓ ε σ β}
    (hfirst : Acts action p) (hrest : ∀ result, Acts action (rest result)) :
    Acts action (p.bind rest) := by
  induction p with
  | ret result => exact hrest result
  | act label update next ih =>
      exact ⟨hfirst.1, fun env s => ih env s (hfirst.2 env s)⟩

theorem Acts.atomic
    {label : ℓ} {body : ε → σ → α × σ}
    (hbody : action label (fun env s => (body env s).2)) :
    Acts action (Proc.atomic label body) :=
  ⟨hbody, fun _ _ => trivial⟩

theorem Acts.mono
    {action' : ℓ → (ε → σ → σ) → Prop} {p : Proc ℓ ε σ α}
    (hacts : Acts action p)
    (himp : ∀ label update, action label update → action' label update) :
    Acts action' p := by
  induction p with
  | ret result => trivial
  | act label update next ih =>
      exact ⟨himp label update hacts.1, fun env s => ih env s (hacts.2 env s)⟩

theorem Acts.zoom
    {p : Proc ℓ ε σ α} (hacts : Acts action p)
    (relabel : ℓ → κ) (get : τ → σ) (put : σ → τ → τ) :
    Acts
      (fun label' update' => ∃ label update, action label update ∧
        label' = relabel label ∧
        update' = fun env t => put (update env (get t)) t)
      (Proc.zoom relabel get put p) := by
  induction p with
  | ret result => trivial
  | act label update next ih =>
      exact ⟨⟨label, update, hacts.1, rfl, rfl⟩,
        fun env t => ih env (get t) (hacts.2 env (get t))⟩

end Acts

/-- What a thread does in a state that others may only let grow along `R`: each
of its actions keeps `I` and meets the guarantee `G`, and `Post` relates its
result to the state it returns in. -/
def Grants (R : σ → σ → Prop) (G : ℓ → σ → σ → Prop) (I : σ → Prop)
    (Post : α → σ → Prop) : σ → Proc ℓ ε σ α → Prop
  | s, .ret result => Post result s
  | s, .act label update next =>
      ∀ env s', R s s' → I s' →
        I (update env s') ∧ G label s' (update env s') ∧
          Grants R G I Post (update env s') (next env s')

section Grants

variable {R : σ → σ → Prop} {G : ℓ → σ → σ → Prop} {I : σ → Prop}

theorem Grants.bind
    {Mid : α → σ → Prop} {Post : β → σ → Prop} {s : σ} {p : Proc ℓ ε σ α}
    {rest : α → Proc ℓ ε σ β} (hfirst : Grants R G I Mid s p)
    (hrest : ∀ result s', Mid result s' → Grants R G I Post s' (rest result)) :
    Grants R G I Post s (p.bind rest) := by
  induction p generalizing s with
  | ret result => exact hrest result s hfirst
  | act label update next ih =>
      intro env s' hgrown hinv
      obtain ⟨hnext, hstep, htail⟩ := hfirst env s' hgrown hinv
      exact ⟨hnext, hstep, ih env s' htail⟩

theorem Grants.atomic
    {Post : α → σ → Prop} {s : σ} {label : ℓ} {body : ε → σ → α × σ}
    (hbody : ∀ env s', R s s' → I s' →
      I (body env s').2 ∧ G label s' (body env s').2 ∧
        Post (body env s').1 (body env s').2) :
    Grants R G I Post s (Proc.atomic label body) :=
  hbody

theorem Grants.mono
    {Post Post' : α → σ → Prop} {s : σ} {p : Proc ℓ ε σ α}
    (hgrants : Grants R G I Post s p)
    (himp : ∀ result s', Post result s' → Post' result s') :
    Grants R G I Post' s p := by
  induction p generalizing s with
  | ret result => exact himp result s hgrants
  | act label update next ih =>
      intro env s' hgrown hinv
      obtain ⟨hnext, hstep, htail⟩ := hgrants env s' hgrown hinv
      exact ⟨hnext, hstep, ih env s' htail⟩

theorem Grants.grown
    {Post : α → σ → Prop} {s s' : σ} {p : Proc ℓ ε σ α}
    (htrans : ∀ {a b c}, R a b → R b c → R a c)
    (hstable : ∀ result {a b}, R a b → Post result a → Post result b)
    (hgrants : Grants R G I Post s p) (hgrown : R s s') :
    Grants R G I Post s' p := by
  cases p with
  | ret result => exact hstable result hgrown hgrants
  | act label update next =>
      intro env s'' hgrown' hinv
      exact hgrants env s'' (htrans hgrown hgrown') hinv

end Grants

end Proc

/-! ## Pools -/

structure Pool (ℓ ε σ α : Type) where
  shared : σ
  threads : List (Proc ℓ ε σ α)

namespace Pool

/-- The scheduled thread performs its next action.  A finished or absent
thread leaves the pool as it is. -/
def step (pool : Pool ℓ ε σ α) (turn : ℕ × ε) : Pool ℓ ε σ α :=
  match pool.threads[turn.1]? with
  | some (.act _ update next) =>
      { shared := update turn.2 pool.shared
        threads := pool.threads.set turn.1 (next turn.2 pool.shared) }
  | _ => pool

def run (pool : Pool ℓ ε σ α) (schedule : List (ℕ × ε)) : Pool ℓ ε σ α :=
  schedule.foldl step pool

/-- Every action the schedule performs meets the guard in the state in which
it is performed. -/
def Admits (ok : ℓ → ε → σ → Prop) : Pool ℓ ε σ α → List (ℕ × ε) → Prop
  | _, [] => True
  | pool, turn :: rest =>
      (∀ label update next,
        pool.threads[turn.1]? = some (.act label update next) →
          ok label turn.2 pool.shared) ∧
      Admits ok (pool.step turn) rest

/-- What one thread appended to the log along a schedule. -/
def contribution (log : σ → List β) (thread : ℕ) :
    Pool ℓ ε σ α → List (ℕ × ε) → List β
  | _, [] => []
  | pool, turn :: rest =>
      (if turn.1 = thread then
        (log (pool.step turn).shared).drop (log pool.shared).length
       else []) ++ contribution log thread (pool.step turn) rest

@[simp] theorem run_nil (pool : Pool ℓ ε σ α) : pool.run [] = pool := rfl

@[simp] theorem run_cons
    (pool : Pool ℓ ε σ α) (turn : ℕ × ε) (rest : List (ℕ × ε)) :
    pool.run (turn :: rest) = (pool.step turn).run rest := rfl

theorem run_append
    (pool : Pool ℓ ε σ α) (first second : List (ℕ × ε)) :
    pool.run (first ++ second) = (pool.run first).run second := by
  simp [run, List.foldl_append]

theorem step_eq_of_act
    {pool : Pool ℓ ε σ α} {turn : ℕ × ε} {label : ℓ}
    {update : ε → σ → σ} {next : ε → σ → Proc ℓ ε σ α}
    (hthread : pool.threads[turn.1]? = some (.act label update next)) :
    pool.step turn =
      { shared := update turn.2 pool.shared
        threads := pool.threads.set turn.1 (next turn.2 pool.shared) } := by
  simp [step, hthread]

theorem step_cases (pool : Pool ℓ ε σ α) (turn : ℕ × ε) :
    (∃ label update next,
      pool.threads[turn.1]? = some (.act label update next)) ∨
    pool.step turn = pool := by
  unfold step
  cases hthread : pool.threads[turn.1]? with
  | none => exact Or.inr rfl
  | some p =>
      cases p with
      | ret result => exact Or.inr rfl
      | act label update next => exact Or.inl ⟨label, update, next, rfl⟩

@[simp] theorem step_threads_length (pool : Pool ℓ ε σ α) (turn : ℕ × ε) :
    (pool.step turn).threads.length = pool.threads.length := by
  rcases step_cases pool turn with ⟨label, update, next, hthread⟩ | hsame
  · rw [step_eq_of_act hthread]
    simp
  · rw [hsame]

@[simp] theorem run_threads_length
    (pool : Pool ℓ ε σ α) (schedule : List (ℕ × ε)) :
    (pool.run schedule).threads.length = pool.threads.length := by
  induction schedule generalizing pool with
  | nil => rfl
  | cons turn rest ih => rw [run_cons, ih, step_threads_length]

theorem admits_of_forall
    {ok : ℓ → ε → σ → Prop} (hok : ∀ label env s, ok label env s)
    (pool : Pool ℓ ε σ α) (schedule : List (ℕ × ε)) :
    pool.Admits ok schedule := by
  induction schedule generalizing pool with
  | nil => trivial
  | cons turn rest ih => exact ⟨fun label _ _ _ => hok label _ _, ih _⟩

theorem admits_of_turns
    {ok : ℓ → ε → σ → Prop} {schedule : List (ℕ × ε)}
    (hok : ∀ turn ∈ schedule, ∀ label s, ok label turn.2 s)
    (pool : Pool ℓ ε σ α) : pool.Admits ok schedule := by
  induction schedule generalizing pool with
  | nil => trivial
  | cons turn rest ih =>
      exact ⟨fun label _ _ _ => hok turn List.mem_cons_self label _,
        ih (fun later hlater => hok later (List.mem_cons_of_mem _ hlater)) _⟩

instance decidableAdmits
    {ok : ℓ → ε → σ → Prop} [∀ label env s, Decidable (ok label env s)] :
    ∀ (pool : Pool ℓ ε σ α) (schedule : List (ℕ × ε)),
      Decidable (pool.Admits ok schedule)
  | _, [] => .isTrue trivial
  | pool, turn :: rest =>
      haveI : Decidable ((pool.step turn).Admits ok rest) :=
        decidableAdmits (pool.step turn) rest
      match hthread : pool.threads[turn.1]? with
      | some (.act label update next) =>
          decidable_of_iff
            (ok label turn.2 pool.shared ∧ (pool.step turn).Admits ok rest)
            (by simp [Admits, hthread])
      | some (.ret result) =>
          decidable_of_iff ((pool.step turn).Admits ok rest)
            (by simp [Admits, hthread])
      | none =>
          decidable_of_iff ((pool.step turn).Admits ok rest)
            (by simp [Admits, hthread])

theorem finished_of_result?
    {pool : Pool ℓ ε σ α} {thread : ℕ} {result : α}
    (hresult : pool.threads[thread]?.bind Proc.result? = some result) :
    pool.threads[thread]? = some (.ret result) := by
  obtain ⟨p, hp, hp'⟩ := Option.bind_eq_some_iff.mp hresult
  rw [hp, Proc.result?_eq_some_iff.mp hp']

theorem Admits.combine
    {ok ok' both : ℓ → ε → σ → Prop} {pool : Pool ℓ ε σ α}
    {schedule : List (ℕ × ε)} (hok : pool.Admits ok schedule)
    (hok' : pool.Admits ok' schedule)
    (himp : ∀ label env s, ok label env s → ok' label env s → both label env s) :
    pool.Admits both schedule := by
  induction schedule generalizing pool with
  | nil => trivial
  | cons turn rest ih =>
      refine ⟨?_, ih hok.2 hok'.2⟩
      intro label update next hthread
      exact himp label _ _ (hok.1 label update next hthread)
        (hok'.1 label update next hthread)

/-! ## Progress of single threads -/

theorem run_idle
    {pool : Pool ℓ ε σ α} {schedule : List (ℕ × ε)} {thread : ℕ}
    (hidle : ∀ turn ∈ schedule, turn.1 ≠ thread) :
    (pool.run schedule).threads[thread]? = pool.threads[thread]? := by
  induction schedule generalizing pool with
  | nil => rfl
  | cons turn rest ih =>
      rw [run_cons, ih (fun later hlater => hidle later (by simp [hlater]))]
      rcases step_cases pool turn with ⟨label, update, next, hthread⟩ | hsame
      · rw [step_eq_of_act hthread]
        exact List.getElem?_set_ne (hidle turn (by simp))
      · rw [hsame]

/-- A thread that keeps getting turns finishes, whatever the others do. -/
theorem finishes_of_fair
    {pool : Pool ℓ ε σ α} {turns : ℕ → ℕ × ε} {thread : ℕ}
    (hthread : thread < pool.threads.length)
    (hfair : ∀ n, ∃ m, n ≤ m ∧ (turns m).1 = thread) :
    ∃ n result, (pool.run ((List.range n).map turns)).threads[thread]? =
      some (.ret result) := by
  have hp : pool.threads[thread]? = some (pool.threads[thread]) :=
    List.getElem?_eq_getElem hthread
  generalize pool.threads[thread] = p at hp
  -- only the thread's own turns change its tree, and each leaves a subtree
  induction p generalizing pool turns with
  | ret result => exact ⟨0, result, hp⟩
  | act label update next ih =>
      have hturn : ∃ m, (turns m).1 = thread := (hfair 0).imp fun _ h => h.2
      have hidle : ∀ turn ∈ (List.range (Nat.find hturn)).map turns,
          turn.1 ≠ thread := by
        intro turn hmem
        obtain ⟨m, hm, rfl⟩ := List.mem_map.mp hmem
        exact Nat.find_min hturn (List.mem_range.mp hm)
      have hown := Nat.find_spec hturn
      generalize Nat.find hturn = m at hidle hown
      generalize hbefore : pool.run ((List.range m).map turns) = before
      have hact : before.threads[(turns m).1]? =
          some (.act label update next) := by
        rw [hown, ← hbefore, run_idle hidle, hp]
      have hbound : (turns m).1 < before.threads.length :=
        (List.getElem?_eq_some_iff.mp hact).1
      have hnext : (before.step (turns m)).threads[thread]? =
          some (next (turns m).2 before.shared) := by
        rw [step_eq_of_act hact, ← hown]
        exact List.getElem?_set_self hbound
      have hlater : ∀ n, ∃ k, n ≤ k ∧ (turns (m + 1 + k)).1 = thread := by
        intro n
        obtain ⟨k, hk, hturn⟩ := hfair (m + 1 + n)
        refine ⟨k - (m + 1), by omega, ?_⟩
        rw [Nat.add_sub_cancel' (by omega), hturn]
      obtain ⟨n, result, hdone⟩ :=
        ih _ _ (List.getElem?_eq_some_iff.mp hnext).1 hlater hnext
      refine ⟨m + 1 + n, result, ?_⟩
      rw [List.range_add, List.range_succ, List.map_append, List.map_append,
        List.map_map, run_append, run_append, hbefore]
      exact hdone

/-! ## Invariants of the shared state -/

theorem step_acts
    {action : ℓ → (ε → σ → σ) → Prop} {pool : Pool ℓ ε σ α}
    (hthreads : ∀ p ∈ pool.threads, Proc.Acts action p) (turn : ℕ × ε) :
    ∀ p ∈ (pool.step turn).threads, Proc.Acts action p := by
  rcases step_cases pool turn with ⟨label, update, next, hthread⟩ | hsame
  · rw [step_eq_of_act hthread]
    intro p hp
    rcases List.mem_or_eq_of_mem_set hp with hold | hnew
    · exact hthreads p hold
    · rw [hnew]
      exact (hthreads _ (List.mem_of_getElem? hthread)).2 turn.2 pool.shared
  · rw [hsame]
    exact hthreads

theorem run_acts
    {action : ℓ → (ε → σ → σ) → Prop} {pool : Pool ℓ ε σ α}
    (hthreads : ∀ p ∈ pool.threads, Proc.Acts action p)
    (schedule : List (ℕ × ε)) :
    ∀ p ∈ (pool.run schedule).threads, Proc.Acts action p := by
  induction schedule generalizing pool with
  | nil => exact hthreads
  | cons turn rest ih => exact ih (step_acts hthreads turn)

section Invariant

variable {I : σ → Prop} {ok : ℓ → ε → σ → Prop} {action : ℓ → (ε → σ → σ) → Prop}

theorem step_invariant
    {pool : Pool ℓ ε σ α} {turn : ℕ × ε}
    (hthreads : ∀ p ∈ pool.threads, Proc.Acts action p)
    (hkeeps : ∀ label update, action label update →
      ∀ env s, I s → ok label env s → I (update env s))
    (hok : ∀ label update next,
      pool.threads[turn.1]? = some (.act label update next) →
        ok label turn.2 pool.shared)
    (hinit : I pool.shared) : I (pool.step turn).shared := by
  rcases step_cases pool turn with ⟨label, update, next, hthread⟩ | hsame
  · rw [step_eq_of_act hthread]
    exact hkeeps label update (hthreads _ (List.mem_of_getElem? hthread)).1 turn.2
      pool.shared hinit (hok label update next hthread)
  · rw [hsame]
    exact hinit

/-- What every possible action keeps, every run keeps. -/
theorem run_invariant
    {pool : Pool ℓ ε σ α} {schedule : List (ℕ × ε)}
    (hthreads : ∀ p ∈ pool.threads, Proc.Acts action p)
    (hkeeps : ∀ label update, action label update →
      ∀ env s, I s → ok label env s → I (update env s))
    (hadmits : pool.Admits ok schedule) (hinit : I pool.shared) :
    I (pool.run schedule).shared := by
  induction schedule generalizing pool with
  | nil => exact hinit
  | cons turn rest ih =>
      exact ih (step_acts hthreads turn) hadmits.2
        (step_invariant hthreads hkeeps hadmits.1 hinit)

end Invariant

/-- A fact that no action makes false and that does not hold at the end has not
held before any action. -/
theorem admits_of_final
    {Q : σ → Prop} {action : ℓ → (ε → σ → σ) → Prop} {pool : Pool ℓ ε σ α}
    {schedule : List (ℕ × ε)}
    (hthreads : ∀ p ∈ pool.threads, Proc.Acts action p)
    (hkeeps : ∀ label update, action label update →
      ∀ env s, Q s → Q (update env s))
    (hfinal : ¬Q (pool.run schedule).shared) :
    pool.Admits (fun _ _ s => ¬Q s) schedule := by
  induction schedule generalizing pool with
  | nil => trivial
  | cons turn rest ih =>
      refine ⟨?_, ih (step_acts hthreads turn) hfinal⟩
      -- had it held here, the whole rest of the run would have kept it
      intro _ _ _ _ hnow
      exact hfinal (run_invariant hthreads
        (fun label update hact env s hs _ => hkeeps label update hact env s hs)
        (admits_of_forall (fun _ _ _ => trivial) pool (turn :: rest)) hnow)

/-! ## Contracts of all threads -/

section Contracts

variable {I : σ → Prop} {ok : ℓ → ε → σ → Prop} {log : σ → List β}
variable {During : ℕ → List β → Prop} {Post : ℕ → List β → α → Prop}

/-- One turn appends what its thread's contract allows and leaves the other
contracts alone. -/
theorem step_meets
    {pool : Pool ℓ ε σ α} {turn : ℕ × ε} {so : ℕ → List β}
    (hthreads : ∀ thread p, pool.threads[thread]? = some p →
      Proc.Meets I ok log (During thread) (Post thread) (so thread) p)
    (hok : ∀ label update next,
      pool.threads[turn.1]? = some (.act label update next) →
        ok label turn.2 pool.shared)
    (hinit : I pool.shared) :
    ∃ new, I (pool.step turn).shared ∧
      log (pool.step turn).shared = log pool.shared ++ new ∧
      (new = [] ∨ turn.1 < pool.threads.length) ∧
      ∀ thread p, (pool.step turn).threads[thread]? = some p →
        Proc.Meets I ok log (During thread) (Post thread)
          (so thread ++ if turn.1 = thread then new else []) p := by
  rcases step_cases pool turn with ⟨label, update, next, hthread⟩ | hsame
  · obtain ⟨hnext, new, hlog, htail⟩ :=
      (hthreads turn.1 _ hthread).2 turn.2 pool.shared hinit
        (hok label update next hthread)
    have hbound : turn.1 < pool.threads.length :=
      (List.getElem?_eq_some_iff.mp hthread).1
    rw [step_eq_of_act hthread]
    refine ⟨new, hnext, hlog, Or.inr hbound, ?_⟩
    intro thread p hp
    by_cases heq : turn.1 = thread
    · subst heq
      simp only [List.getElem?_set_self hbound, Option.some.injEq] at hp
      subst hp
      simpa using htail
    · rw [List.getElem?_set_ne heq] at hp
      simpa [heq] using hthreads thread p hp
  · rw [hsame]
    refine ⟨[], hinit, by simp, Or.inl rfl, ?_⟩
    intro thread p hp
    simpa using hthreads thread p hp

theorem contribution_cons
    {pool : Pool ℓ ε σ α} {turn : ℕ × ε} {new : List β}
    (hlog : log (pool.step turn).shared = log pool.shared ++ new)
    (thread : ℕ) (rest : List (ℕ × ε)) :
    pool.contribution log thread (turn :: rest) =
      (if turn.1 = thread then new else []) ++
        (pool.step turn).contribution log thread rest := by
  simp [contribution, hlog]

theorem run_meets_from
    {pool : Pool ℓ ε σ α} {schedule : List (ℕ × ε)}
    (so : ℕ → List β)
    (hthreads : ∀ thread p, pool.threads[thread]? = some p →
      Proc.Meets I ok log (During thread) (Post thread) (so thread) p)
    (hadmits : pool.Admits ok schedule) (hinit : I pool.shared) :
    I (pool.run schedule).shared ∧
      ∀ thread p, (pool.run schedule).threads[thread]? = some p →
        Proc.Meets I ok log (During thread) (Post thread)
          (so thread ++ pool.contribution log thread schedule) p := by
  induction schedule generalizing pool so with
  | nil =>
      refine ⟨hinit, ?_⟩
      intro thread p hp
      simpa [contribution] using hthreads thread p hp
  | cons turn rest ih =>
      obtain ⟨new, hnext, hlog, _, hafter⟩ :=
        step_meets hthreads hadmits.1 hinit
      obtain ⟨hinv, hmeets⟩ := ih _ hafter hadmits.2 hnext
      refine ⟨hinv, ?_⟩
      intro thread p hp
      rw [contribution_cons hlog, ← List.append_assoc]
      exact hmeets thread p hp

theorem run_meets
    {pool : Pool ℓ ε σ α} {schedule : List (ℕ × ε)}
    (hthreads : ∀ thread p, pool.threads[thread]? = some p →
      Proc.Meets I ok log (During thread) (Post thread) [] p)
    (hadmits : pool.Admits ok schedule) (hinit : I pool.shared) :
    I (pool.run schedule).shared ∧
      ∀ thread p, (pool.run schedule).threads[thread]? = some p →
        Proc.Meets I ok log (During thread) (Post thread)
          (pool.contribution log thread schedule) p := by
  simpa using run_meets_from (fun _ => []) hthreads hadmits hinit

theorem run_log_isPrefix
    {pool : Pool ℓ ε σ α} {schedule : List (ℕ × ε)}
    (so : ℕ → List β)
    (hthreads : ∀ thread p, pool.threads[thread]? = some p →
      Proc.Meets I ok log (During thread) (Post thread) (so thread) p)
    (hadmits : pool.Admits ok schedule) (hinit : I pool.shared) :
    log pool.shared <+: log (pool.run schedule).shared := by
  induction schedule generalizing pool so with
  | nil => exact List.prefix_refl _
  | cons turn rest ih =>
      obtain ⟨new, hnext, hlog, _, hafter⟩ :=
        step_meets hthreads hadmits.1 hinit
      have hstep : log pool.shared <+: log (pool.step turn).shared :=
        ⟨new, hlog.symm⟩
      exact hstep.trans (ih _ hafter hadmits.2 hnext)

/-- Up to their order, the entries of the log are the contributions. -/
theorem run_log_perm
    {pool : Pool ℓ ε σ α} {schedule : List (ℕ × ε)}
    (so : ℕ → List β)
    (hthreads : ∀ thread p, pool.threads[thread]? = some p →
      Proc.Meets I ok log (During thread) (Post thread) (so thread) p)
    (hadmits : pool.Admits ok schedule) (hinit : I pool.shared) :
    (log (pool.run schedule).shared).Perm
      (log pool.shared ++ (List.range pool.threads.length).flatMap
        (fun thread => pool.contribution log thread schedule)) := by
  induction schedule generalizing pool so with
  | nil =>
      have hnone : (List.range pool.threads.length).flatMap
          (fun thread => pool.contribution log thread []) = [] := by
        simp [contribution, List.flatMap_eq_nil_iff]
      rw [hnone, List.append_nil, run_nil]
  | cons turn rest ih =>
      obtain ⟨new, hnext, hlog, hnew, hafter⟩ :=
        step_meets hthreads hadmits.1 hinit
      have hrest := ih _ hafter hadmits.2 hnext
      have hsingle : (List.range pool.threads.length).flatMap
          (fun thread => if turn.1 = thread then new else []) = new := by
        rw [flatMap_range_single]
        rcases hnew with hnil | hbound
        · simp [hnil]
        · simp [hbound]
      rw [run_cons]
      rw [hlog, step_threads_length, List.append_assoc] at hrest
      refine hrest.trans (List.Perm.append_left _ ?_)
      simp only [contribution_cons hlog]
      have hsplit := List.flatMap_append_perm (List.range pool.threads.length)
        (fun thread => if turn.1 = thread then new else [])
        (fun thread => (pool.step turn).contribution log thread rest)
      rwa [hsingle] at hsplit

theorem mem_log_of_mem_contribution
    {pool : Pool ℓ ε σ α} {schedule : List (ℕ × ε)}
    (so : ℕ → List β)
    (hthreads : ∀ thread p, pool.threads[thread]? = some p →
      Proc.Meets I ok log (During thread) (Post thread) (so thread) p)
    (hadmits : pool.Admits ok schedule) (hinit : I pool.shared) {thread : ℕ}
    (hthread : thread < pool.threads.length) {entry : β}
    (hmem : entry ∈ pool.contribution log thread schedule) :
    entry ∈ log (pool.run schedule).shared := by
  rw [(run_log_perm so hthreads hadmits hinit).mem_iff, List.mem_append,
    List.mem_flatMap]
  exact Or.inr ⟨thread, List.mem_range.mpr hthread, hmem⟩

theorem run_log_length
    {pool : Pool ℓ ε σ α} {schedule : List (ℕ × ε)}
    (so : ℕ → List β)
    (hthreads : ∀ thread p, pool.threads[thread]? = some p →
      Proc.Meets I ok log (During thread) (Post thread) (so thread) p)
    (hadmits : pool.Admits ok schedule) (hinit : I pool.shared) :
    (log (pool.run schedule).shared).length =
      (log pool.shared).length +
        ∑ thread ∈ Finset.range pool.threads.length,
          (pool.contribution log thread schedule).length := by
  rw [(run_log_perm so hthreads hadmits hinit).length_eq, List.length_append,
    List.length_flatMap]
  rfl

theorem run_log_length_le
    {pool : Pool ℓ ε σ α} {schedule : List (ℕ × ε)} {bound : ℕ → ℕ}
    (hthreads : ∀ thread p, pool.threads[thread]? = some p →
      Proc.Meets I ok log (During thread) (Post thread) [] p)
    (hbound : ∀ thread entries, During thread entries →
      entries.length ≤ bound thread)
    (hadmits : pool.Admits ok schedule) (hinit : I pool.shared) :
    (log (pool.run schedule).shared).length ≤
      (log pool.shared).length +
        ∑ thread ∈ Finset.range pool.threads.length, bound thread := by
  rw [run_log_length (fun _ => []) hthreads hadmits hinit]
  apply Nat.add_le_add_left
  apply Finset.sum_le_sum
  intro thread hthread
  have hlt : thread < (pool.run schedule).threads.length := by
    rw [run_threads_length]
    exact Finset.mem_range.mp hthread
  have hmeets := (run_meets hthreads hadmits hinit).2 thread _
    (List.getElem?_eq_getElem hlt)
  exact hbound thread _ hmeets.during

/-- Entries of a kind that only one thread appends are that thread's
contribution, in order. -/
theorem run_log_filter
    {pool : Pool ℓ ε σ α} {schedule : List (ℕ × ε)}
    {kind : β → Bool} {owner : ℕ}
    (so : ℕ → List β)
    (hthreads : ∀ thread p, pool.threads[thread]? = some p →
      Proc.Meets I ok log (During thread) (Post thread) (so thread) p)
    (hothers : ∀ thread entries, thread ≠ owner → During thread entries →
      entries.filter kind = [])
    (hadmits : pool.Admits ok schedule) (hinit : I pool.shared) :
    (log (pool.run schedule).shared).filter kind =
      (log pool.shared).filter kind ++
        (pool.contribution log owner schedule).filter kind := by
  induction schedule generalizing pool so with
  | nil => simp [contribution]
  | cons turn rest ih =>
      obtain ⟨new, hnext, hlog, hnew, hafter⟩ :=
        step_meets hthreads hadmits.1 hinit
      rw [run_cons, ih _ hafter hadmits.2 hnext, hlog, contribution_cons hlog]
      by_cases heq : turn.1 = owner
      · simp [heq]
      · have hforeign : new.filter kind = [] := by
          rcases hnew with hnil | hbound
          · simp [hnil]
          · have hbound' : turn.1 < (pool.step turn).threads.length := by
              rw [step_threads_length]
              exact hbound
            have hduring := (hafter turn.1 _
              (List.getElem?_eq_getElem hbound')).during
            have hnone := hothers turn.1 _ heq hduring
            simp only [if_true, List.filter_append,
              List.append_eq_nil_iff] at hnone
            exact hnone.2
        simp [heq, hforeign]

end Contracts

/-! ## Growing state -/

/-- Every action the schedule performs meets the guarantee of its thread. -/
def Moves (G : ℕ → ℓ → σ → σ → Prop) : Pool ℓ ε σ α → List (ℕ × ε) → Prop
  | _, [] => True
  | pool, turn :: rest =>
      (∀ label update next,
        pool.threads[turn.1]? = some (.act label update next) →
          G turn.1 label pool.shared (update turn.2 pool.shared)) ∧
      Moves G (pool.step turn) rest

section Grants

variable {R : σ → σ → Prop} {G : ℕ → ℓ → σ → σ → Prop} {I : σ → Prop}
variable {Post : ℕ → α → σ → Prop}

theorem step_grants
    {pool : Pool ℓ ε σ α} (turn : ℕ × ε)
    (hrefl : ∀ s, R s s) (htrans : ∀ {a b c}, R a b → R b c → R a c)
    (hgrows : ∀ thread label {a b}, G thread label a b → R a b)
    (hstable : ∀ thread result {a b}, R a b → Post thread result a →
      Post thread result b)
    (hthreads : ∀ thread p, pool.threads[thread]? = some p →
      Proc.Grants R (G thread) I (Post thread) pool.shared p)
    (hinit : I pool.shared) :
    I (pool.step turn).shared ∧ R pool.shared (pool.step turn).shared ∧
      (∀ label update next,
        pool.threads[turn.1]? = some (.act label update next) →
          G turn.1 label pool.shared (update turn.2 pool.shared)) ∧
      ∀ thread p, (pool.step turn).threads[thread]? = some p →
        Proc.Grants R (G thread) I (Post thread) (pool.step turn).shared p := by
  rcases step_cases pool turn with ⟨label, update, next, hthread⟩ | hsame
  · obtain ⟨hnext, hmove, htail⟩ :=
      hthreads turn.1 _ hthread turn.2 pool.shared (hrefl _) hinit
    have hgrown := hgrows turn.1 label hmove
    have hbound : turn.1 < pool.threads.length :=
      (List.getElem?_eq_some_iff.mp hthread).1
    rw [step_eq_of_act hthread]
    refine ⟨hnext, hgrown, ?_, ?_⟩
    · intro label' update' next' hthread'
      rw [hthread] at hthread'
      cases hthread'
      exact hmove
    · intro thread p hp
      by_cases heq : turn.1 = thread
      · subst heq
        simp only [List.getElem?_set_self hbound, Option.some.injEq] at hp
        subst hp
        exact htail
      · rw [List.getElem?_set_ne heq] at hp
        exact (hthreads thread p hp).grown htrans (hstable thread) hgrown
  · rw [hsame]
    refine ⟨hinit, hrefl _, ?_, hthreads⟩
    intro label update next hthread
    exact (hthreads turn.1 _ hthread turn.2 pool.shared (hrefl _) hinit).2.1

/-- Threads that rely on growth and guarantee growth keep their contracts in
every interleaving. -/
theorem run_grants
    {pool : Pool ℓ ε σ α} (schedule : List (ℕ × ε))
    (hrefl : ∀ s, R s s) (htrans : ∀ {a b c}, R a b → R b c → R a c)
    (hgrows : ∀ thread label {a b}, G thread label a b → R a b)
    (hstable : ∀ thread result {a b}, R a b → Post thread result a →
      Post thread result b)
    (hthreads : ∀ thread p, pool.threads[thread]? = some p →
      Proc.Grants R (G thread) I (Post thread) pool.shared p)
    (hinit : I pool.shared) :
    I (pool.run schedule).shared ∧ R pool.shared (pool.run schedule).shared ∧
      pool.Moves G schedule ∧
      ∀ thread p, (pool.run schedule).threads[thread]? = some p →
        Proc.Grants R (G thread) I (Post thread) (pool.run schedule).shared
          p := by
  induction schedule generalizing pool with
  | nil => exact ⟨hinit, hrefl _, trivial, hthreads⟩
  | cons turn rest ih =>
      obtain ⟨hnext, hgrown, hmove, hafter⟩ :=
        step_grants turn hrefl htrans hgrows hstable hthreads hinit
      obtain ⟨hinv, hrest, hmoves, hfinal⟩ := ih hafter hnext
      exact ⟨hinv, htrans hgrown hrest, ⟨hmove, hmoves⟩, hfinal⟩

end Grants

def turns (thread : ℕ) (schedule : List (ℕ × ε)) : ℕ :=
  schedule.countP (fun turn => turn.1 = thread)

end Pool

end SingEwp
