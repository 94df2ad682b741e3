import SingEwp.ThreadRules

/-!
# What one thread sees of a run

The result of a thread depends on the states in which it takes its own turns and
on nothing else.  `Pool.seen` lists these turns, `Proc.Traces` runs a thread
against such a list, and `Pool.run_traces` connects the two.  If all actions of
the pool lead along a preorder, the turns a thread has seen are a chain in it
(`Pool.seen_chain`).  A claim about a thread among others becomes one about a
sequential program that reads a growing state.
-/

namespace SingEwp

variable {ℓ ε σ α β : Type}

/-- A turn of a thread, with the shared state before and after it. -/
structure View (ε σ : Type) where
  env : ε
  before : σ
  after : σ

namespace View

/-- Turns between two states, with what the others do in between along `R`. -/
def Chain (R : σ → σ → Prop) (I : σ → Prop) : σ → List (View ε σ) → σ → Prop
  | s, [], t => R s t
  | s, view :: rest, t =>
      R s view.before ∧ I view.before ∧ R view.before view.after ∧
        Chain R I view.after rest t

section Chain

variable {R : σ → σ → Prop} {I : σ → Prop} {s s' t : σ}

theorem Chain.earlier
    {views : List (View ε σ)} (htrans : ∀ {a b c}, R a b → R b c → R a c)
    (hleads : R s s') (hchain : Chain R I s' views t) : Chain R I s views t := by
  cases views with
  | nil => exact htrans hleads hchain
  | cons view rest => exact ⟨htrans hleads hchain.1, hchain.2⟩

theorem Chain.leads
    {views : List (View ε σ)} (htrans : ∀ {a b c}, R a b → R b c → R a c)
    (hchain : Chain R I s views t) : R s t := by
  induction views generalizing s with
  | nil => exact hchain
  | cons view rest ih =>
      obtain ⟨hbefore, -, hover, hrest⟩ := hchain
      exact htrans hbefore (htrans hover (ih hrest))

theorem Chain.split
    {first later : List (View ε σ)} (hrefl : ∀ s, R s s)
    (hchain : Chain R I s (first ++ later) t) :
    ∃ mid, Chain R I s first mid ∧ Chain R I mid later t := by
  induction first generalizing s with
  | nil => exact ⟨s, hrefl s, hchain⟩
  | cons view first ih =>
      obtain ⟨hbefore, hinv, hover, hrest⟩ := hchain
      obtain ⟨mid, hfirst, hlater⟩ := ih hrest
      exact ⟨mid, ⟨hbefore, hinv, hover, hfirst⟩, hlater⟩

theorem Chain.reaches
    {views : List (View ε σ)} {view : View ε σ}
    (htrans : ∀ {a b c}, R a b → R b c → R a c) (hchain : Chain R I s views t)
    (hview : view ∈ views) : R s view.before := by
  induction views generalizing s with
  | nil => cases hview
  | cons head rest ih =>
      obtain ⟨hbefore, -, hover, hrest⟩ := hchain
      rcases List.mem_cons.mp hview with rfl | hmem
      · exact hbefore
      · exact htrans hbefore (htrans hover (ih hrest hmem))

end Chain

end View

namespace Proc

/-- In these turns, or already in the first few of them, the thread returns the
result; its turns after that do nothing. -/
def Traces : Proc ℓ ε σ α → List (View ε σ) → α → Prop
  | .ret r, views, result =>
      r = result ∧ ∀ view ∈ views, view.after = view.before
  | .act _ _ _, [], _ => False
  | .act _ update next, view :: rest, result =>
      view.after = update view.env view.before ∧
        Traces (next view.env view.before) rest result

@[simp] theorem traces_ret {r result : α} {views : List (View ε σ)} :
    Traces (.ret r : Proc ℓ ε σ α) views result ↔
      r = result ∧ ∀ view ∈ views, view.after = view.before := by
  cases views <;> rfl

theorem Traces.ret_eq
    {r result : α} {views : List (View ε σ)}
    (htraces : Traces (.ret r : Proc ℓ ε σ α) views result) : r = result :=
  (traces_ret.mp htraces).1

theorem Traces.bind
    {p : Proc ℓ ε σ α} {rest : α → Proc ℓ ε σ β} {views : List (View ε σ)}
    {result : β} (htraces : Traces (p.bind rest) views result) :
    ∃ first later mid, views = first ++ later ∧ Traces p first mid ∧
      Traces (rest mid) later result := by
  induction p generalizing views with
  | ret mid =>
      exact ⟨[], views, mid, rfl, traces_ret.mpr ⟨rfl, by simp⟩, htraces⟩
  | act label update next ih =>
      cases views with
      | nil => exact htraces.elim
      | cons view views =>
          obtain ⟨first, later, mid, rfl, hfirst, hlater⟩ := ih _ _ htraces.2
          exact ⟨view :: first, later, mid, rfl, ⟨htraces.1, hfirst⟩, hlater⟩

/-- A program that begins with an action. -/
theorem Traces.atomic_bind
    {label : ℓ} {body : ε → σ → α × σ} {rest : α → Proc ℓ ε σ β}
    {views : List (View ε σ)} {result : β}
    (htraces : Traces ((Proc.atomic label body).bind rest) views result) :
    ∃ view later, views = view :: later ∧
      view.after = (body view.env view.before).2 ∧
      Traces (rest (body view.env view.before).1) later result := by
  cases views with
  | nil => exact htraces.elim
  | cons view later => exact ⟨view, later, rfl, htraces.1, htraces.2⟩

theorem Traces.atomic
    {label : ℓ} {body : ε → σ → α × σ} {views : List (View ε σ)} {result : α}
    (htraces : Traces (Proc.atomic label body) views result) :
    ∃ view later, views = view :: later ∧
      body view.env view.before = (result, view.after) := by
  cases views with
  | nil => exact htraces.elim
  | cons view later =>
      exact ⟨view, later, rfl, Prod.ext htraces.2.ret_eq htraces.1.symm⟩

/-- What every action of a thread keeps, its turns keep. -/
theorem Traces.keeps
    {K : σ → σ → Prop} {action : ℓ → (ε → σ → σ) → Prop} {p : Proc ℓ ε σ α}
    {views : List (View ε σ)} {result : α} (hrefl : ∀ s, K s s)
    (hkeeps : ∀ label update, action label update → ∀ env s, K s (update env s))
    (hacts : Proc.Acts action p) (htraces : p.Traces views result) :
    ∀ view ∈ views, K view.before view.after := by
  induction p generalizing views with
  | ret r =>
      intro view hview
      rw [(traces_ret.mp htraces).2 view hview]
      exact hrefl _
  | act label update next ih =>
      cases views with
      | nil => exact htraces.elim
      | cons view rest =>
          obtain ⟨hafter, hrest⟩ := htraces
          intro other hother
          rcases List.mem_cons.mp hother with rfl | hmem
          · rw [hafter]
            exact hkeeps label update hacts.1 _ _
          · exact ih _ _ (hacts.2 _ _) hrest other hmem

end Proc

namespace Pool

/-- The turns of one thread. -/
def seen (thread : ℕ) : Pool ℓ ε σ α → List (ℕ × ε) → List (View ε σ)
  | _, [] => []
  | pool, turn :: rest =>
      (if turn.1 = thread then
        [⟨turn.2, pool.shared, (pool.step turn).shared⟩] else []) ++
        seen thread (pool.step turn) rest

theorem run_traces
    {pool : Pool ℓ ε σ α} {thread : ℕ} {p : Proc ℓ ε σ α} {result : α}
    (hp : pool.threads[thread]? = some p) {schedule : List (ℕ × ε)}
    (hdone : (pool.run schedule).threads[thread]? = some (.ret result)) :
    p.Traces (pool.seen thread schedule) result := by
  induction schedule generalizing pool p with
  | nil =>
      obtain rfl := Option.some.inj (hp.symm.trans hdone)
      exact Proc.traces_ret.mpr ⟨rfl, by simp [seen]⟩
  | cons turn rest ih =>
      rw [run_cons] at hdone
      rw [seen]
      by_cases hown : turn.1 = thread
      · subst hown
        rw [if_pos rfl]
        cases p with
        | ret r =>
            have hsame : pool.step turn = pool := by simp [step, hp]
            rw [hsame] at hdone ⊢
            obtain ⟨hresult, hidle⟩ := Proc.traces_ret.mp (ih hp hdone)
            refine Proc.traces_ret.mpr ⟨hresult, ?_⟩
            rintro view hview
            rcases List.mem_cons.mp hview with rfl | hmem
            · rfl
            · exact hidle view hmem
        | act label update next =>
            have hbound := (List.getElem?_eq_some_iff.mp hp).1
            have hstep := step_eq_of_act hp
            refine ⟨by rw [hstep], ih ?_ hdone⟩
            rw [hstep]
            exact List.getElem?_set_self hbound
      · have hidle : (pool.step turn).threads[thread]? = some p :=
          (run_idle (by simpa using hown :
            ∀ other ∈ [turn], other.1 ≠ thread)).trans hp
        rw [if_neg hown, List.nil_append]
        exact ih hidle hdone

/-- A thread sees the states of the run at turns of its own. -/
theorem mem_seen
    {pool : Pool ℓ ε σ α} {thread : ℕ} {schedule : List (ℕ × ε)}
    {view : View ε σ} (hview : view ∈ pool.seen thread schedule) :
    ∃ first rest, schedule = first ++ (thread, view.env) :: rest ∧
      view.before = (pool.run first).shared := by
  induction schedule generalizing pool with
  | nil => simp [seen] at hview
  | cons turn rest ih =>
      obtain ⟨mover, env⟩ := turn
      rw [seen] at hview
      rcases List.mem_append.mp hview with hnow | hlater
      · split at hnow
        · next hown =>
            subst hown
            rw [List.mem_singleton.mp hnow]
            exact ⟨[], rest, rfl, rfl⟩
        · cases hnow
      · obtain ⟨first, rest, rfl, hstate⟩ := ih hlater
        exact ⟨(mover, env) :: first, rest, rfl, hstate⟩

theorem seen_append
    (pool : Pool ℓ ε σ α) (thread : ℕ) (first rest : List (ℕ × ε)) :
    pool.seen thread (first ++ rest) =
      pool.seen thread first ++ (pool.run first).seen thread rest := by
  induction first generalizing pool with
  | nil => rfl
  | cons turn first ih =>
      rw [List.cons_append, seen, seen, ih, List.append_assoc, run_cons]

theorem seen_idle
    {pool : Pool ℓ ε σ α} {thread : ℕ} {schedule : List (ℕ × ε)}
    (hidle : ∀ turn ∈ schedule, turn.1 ≠ thread) :
    pool.seen thread schedule = [] := by
  induction schedule generalizing pool with
  | nil => rfl
  | cons turn rest ih =>
      rw [seen, if_neg (hidle turn List.mem_cons_self), List.nil_append]
      exact ih fun later hlater => hidle later (List.mem_cons_of_mem _ hlater)

/-- The first turn of a thread and the run from there on. -/
theorem seen_eq_cons
    {pool : Pool ℓ ε σ α} {thread : ℕ} {schedule : List (ℕ × ε)}
    {view : View ε σ} {later : List (View ε σ)}
    (hseen : pool.seen thread schedule = view :: later) :
    ∃ first rest, schedule = first ++ (thread, view.env) :: rest ∧
      (∀ turn ∈ first, turn.1 ≠ thread) ∧
      view.before = (pool.run first).shared ∧
      view.after = (pool.run (first ++ [(thread, view.env)])).shared ∧
      later = (pool.run (first ++ [(thread, view.env)])).seen thread rest := by
  induction schedule generalizing pool with
  | nil => cases hseen
  | cons turn rest ih =>
      obtain ⟨mover, env⟩ := turn
      rw [seen] at hseen
      by_cases hown : mover = thread
      · subst hown
        rw [if_pos rfl, List.singleton_append] at hseen
        obtain ⟨rfl, rfl⟩ := List.cons.inj hseen
        exact ⟨[], rest, rfl, by simp, rfl, rfl, rfl⟩
      · rw [if_neg hown, List.nil_append] at hseen
        obtain ⟨first, rest, rfl, hidle, hbefore, hafter, hlater⟩ := ih hseen
        exact ⟨(mover, env) :: first, rest, rfl, by simpa [hown] using hidle, hbefore,
          hafter, hlater⟩

section Chain

variable {R : σ → σ → Prop} {I : σ → Prop} {action : ℓ → (ε → σ → σ) → Prop}

theorem run_leads
    {pool : Pool ℓ ε σ α} (schedule : List (ℕ × ε))
    (hrefl : ∀ s, R s s) (htrans : ∀ {a b c}, R a b → R b c → R a c)
    (hthreads : ∀ p ∈ pool.threads, Proc.Acts action p)
    (hkeeps : ∀ label update, action label update → ∀ env s, I s →
      I (update env s) ∧ R s (update env s))
    (hinit : I pool.shared) :
    I (pool.run schedule).shared ∧ R pool.shared (pool.run schedule).shared := by
  induction schedule generalizing pool with
  | nil => exact ⟨hinit, hrefl _⟩
  | cons turn rest ih =>
      have hstep : I (pool.step turn).shared ∧
          R pool.shared (pool.step turn).shared := by
        rcases step_cases pool turn with ⟨label, update, next, hthread⟩ | hsame
        · rw [step_eq_of_act hthread]
          exact hkeeps label update
            (hthreads _ (List.mem_of_getElem? hthread)).1 turn.2 _ hinit
        · rw [hsame]
          exact ⟨hinit, hrefl _⟩
      obtain ⟨hfinal, hrest⟩ := ih (step_acts hthreads turn) hstep.1
      exact ⟨hfinal, htrans hstep.2 hrest⟩

/-- The turns of a thread follow each other along the preorder, from the start of
the run to its end. -/
theorem seen_chain
    {pool : Pool ℓ ε σ α} (thread : ℕ) (schedule : List (ℕ × ε))
    (hrefl : ∀ s, R s s) (htrans : ∀ {a b c}, R a b → R b c → R a c)
    (hthreads : ∀ p ∈ pool.threads, Proc.Acts action p)
    (hkeeps : ∀ label update, action label update → ∀ env s, I s →
      I (update env s) ∧ R s (update env s))
    (hinit : I pool.shared) :
    View.Chain R I pool.shared (pool.seen thread schedule)
      (pool.run schedule).shared := by
  induction schedule generalizing pool with
  | nil => exact hrefl _
  | cons turn rest ih =>
      obtain ⟨hnext, hleads⟩ := run_leads [turn] hrefl htrans hthreads hkeeps hinit
      have hlater := ih (step_acts hthreads turn) hnext
      rw [seen, run_cons]
      by_cases hown : turn.1 = thread
      · rw [if_pos hown, List.singleton_append]
        exact ⟨hrefl _, hinit, hleads, hlater⟩
      · rw [if_neg hown, List.nil_append]
        exact hlater.earlier htrans hleads

end Chain

end Pool

end SingEwp
