import SingEwp.ThreadRules

/-!
# Threads that wait

A lock is a field of the shared state, and taking it is an action that has to wait
while somebody else holds it.  `ready` says in which states an action may be taken.
A schedule hands out turns without regard to that, and a turn at which the thread
has to wait is lost: `Pool.runWhen` runs the turns that are granted.

`Proc.GrantsWhen` is rely-guarantee reasoning for such threads, in which an action
may count on being ready, and `Pool.runWhen_relies` composes them.
`Pool.runWhen_declines` is about threads that return without having done anything.
-/

namespace SingEwp

variable {ℓ ε σ α β κ δ τ : Type}

namespace Proc

/-- `Grants` for a thread that takes an action only when it is ready. -/
def GrantsWhen (ready : ℓ → σ → Bool) (R : σ → σ → Prop) (G : ℓ → σ → σ → Prop)
    (I : σ → Prop) (Post : α → σ → Prop) : σ → Proc ℓ ε σ α → Prop
  | s, .ret result => Post result s
  | s, .act label update next =>
      ∀ env s', R s s' → I s' → ready label s' = true →
        I (update env s') ∧ G label s' (update env s') ∧
          GrantsWhen ready R G I Post (update env s') (next env s')

section GrantsWhen

variable {ready : ℓ → σ → Bool} {R : σ → σ → Prop} {G : ℓ → σ → σ → Prop}
variable {I : σ → Prop}

theorem grants_iff_grantsWhen
    {Post : α → σ → Prop} {s : σ} {p : Proc ℓ ε σ α} :
    Grants R G I Post s p ↔ GrantsWhen (fun _ _ => true) R G I Post s p := by
  induction p generalizing s with
  | ret result => exact Iff.rfl
  | act label update next ih =>
      simp only [Grants, GrantsWhen, ih, forall_const]

theorem GrantsWhen.bind
    {Mid : α → σ → Prop} {Post : β → σ → Prop} {s : σ} {p : Proc ℓ ε σ α}
    {rest : α → Proc ℓ ε σ β} (hfirst : GrantsWhen ready R G I Mid s p)
    (hrest : ∀ result s', Mid result s' →
      GrantsWhen ready R G I Post s' (rest result)) :
    GrantsWhen ready R G I Post s (p.bind rest) := by
  induction p generalizing s with
  | ret result => exact hrest result s hfirst
  | act label update next ih =>
      intro env s' hrelies hinv hready
      obtain ⟨hnext, hmove, htail⟩ := hfirst env s' hrelies hinv hready
      exact ⟨hnext, hmove, ih env s' htail⟩

theorem GrantsWhen.atomic
    {Post : α → σ → Prop} {s : σ} {label : ℓ} {body : ε → σ → α × σ}
    (hbody : ∀ env s', R s s' → I s' → ready label s' = true →
      I (body env s').2 ∧ G label s' (body env s').2 ∧
        Post (body env s').1 (body env s').2) :
    GrantsWhen ready R G I Post s (Proc.atomic label body) :=
  hbody

/-- What neither the others nor the thread itself undo, holds in the end. -/
theorem GrantsWhen.frame
    {K : σ → Prop} {Post : α → σ → Prop} {s : σ} {p : Proc ℓ ε σ α}
    (hothers : ∀ {a b}, R a b → K a → K b)
    (hown : ∀ {label a b}, G label a b → K a → K b) (hnow : K s)
    (hgrants : GrantsWhen ready R G I Post s p) :
    GrantsWhen ready R G I (fun result s => Post result s ∧ K s) s p := by
  induction p generalizing s with
  | ret result => exact ⟨hgrants, hnow⟩
  | act label update next ih =>
      intro env s' hrelies hinv hready
      obtain ⟨hnext, hmove, htail⟩ := hgrants env s' hrelies hinv hready
      exact ⟨hnext, hmove, ih env s' (hown hmove (hothers hrelies hnow)) htail⟩

theorem GrantsWhen.mono
    {G' : ℓ → σ → σ → Prop} {Post Post' : α → σ → Prop} {s : σ}
    {p : Proc ℓ ε σ α} (hgrants : GrantsWhen ready R G I Post s p)
    (hmove : ∀ {label a b}, G label a b → G' label a b)
    (hpost : ∀ result s, Post result s → Post' result s) :
    GrantsWhen ready R G' I Post' s p := by
  induction p generalizing s with
  | ret result => exact hpost result s hgrants
  | act label update next ih =>
      intro env s' hrelies hinv hready
      obtain ⟨hnext, hstep, htail⟩ := hgrants env s' hrelies hinv hready
      exact ⟨hnext, hmove hstep, ih env s' htail⟩

theorem GrantsWhen.grown
    {Post : α → σ → Prop} {s s' : σ} {p : Proc ℓ ε σ α}
    (htrans : ∀ {a b c}, R a b → R b c → R a c)
    (hstable : ∀ result {a b}, R a b → Post result a → Post result b)
    (hrelies : R s s') (hgrants : GrantsWhen ready R G I Post s p) :
    GrantsWhen ready R G I Post s' p := by
  cases p with
  | ret result => exact hstable result hrelies hgrants
  | act label update next =>
      exact fun env s'' hlater => hgrants env s'' (htrans hrelies hlater)

/-- A thread on one component keeps its contract in the larger state. -/
theorem GrantsWhen.embed
    {Post : α → σ → Prop} {ready' : κ → τ → Bool} {R' : τ → τ → Prop}
    {G' : κ → τ → τ → Prop} {I' : τ → Prop} {relabel : ℓ → κ} {view : δ → τ → ε}
    {get : τ → σ} {put : δ → σ → τ → τ} (hget : ∀ d s t, get (put d s t) = s)
    (hready : ∀ {label t}, ready' (relabel label) t = true →
      ready label (get t) = true)
    (hrely : ∀ {a b}, R' a b → R (get a) (get b))
    (hinv : ∀ {t}, I' t → I (get t))
    (hput : ∀ {label d s t}, I' t → I s → G label (get t) s →
      I' (put d s t) ∧ G' (relabel label) t (put d s t))
    {p : Proc ℓ ε σ α} {t : τ} (hgrants : GrantsWhen ready R G I Post (get t) p) :
    GrantsWhen ready' R' G' I' (fun result t => Post result (get t)) t
      (Proc.embed relabel view get put p) := by
  induction p generalizing t with
  | ret result => exact hgrants
  | act label update next ih =>
      intro d t' hrelies hinv' hready'
      obtain ⟨hnext, hstep, htail⟩ := hgrants (view d t') (get t') (hrely hrelies)
        (hinv hinv') (hready hready')
      obtain ⟨hkept, hmove⟩ := hput hinv' hnext hstep
      refine ⟨hkept, hmove, ih (view d t') (get t') ?_⟩
      rw [hget]
      exact htail

end GrantsWhen

/-- In states with `Q` the thread has at most `n` actions left, all of them with
quiet labels and without effect, and returns `result`. -/
def Declines (Q : σ → Prop) (quiet : ℓ → Prop) (result : α) :
    ℕ → Proc ℓ ε σ α → Prop
  | _, .ret r => r = result
  | 0, .act _ _ _ => False
  | n + 1, .act label update next =>
      quiet label ∧ ∀ env s, Q s →
        update env s = s ∧ Declines Q quiet result n (next env s)

section Declines

variable {Q : σ → Prop} {quiet : ℓ → Prop}

@[simp] theorem declines_ret {result r : α} {n : ℕ} :
    Declines Q quiet result n (.ret r : Proc ℓ ε σ α) ↔ r = result := by
  cases n <;> simp [Declines]

theorem Declines.mono
    {result : α} {n m : ℕ} {p : Proc ℓ ε σ α}
    (hdeclines : Declines Q quiet result n p) (hle : n ≤ m) :
    Declines Q quiet result m p := by
  induction p generalizing n m with
  | ret r => exact declines_ret.mpr (declines_ret.mp hdeclines)
  | act label update next ih =>
      cases n with
      | zero => exact hdeclines.elim
      | succ n =>
          obtain ⟨m, rfl⟩ : ∃ m', m = m' + 1 := ⟨m - 1, by omega⟩
          refine ⟨hdeclines.1, fun env s hs => ?_⟩
          obtain ⟨hsame, hrest⟩ := hdeclines.2 env s hs
          exact ⟨hsame, ih env s hrest (by omega)⟩

theorem Declines.bind
    {result : α} {result' : β} {n : ℕ} {p : Proc ℓ ε σ α} {rest : α → Proc ℓ ε σ β}
    (hdeclines : Declines Q quiet result n p) (hrest : rest result = .ret result') :
    Declines Q quiet result' n (p.bind rest) := by
  induction p generalizing n with
  | ret r =>
      rw [declines_ret] at hdeclines
      subst hdeclines
      change Declines Q quiet result' n (rest r)
      rw [hrest]
      exact declines_ret.mpr rfl
  | act label update next ih =>
      cases n with
      | zero => exact hdeclines.elim
      | succ n =>
          refine ⟨hdeclines.1, fun env s hs => ?_⟩
          obtain ⟨hsame, hlater⟩ := hdeclines.2 env s hs
          exact ⟨hsame, ih env s hlater⟩

end Declines

end Proc

namespace Pool

/-- The thread has to wait for its next action. -/
def waits (ready : ℓ → σ → Bool) (pool : Pool ℓ ε σ α) (thread : ℕ) : Bool :=
  match pool.threads[thread]? with
  | some (.act label _ _) => !ready label pool.shared
  | _ => false

/-- The turns at which nobody has to wait. -/
def granted (ready : ℓ → σ → Bool) :
    Pool ℓ ε σ α → List (ℕ × ε) → List (ℕ × ε)
  | _, [] => []
  | pool, turn :: rest =>
      if pool.waits ready turn.1 then granted ready pool rest
      else turn :: granted ready (pool.step turn) rest

/-- A run in which a turn is lost if the thread has to wait. -/
def runWhen (ready : ℓ → σ → Bool) (pool : Pool ℓ ε σ α)
    (schedule : List (ℕ × ε)) : Pool ℓ ε σ α :=
  pool.run (pool.granted ready schedule)

variable {ready : ℓ → σ → Bool}

theorem granted_sublist (pool : Pool ℓ ε σ α) (schedule : List (ℕ × ε)) :
    (pool.granted ready schedule).Sublist schedule := by
  induction schedule generalizing pool with
  | nil => exact .slnil
  | cons turn rest ih =>
      rw [granted]
      split
      · exact (ih pool).cons _
      · exact (ih (pool.step turn)).cons_cons _

theorem granted_idle
    {pool : Pool ℓ ε σ α} {thread : ℕ} {schedule : List (ℕ × ε)}
    (hidle : ∀ turn ∈ schedule, turn.1 ≠ thread) :
    ∀ turn ∈ pool.granted ready schedule, turn.1 ≠ thread :=
  fun turn hturn => hidle turn ((granted_sublist pool schedule).subset hturn)

theorem granted_admits (pool : Pool ℓ ε σ α) (schedule : List (ℕ × ε)) :
    pool.Admits (fun label _ s => ready label s = true)
      (pool.granted ready schedule) := by
  induction schedule generalizing pool with
  | nil => trivial
  | cons turn rest ih =>
      rw [granted]
      split
      · exact ih pool
      · rename_i hgranted
        refine ⟨fun label update next hthread => ?_, ih (pool.step turn)⟩
        simpa [waits, hthread] using hgranted

section Relies

variable {R : ℕ → σ → σ → Prop} {G : ℕ → ℓ → σ → σ → Prop} {I : σ → Prop}
variable {Post : ℕ → α → σ → Prop}

theorem step_grantsWhen
    {pool : Pool ℓ ε σ α} (turn : ℕ × ε)
    (hrefl : ∀ thread s, R thread s s)
    (htrans : ∀ thread {a b c}, R thread a b → R thread b c → R thread a c)
    (hothers : ∀ mover thread label {a b}, mover ≠ thread →
      G mover label a b → R thread a b)
    (hstable : ∀ thread result {a b}, R thread a b → Post thread result a →
      Post thread result b)
    (hthreads : ∀ thread p, pool.threads[thread]? = some p →
      Proc.GrantsWhen ready (R thread) (G thread) I (Post thread) pool.shared p)
    (hinit : I pool.shared)
    (hready : ∀ label update next, pool.threads[turn.1]? =
      some (.act label update next) → ready label pool.shared = true) :
    I (pool.step turn).shared ∧
      ∀ thread p, (pool.step turn).threads[thread]? = some p →
        Proc.GrantsWhen ready (R thread) (G thread) I (Post thread)
          (pool.step turn).shared p := by
  rcases step_cases pool turn with ⟨label, update, next, hthread⟩ | hsame
  · obtain ⟨hnext, hmove, htail⟩ := hthreads turn.1 _ hthread turn.2 pool.shared
      (hrefl turn.1 _) hinit (hready label update next hthread)
    have hbound : turn.1 < pool.threads.length :=
      (List.getElem?_eq_some_iff.mp hthread).1
    rw [step_eq_of_act hthread]
    refine ⟨hnext, ?_⟩
    intro thread p hp
    by_cases heq : turn.1 = thread
    · subst heq
      simp only [List.getElem?_set_self hbound, Option.some.injEq] at hp
      subst hp
      exact htail
    · rw [List.getElem?_set_ne heq] at hp
      exact (hthreads thread p hp).grown (htrans thread) (hstable thread)
        (hothers turn.1 thread label heq hmove)
  · rw [hsame]
    exact ⟨hinit, hthreads⟩

/-- Every thread keeps its contract if what the others guarantee is what it
relies on. -/
theorem runWhen_relies
    {pool : Pool ℓ ε σ α} (schedule : List (ℕ × ε))
    (hrefl : ∀ thread s, R thread s s)
    (htrans : ∀ thread {a b c}, R thread a b → R thread b c → R thread a c)
    (hothers : ∀ mover thread label {a b}, mover ≠ thread →
      G mover label a b → R thread a b)
    (hstable : ∀ thread result {a b}, R thread a b → Post thread result a →
      Post thread result b)
    (hthreads : ∀ thread p, pool.threads[thread]? = some p →
      Proc.GrantsWhen ready (R thread) (G thread) I (Post thread) pool.shared p)
    (hinit : I pool.shared) :
    I (pool.runWhen ready schedule).shared ∧
      ∀ thread p, (pool.runWhen ready schedule).threads[thread]? = some p →
        Proc.GrantsWhen ready (R thread) (G thread) I (Post thread)
          (pool.runWhen ready schedule).shared p := by
  have hadmits : pool.Admits (fun label _ s => ready label s = true)
      (pool.granted ready schedule) := granted_admits pool schedule
  unfold runWhen
  generalize pool.granted ready schedule = turns at hadmits ⊢
  induction turns generalizing pool with
  | nil => exact ⟨hinit, hthreads⟩
  | cons turn rest ih =>
      obtain ⟨hnext, hafter⟩ := step_grantsWhen turn hrefl htrans hothers hstable
        hthreads hinit hadmits.1
      exact ih hafter hnext hadmits.2

end Relies

/-! ## Threads without effect -/

section Declines

variable {Q : σ → Prop} {quiet : ℓ → Prop} {action : ℓ → (ε → σ → σ) → Prop}

/-- A turn of a thread that declines takes one of the actions it has left. -/
theorem step_declines
    {pool : Pool ℓ ε σ α} (turn : ℕ × ε) {thread n : ℕ} {result : α}
    {p : Proc ℓ ε σ α} (hinit : Q pool.shared)
    (hp : pool.threads[thread]? = some p)
    (hdeclines : Proc.Declines Q quiet result n p) :
    (∀ label update next,
      pool.threads[turn.1]? = some (.act label update next) →
        turn.1 = thread → quiet label ∧ update turn.2 pool.shared = pool.shared) ∧
      ∃ p', (pool.step turn).threads[thread]? = some p' ∧
        Proc.Declines Q quiet result (n - if turn.1 = thread then 1 else 0) p' := by
  by_cases hown : turn.1 = thread
  · subst hown
    rw [if_pos rfl]
    cases p with
    | ret r =>
        have hsame : pool.step turn = pool := by simp [step, hp]
        refine ⟨fun _ _ _ hact => by simp [hp] at hact, .ret r, ?_, ?_⟩
        · rw [hsame, hp]
        · exact Proc.declines_ret.mpr (Proc.declines_ret.mp hdeclines)
    | act label update next =>
        cases n with
        | zero => exact hdeclines.elim
        | succ n =>
            obtain ⟨hquiet, heffect⟩ := hdeclines
            obtain ⟨hsame, hrest⟩ := heffect turn.2 pool.shared hinit
            have hbound := (List.getElem?_eq_some_iff.mp hp).1
            refine ⟨?_, next turn.2 pool.shared, ?_, hrest⟩
            · intro label' update' next' hact _
              cases hp.symm.trans hact
              exact ⟨hquiet, hsame⟩
            · rw [step_eq_of_act hp]
              exact List.getElem?_set_self hbound
  · have hidle : ∀ other ∈ [turn], other.1 ≠ thread := by simpa using hown
    rw [if_neg hown]
    exact ⟨fun _ _ _ _ hmover => absurd hmover hown, p,
      (run_idle hidle).trans hp, hdeclines⟩

/-- A thread that declines and never waits returns after its last turn. -/
theorem runWhen_declines
    {pool : Pool ℓ ε σ α} {schedule : List (ℕ × ε)} {thread n : ℕ} {result : α}
    {p : Proc ℓ ε σ α}
    (hthreads : ∀ p ∈ pool.threads, Proc.Acts action p)
    (hkeeps : ∀ label update, action label update →
      ∀ env s, Q s → Q (update env s))
    (hready : ∀ label s, quiet label → Q s → ready label s = true)
    (hinit : Q pool.shared) (hp : pool.threads[thread]? = some p)
    (hdeclines : Proc.Declines Q quiet result n p) :
    pool.Moves (fun mover label s s' => mover = thread → quiet label ∧ s' = s)
        (pool.granted ready schedule) ∧
      (n ≤ turns thread schedule →
        (pool.runWhen ready schedule).threads[thread]? = some (.ret result)) := by
  unfold runWhen
  induction schedule generalizing pool n p with
  | nil =>
      refine ⟨trivial, fun hn => ?_⟩
      cases p with
      | ret r => rw [granted, run_nil, hp, Proc.declines_ret.mp hdeclines]
      | act label update next =>
          obtain rfl : n = 0 := by simpa [turns] using hn
          exact hdeclines.elim
  | cons turn rest ih =>
      rw [granted]
      split
      · rename_i hwaits
        -- a thread that declines never waits, so it has returned or is another
        obtain ⟨hmoves, hdone⟩ := ih hthreads hinit hp hdeclines
        refine ⟨hmoves, fun hn => ?_⟩
        by_cases hown : turn.1 = thread
        · subst hown
          cases p with
          | ret r =>
              exact (ih (n := 0) hthreads hinit hp
                (Proc.declines_ret.mpr (Proc.declines_ret.mp hdeclines))).2
                (Nat.zero_le _)
          | act label update next =>
              cases n with
              | zero => exact hdeclines.elim
              | succ n =>
                  have hgo := hready label pool.shared hdeclines.1 hinit
                  simp [waits, hp, hgo] at hwaits
        · exact hdone (by simpa [turns, hown] using hn)
      · obtain ⟨hmove, p', hp', hdeclines'⟩ := step_declines turn hinit hp hdeclines
        have hnext : Q (pool.step turn).shared :=
          @step_invariant _ _ _ _ Q (fun _ _ _ => True) action pool turn hthreads
            (fun label update hact env s hs _ => hkeeps label update hact env s hs)
            (fun _ _ _ _ => trivial) hinit
        obtain ⟨hmoves, hdone⟩ := ih (step_acts hthreads turn) hnext hp' hdeclines'
        refine ⟨⟨hmove, hmoves⟩, fun hn => hdone ?_⟩
        by_cases hown : turn.1 = thread
        · simp only [turns, List.countP_cons, hown, decide_true, if_true] at hn ⊢
          omega
        · simpa [turns, hown] using hn

end Declines

end Pool

end SingEwp
