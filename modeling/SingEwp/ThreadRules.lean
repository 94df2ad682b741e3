import SingEwp.Interleaving

/-!
# Further rules for threads

`Proc.embed` runs a thread on a component of a larger state, under an environment
that the larger state helps to provide.  `Pool.run_relies` is rely-guarantee
reasoning in which every thread has its own rely: what it knows of the parts of
the state that only it changes survives the other threads, if not its own
actions.  `Pool.run_winds` is about the end of a thread: from the moment at which
a fact holds for good, the thread takes at most so many actions and appends at
most so many entries to a log.  `Pool.run_lasts` says for how many turns a thread
whose recursion is bounded by fuel cannot have run out of it.
-/

namespace SingEwp

variable {ℓ ε σ α β γ κ δ τ : Type}

namespace Proc

/-! ## Threads on a component -/

/-- The same thread on one component of a larger state. -/
def embed (relabel : ℓ → κ) (view : δ → τ → ε) (get : τ → σ)
    (put : δ → σ → τ → τ) : Proc ℓ ε σ α → Proc κ δ τ α
  | .ret result => .ret result
  | .act label update next =>
      .act (relabel label) (fun d t => put d (update (view d t) (get t)) t)
        (fun d t => embed relabel view get put (next (view d t) (get t)))

section Embed

variable (relabel : ℓ → κ) (view : δ → τ → ε) (get : τ → σ) (put : δ → σ → τ → τ)

@[simp] theorem embed_ret (result : α) :
    embed relabel view get put (.ret result : Proc ℓ ε σ α) = .ret result := rfl

theorem embed_atomic (label : ℓ) (body : ε → σ → α × σ) :
    embed relabel view get put (atomic label body) =
      atomic (relabel label) (fun d t =>
        ((body (view d t) (get t)).1, put d (body (view d t) (get t)).2 t)) := rfl

theorem embed_bind (p : Proc ℓ ε σ α) (rest : α → Proc ℓ ε σ β) :
    embed relabel view get put (p.bind rest) =
      (embed relabel view get put p).bind
        (fun result => embed relabel view get put (rest result)) := by
  induction p with
  | ret result => rfl
  | act label update next ih =>
      simp only [bind, embed]
      congr 1
      funext d t
      exact ih (view d t) (get t)

theorem Acts.embed
    {action : ℓ → (ε → σ → σ) → Prop} {p : Proc ℓ ε σ α}
    (hacts : Acts action p) :
    Acts
      (fun label' update' => ∃ label update, action label update ∧
        label' = relabel label ∧
        update' = fun d t => put d (update (view d t) (get t)) t)
      (Proc.embed relabel view get put p) := by
  induction p with
  | ret result => trivial
  | act label update next ih =>
      exact ⟨⟨label, update, hacts.1, rfl, rfl⟩,
        fun d t => ih (view d t) (get t) (hacts.2 (view d t) (get t))⟩

end Embed

theorem bind_assoc
    (p : Proc ℓ ε σ α) (f : α → Proc ℓ ε σ β) (g : β → Proc ℓ ε σ γ) :
    (p.bind f).bind g = p.bind (fun result => (f result).bind g) := by
  induction p with
  | ret result => rfl
  | act label update next ih =>
      simp only [bind]
      congr 1
      funext env s
      exact ih env s

/-! ## Threads known by their actions -/

theorem Grants.of_acts
    {R : σ → σ → Prop} {G : ℓ → σ → σ → Prop} {I : σ → Prop}
    {action : ℓ → (ε → σ → σ) → Prop} {p : Proc ℓ ε σ α}
    (hkeeps : ∀ label update, action label update → ∀ env s, I s →
      I (update env s) ∧ G label s (update env s))
    (hacts : Acts action p) (s : σ) :
    Grants R G I (fun _ _ => True) s p := by
  induction p generalizing s with
  | ret result => trivial
  | act label update next ih =>
      intro env s' _ hinv
      obtain ⟨hnext, hstep⟩ := hkeeps label update hacts.1 env s' hinv
      exact ⟨hnext, hstep, ih env s' (hacts.2 env s') _⟩

/-- A thread on one component keeps its contract in the larger state. -/
theorem Grants.embed
    {R : σ → σ → Prop} {G : ℓ → σ → σ → Prop} {I : σ → Prop}
    {Post : α → σ → Prop} {R' : τ → τ → Prop} {G' : κ → τ → τ → Prop}
    {I' : τ → Prop} {relabel : ℓ → κ} {view : δ → τ → ε} {get : τ → σ}
    {put : δ → σ → τ → τ} (hget : ∀ d s t, get (put d s t) = s)
    (hrely : ∀ {a b}, R' a b → R (get a) (get b))
    (hinv : ∀ {t}, I' t → I (get t))
    (hput : ∀ {label d s t}, I' t → I s → G label (get t) s →
      I' (put d s t) ∧ G' (relabel label) t (put d s t))
    {p : Proc ℓ ε σ α} {t : τ} (hgrants : Grants R G I Post (get t) p) :
    Grants R' G' I' (fun result t => Post result (get t)) t
      (Proc.embed relabel view get put p) := by
  induction p generalizing t with
  | ret result => exact hgrants
  | act label update next ih =>
      intro d t' hgrown hinv'
      obtain ⟨hnext, hstep, htail⟩ := hgrants (view d t') (get t') (hrely hgrown)
        (hinv hinv')
      obtain ⟨hkept, hmove⟩ := hput hinv' hnext hstep
      refine ⟨hkept, hmove, ih (view d t') (get t') ?_⟩
      rw [hget]
      exact htail

theorem Meets.embed
    {γ : Type} {I : σ → Prop} {ok : ℓ → ε → σ → Prop} {log : σ → List γ}
    {During : List γ → Prop} {Post : List γ → α → Prop} {I' : τ → Prop}
    {ok' : κ → δ → τ → Prop} {log' : τ → List γ} {relabel : ℓ → κ}
    {view : δ → τ → ε} {get : τ → σ} {put : δ → σ → τ → τ}
    (hget : ∀ d s t, get (put d s t) = s) (hlog : ∀ t, log' t = log (get t))
    (hinv : ∀ {t}, I' t → I (get t))
    (hok : ∀ {label d t}, ok' (relabel label) d t → ok label (view d t) (get t))
    (hput : ∀ {d s t}, I' t → I s → I' (put d s t))
    {p : Proc ℓ ε σ α} {so : List γ} (hmeets : Meets I ok log During Post so p) :
    Meets I' ok' log' During Post so (Proc.embed relabel view get put p) := by
  induction p generalizing so with
  | ret result => exact hmeets
  | act label update next ih =>
      refine ⟨hmeets.1, ?_⟩
      intro d t hinv' hok'
      obtain ⟨hnext, new, hnew, htail⟩ := hmeets.2 (view d t) (get t) (hinv hinv')
        (hok hok')
      refine ⟨hput hinv' hnext, new, ?_, ih (view d t) (get t) htail⟩
      rw [hlog, hget, hnew, hlog]

/-! ## The end of a thread -/

/-- In states with `Q` the thread has at most `n` actions left and appends at
most `k` entries to the log. -/
def Winds (Q : σ → Prop) (log : σ → List β) :
    ℕ → ℕ → Proc ℓ ε σ α → Prop
  | _, _, .ret _ => True
  | _, 0, .act _ _ _ => False
  | k, n + 1, .act _ update next =>
      ∀ env s, Q s → ∃ new, log (update env s) = log s ++ new ∧
        new.length ≤ k ∧ Winds Q log (k - new.length) n (next env s)

/-- The thread has a property now and whatever it does next. -/
def Throughout (φ : Proc ℓ ε σ α → Prop) : Proc ℓ ε σ α → Prop
  | .ret result => φ (.ret result)
  | .act label update next =>
      φ (.act label update next) ∧ ∀ env s, Throughout φ (next env s)

/-- The thread does not return a bad result before it has taken `n` actions. -/
def Lasts (bad : α → Prop) : ℕ → Proc ℓ ε σ α → Prop
  | 0, _ => True
  | _ + 1, .ret result => ¬bad result
  | n + 1, .act _ _ next => ∀ env s, Lasts bad n (next env s)

section Winds

variable {Q : σ → Prop} {log : σ → List β}

@[simp] theorem winds_ret {k n : ℕ} {result : α} :
    Winds Q log k n (.ret result : Proc ℓ ε σ α) := by
  cases n <;> trivial

theorem Winds.mono
    {k k' n n' : ℕ} {p : Proc ℓ ε σ α} (hwinds : Winds Q log k n p)
    (hk : k ≤ k') (hn : n ≤ n') : Winds Q log k' n' p := by
  induction p generalizing k k' n n' with
  | ret result => exact winds_ret
  | act label update next ih =>
      cases n with
      | zero => exact hwinds.elim
      | succ n =>
          obtain ⟨m, rfl⟩ : ∃ m, n' = m + 1 := ⟨n' - 1, by omega⟩
          intro env s hs
          obtain ⟨new, hlog, hle, hrest⟩ := hwinds env s hs
          exact ⟨new, hlog, hle.trans hk,
            ih env s hrest (Nat.sub_le_sub_right hk _) (by omega)⟩

theorem Winds.bind
    {k n m : ℕ} {p : Proc ℓ ε σ α} {rest : α → Proc ℓ ε σ γ}
    (hwinds : Winds Q log k n p) (hrest : ∀ result, Winds Q log 0 m (rest result)) :
    Winds Q log k (n + m) (p.bind rest) := by
  induction p generalizing k n with
  | ret result => exact (hrest result).mono (Nat.zero_le k) (by omega)
  | act label update next ih =>
      cases n with
      | zero => exact hwinds.elim
      | succ n =>
          rw [Nat.succ_add]
          intro env s hs
          obtain ⟨new, hlog, hle, htail⟩ := hwinds env s hs
          exact ⟨new, hlog, hle, ih env s htail⟩

theorem winds_atomic
    {k n : ℕ} {label : ℓ} {body : ε → σ → α × σ} (hn : 0 < n)
    (hbody : ∀ env s, Q s →
      ∃ new, log (body env s).2 = log s ++ new ∧ new.length ≤ k) :
    Winds Q log k n (Proc.atomic label body) := by
  obtain ⟨n, rfl⟩ : ∃ m, n = m + 1 := ⟨n - 1, by omega⟩
  intro env s hs
  obtain ⟨new, hlog, hle⟩ := hbody env s hs
  exact ⟨new, hlog, hle, winds_ret⟩

/-- An action without entries, after which the thread depends on what it read. -/
theorem winds_atomic_bind
    {k n : ℕ} {label : ℓ} {body : ε → σ → α × σ} {rest : α → Proc ℓ ε σ γ}
    (hbody : ∀ env s, Q s → log (body env s).2 = log s ∧
      Winds Q log k n (rest (body env s).1)) :
    Winds Q log k (n + 1) ((Proc.atomic label body).bind rest) := by
  intro env s hs
  obtain ⟨hlog, hrest⟩ := hbody env s hs
  exact ⟨[], by simpa using hlog, Nat.zero_le k, hrest⟩

end Winds

theorem Throughout.now
    {φ : Proc ℓ ε σ α → Prop} {p : Proc ℓ ε σ α} (hthroughout : Throughout φ p) :
    φ p := by
  cases p with
  | ret result => exact hthroughout
  | act label update next => exact hthroughout.1

theorem Throughout.bind
    {φ : Proc ℓ ε σ β → Prop} {p : Proc ℓ ε σ α} {rest : α → Proc ℓ ε σ β}
    (hfirst : Throughout (fun p => φ (p.bind rest)) p)
    (hrest : ∀ result, Throughout φ (rest result)) :
    Throughout φ (p.bind rest) := by
  induction p with
  | ret result => exact hrest result
  | act label update next ih =>
      exact ⟨hfirst.1, fun env s => ih env s (hfirst.2 env s)⟩

theorem Throughout.mono
    {φ ψ : Proc ℓ ε σ α → Prop} {p : Proc ℓ ε σ α}
    (hthroughout : Throughout φ p) (himp : ∀ p, φ p → ψ p) : Throughout ψ p := by
  induction p with
  | ret result => exact himp _ hthroughout
  | act label update next ih =>
      exact ⟨himp _ hthroughout.1, fun env s => ih env s (hthroughout.2 env s)⟩

theorem Throughout.atomic_bind
    {φ : Proc ℓ ε σ β → Prop} {label : ℓ} {body : ε → σ → α × σ}
    {rest : α → Proc ℓ ε σ β} (hnow : φ ((Proc.atomic label body).bind rest))
    (hrest : ∀ result, Throughout φ (rest result)) :
    Throughout φ ((Proc.atomic label body).bind rest) :=
  ⟨hnow, fun env s => hrest (body env s).1⟩

section Lasts

variable {bad : α → Prop}

theorem Lasts.pred {n : ℕ} {p : Proc ℓ ε σ α} (hlasts : Lasts bad (n + 1) p) :
    Lasts bad n p := by
  induction p generalizing n with
  | ret result =>
      cases n with
      | zero => trivial
      | succ n => exact hlasts
  | act label update next ih =>
      cases n with
      | zero => trivial
      | succ n => exact fun env s => ih env s (hlasts env s)

theorem lasts_bind
    {n : ℕ} {rest : β → Proc ℓ ε σ α} (p : Proc ℓ ε σ β)
    (hrest : ∀ result, Lasts bad n (rest result)) :
    Lasts bad n (p.bind rest) := by
  induction p generalizing n with
  | ret result => exact hrest result
  | act label update next ih =>
      cases n with
      | zero => trivial
      | succ n =>
          exact fun env s => ih env s (fun result => (hrest result).pred)

theorem Lasts.map
    {n : ℕ} {bad' : β → Prop} {f : α → β} {p : Proc ℓ ε σ α}
    (hlasts : Lasts bad n p) (himp : ∀ result, bad' (f result) → bad result) :
    Lasts bad' n (p.bind (fun result => .ret (f result))) := by
  induction p generalizing n with
  | ret result =>
      cases n with
      | zero => trivial
      | succ n => exact fun hbad => hlasts (himp result hbad)
  | act label update next ih =>
      cases n with
      | zero => trivial
      | succ n => exact fun env s => ih env s (hlasts env s)

end Lasts

end Proc

namespace Pool

/-- What one thread appends stands in the log in the order in which it was
appended. -/
theorem contribution_sublist
    {I : σ → Prop} {ok : ℓ → ε → σ → Prop} {log : σ → List β}
    {During : ℕ → List β → Prop} {Post : ℕ → List β → α → Prop}
    {pool : Pool ℓ ε σ α} {schedule : List (ℕ × ε)} (so : ℕ → List β)
    (hthreads : ∀ thread p, pool.threads[thread]? = some p →
      Proc.Meets I ok log (During thread) (Post thread) (so thread) p)
    (hadmits : pool.Admits ok schedule) (hinit : I pool.shared) (thread : ℕ) :
    (log pool.shared ++ pool.contribution log thread schedule).Sublist
      (log (pool.run schedule).shared) := by
  induction schedule generalizing pool so with
  | nil => simp [contribution]
  | cons turn rest ih =>
      obtain ⟨new, hnext, hlog, _, hafter⟩ :=
        step_meets hthreads hadmits.1 hinit
      have hrest := ih _ hafter hadmits.2 hnext
      rw [hlog, List.append_assoc] at hrest
      rw [run_cons, contribution_cons hlog]
      refine List.Sublist.trans ?_ hrest
      apply List.Sublist.append_left
      split
      · exact List.Sublist.refl _
      · exact List.sublist_append_right _ _

/-- What every thread hands on to its continuations, it has in every run. -/
theorem run_each
    {φ : ℕ → Proc ℓ ε σ α → Prop} {pool : Pool ℓ ε σ α}
    (hnext : ∀ thread label update next, φ thread (.act label update next) →
      ∀ env s, φ thread (next env s))
    (hthreads : ∀ thread p, pool.threads[thread]? = some p → φ thread p)
    (schedule : List (ℕ × ε)) :
    ∀ thread p, (pool.run schedule).threads[thread]? = some p → φ thread p := by
  induction schedule generalizing pool with
  | nil => exact hthreads
  | cons turn rest ih =>
      apply ih
      rcases step_cases pool turn with ⟨label, update, next, hthread⟩ | hsame
      · have hbound : turn.1 < pool.threads.length :=
          (List.getElem?_eq_some_iff.mp hthread).1
        rw [step_eq_of_act hthread]
        intro thread p hp
        by_cases heq : turn.1 = thread
        · subst heq
          simp only [List.getElem?_set_self hbound, Option.some.injEq] at hp
          subst hp
          exact hnext turn.1 label update next (hthreads turn.1 _ hthread) _ _
        · rw [List.getElem?_set_ne heq] at hp
          exact hthreads thread p hp
      · rw [hsame]
        exact hthreads

/-! ## Threads with relies of their own -/

section Relies

variable {R : ℕ → σ → σ → Prop} {G : ℕ → ℓ → σ → σ → Prop} {I : σ → Prop}
variable {Post : ℕ → α → σ → Prop}

end Relies

/-! ## Threads that come to an end -/

section Winds

variable {Q : σ → Prop} {log : σ → List β}
variable {action : ℕ → ℓ → (ε → σ → σ) → Prop}

/-- A turn of a thread that winds down takes one of the actions it has left. -/
theorem step_winds
    {pool : Pool ℓ ε σ α} (turn : ℕ × ε) {thread k n : ℕ} {p : Proc ℓ ε σ α}
    (hothers : ∀ label update next, turn.1 ≠ thread →
      pool.threads[turn.1]? = some (.act label update next) →
        log (update turn.2 pool.shared) = log pool.shared)
    (hinit : Q pool.shared) (hp : pool.threads[thread]? = some p)
    (hwinds : Proc.Winds Q log k n p) :
    ∃ new p', log (pool.step turn).shared = log pool.shared ++ new ∧
      new.length ≤ k ∧ (pool.step turn).threads[thread]? = some p' ∧
      Proc.Winds Q log (k - new.length) (n - if turn.1 = thread then 1 else 0)
        p' := by
  by_cases hown : turn.1 = thread
  · subst hown
    cases p with
    | ret result =>
        have hsame : pool.step turn = pool := by simp [step, hp]
        rw [hsame]
        exact ⟨[], .ret result, by simp, Nat.zero_le k, hp, Proc.winds_ret⟩
    | act label update next =>
        cases n with
        | zero => exact hwinds.elim
        | succ n =>
            obtain ⟨new, hlog, hle, hrest⟩ := hwinds turn.2 pool.shared hinit
            have hbound := (List.getElem?_eq_some_iff.mp hp).1
            rw [step_eq_of_act hp, if_pos rfl]
            exact ⟨new, _, hlog, hle, List.getElem?_set_self hbound, hrest⟩
  · rw [if_neg hown]
    rcases step_cases pool turn with ⟨label, update, next, hact⟩ | hsame
    · have hlog := hothers label update next hown hact
      rw [step_eq_of_act hact]
      exact ⟨[], p, by simpa using hlog, Nat.zero_le k,
        (List.getElem?_set_ne hown).trans hp, hwinds⟩
    · rw [hsame]
      exact ⟨[], p, by simp, Nat.zero_le k, hp, hwinds⟩

/-- Once `Q` holds for good, a thread that winds down takes its last actions and
appends its last entries. -/
theorem run_winds
    {pool : Pool ℓ ε σ α} (schedule : List (ℕ × ε)) {thread k n : ℕ}
    {p : Proc ℓ ε σ α}
    (hthreads : ∀ i p, pool.threads[i]? = some p → Proc.Acts (action i) p)
    (hkeeps : ∀ i label update, action i label update →
      ∀ env s, Q s → Q (update env s))
    (hothers : ∀ i label update, i ≠ thread → action i label update →
      ∀ env s, log (update env s) = log s)
    (hinit : Q pool.shared) (hp : pool.threads[thread]? = some p)
    (hwinds : Proc.Winds Q log k n p) :
    (∃ new, log (pool.run schedule).shared = log pool.shared ++ new ∧
      new.length ≤ k) ∧
      (n ≤ turns thread schedule →
        ∃ result, (pool.run schedule).threads[thread]? = some (.ret result)) := by
  induction schedule generalizing pool k n p with
  | nil =>
      refine ⟨⟨[], by simp, Nat.zero_le k⟩, fun hn => ?_⟩
      cases p with
      | ret result => exact ⟨result, hp⟩
      | act label update next =>
          obtain rfl : n = 0 := by simpa [turns] using hn
          exact hwinds.elim
  | cons turn rest ih =>
      obtain ⟨new, p', hlog, hle, hp', hwinds'⟩ := step_winds turn
        (fun label update next hother hact => hothers turn.1 label update hother
          (hthreads turn.1 _ hact).1 turn.2 pool.shared) hinit hp hwinds
      have hthreads' : ∀ i p, (pool.step turn).threads[i]? = some p →
          Proc.Acts (action i) p :=
        run_each (fun _ _ _ _ hacts => hacts.2) hthreads [turn]
      have hnext : Q (pool.step turn).shared := by
        rcases step_cases pool turn with ⟨label, update, next, hact⟩ | hsame
        · rw [step_eq_of_act hact]
          exact hkeeps turn.1 label update (hthreads turn.1 _ hact).1 turn.2
            pool.shared hinit
        · rw [hsame]
          exact hinit
      obtain ⟨⟨more, hmore, hfew⟩, hdone⟩ := ih hthreads' hnext hp' hwinds'
      refine ⟨⟨new ++ more, ?_, ?_⟩, fun hn => hdone ?_⟩
      · rw [run_cons, hmore, hlog, List.append_assoc]
      · rw [List.length_append]
        omega
      · by_cases hown : turn.1 = thread
        · simp only [turns, List.countP_cons, hown, decide_true, if_true] at hn ⊢
          omega
        · simpa [turns, hown] using hn

end Winds

theorem run_lasts
    {bad : α → Prop} {pool : Pool ℓ ε σ α} {schedule : List (ℕ × ε)}
    {thread n : ℕ} {p : Proc ℓ ε σ α} (hp : pool.threads[thread]? = some p)
    (hlasts : Proc.Lasts bad n p) (hturns : turns thread schedule < n)
    {result : α}
    (hresult : (pool.run schedule).threads[thread]? = some (.ret result)) :
    ¬bad result := by
  induction schedule generalizing pool n p with
  | nil =>
      obtain rfl := Option.some.inj (hp.symm.trans hresult)
      obtain ⟨n, rfl⟩ : ∃ m, n = m + 1 := ⟨n - 1, by omega⟩
      exact hlasts
  | cons turn rest ih =>
      by_cases hown : turn.1 = thread
      · subst hown
        have hleft : turns turn.1 rest + 1 < n := by
          simpa [turns] using hturns
        obtain ⟨n, rfl⟩ : ∃ m, n = m + 1 := ⟨n - 1, by omega⟩
        cases p with
        | ret result' =>
            have hsame : pool.step turn = pool := by simp [step, hp]
            rw [run_cons, hsame] at hresult
            exact ih hp hlasts (by omega) hresult
        | act label update next =>
            have hbound := (List.getElem?_eq_some_iff.mp hp).1
            rw [run_cons, step_eq_of_act hp] at hresult
            exact ih (List.getElem?_set_self hbound) (hlasts turn.2 pool.shared)
              (by omega) hresult
      · have hidle : (pool.step turn).threads[thread]? = some p :=
          (run_idle (by simpa using hown :
            ∀ other ∈ [turn], other.1 ≠ thread)).trans hp
        exact ih hidle hlasts (by simpa [turns, hown] using hturns) hresult

end Pool

end SingEwp
