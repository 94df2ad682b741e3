import Mathlib.Tactic

/-!
# Sessions of a reading adapter

An adapter pulls items from a source and answers calls.  A call passes over
items until one makes it return: the item is delivered, perhaps in parts that
later calls take from a buffer, or the adapter refuses it with an error of its
own.  A failure of the source ends the source for good.  A refusal does not, and
`Session.staysEnded_iff` says what that amounts to: a call succeeds after a
failed one exactly if an item is delivered after a refused one.
-/

namespace SingEwp

variable {φ ε α : Type}

inductive Verdict where
  | skip
  | deliver
  | refuse
  deriving DecidableEq

/-- One call: the items it took from the source and what it returned, `none`
while it waits. -/
structure ReadCall (φ ε α : Type) where
  items : List φ
  result : Option (Except ε α)

namespace ReadCall

def Succeeds (call : ReadCall φ ε α) : Prop := ∃ a, call.result = some (.ok a)

def Fails (call : ReadCall φ ε α) : Prop := ∃ e, call.result = some (.error e)

end ReadCall

inductive ReadPhase where
  | buffered
  | ready
  | ended

/-- What a call may do in each phase of the adapter. -/
inductive ReadCall.Step (verdict : φ → Verdict) :
    ReadPhase → ReadCall φ ε α → ReadPhase → Prop where
  | buffered (a : α) (next : ReadPhase) :
      Step verdict .buffered ⟨[], some (.ok a)⟩ next
  | waits (skipped : List φ) (hskipped : ∀ x ∈ skipped, verdict x = .skip) :
      Step verdict .ready ⟨skipped, none⟩ .ready
  | delivers (skipped : List φ) (hskipped : ∀ x ∈ skipped, verdict x = .skip)
      (x : φ) (hx : verdict x = .deliver) (a : α) (next : ReadPhase) :
      Step verdict .ready ⟨skipped ++ [x], some (.ok a)⟩ next
  | refuses (skipped : List φ) (hskipped : ∀ x ∈ skipped, verdict x = .skip)
      (x : φ) (hx : verdict x = .refuse) (e : ε) :
      Step verdict .ready ⟨skipped ++ [x], some (.error e)⟩ .ready
  | fails (skipped : List φ) (hskipped : ∀ x ∈ skipped, verdict x = .skip)
      (e : ε) : Step verdict .ready ⟨skipped, some (.error e)⟩ .ended
  | ended (e : ε) : Step verdict .ended ⟨[], some (.error e)⟩ .ended

/-- A call that takes nothing in waits or ends the reading. -/
theorem ReadCall.Step.of_nil
    {verdict : φ → Verdict} {result : Option (Except ε α)} {next : ReadPhase}
    (hstep : ReadCall.Step verdict .ready ⟨[], result⟩ next) :
    result = none ∨ next = .ended := by
  generalize hcall : (⟨[], result⟩ : ReadCall φ ε α) = call at hstep
  cases hstep with
  | waits => exact Or.inl (congrArg ReadCall.result hcall)
  | delivers => simp at hcall
  | refuses => simp at hcall
  | fails => exact Or.inr rfl

inductive Session (verdict : φ → Verdict) :
    ReadPhase → List (ReadCall φ ε α) → Prop where
  | nil (phase : ReadPhase) : Session verdict phase []
  | cons {phase next : ReadPhase} {call : ReadCall φ ε α}
      {calls : List (ReadCall φ ε α)} (hcall : call.Step verdict phase next)
      (hcalls : Session verdict next calls) :
      Session verdict phase (call :: calls)

/-- No call succeeds after one that failed. -/
def StaysEnded (results : List (Option (Except ε α))) : Prop :=
  results.Pairwise fun earlier later =>
    (∃ e, earlier = some (.error e)) → ∀ a, later ≠ some (.ok a)

/-- No item is delivered after a refused one. -/
def EndsAtRefusal (verdict : φ → Verdict) (items : List φ) : Prop :=
  items.Pairwise fun earlier later =>
    verdict earlier = .refuse → verdict later ≠ .deliver

instance (verdict : φ → Verdict) (items : List φ) :
    Decidable (EndsAtRefusal verdict items) :=
  inferInstanceAs (Decidable (List.Pairwise _ items))

variable {verdict : φ → Verdict}

/-! ## One call -/

theorem exists_verdict_skipped
    {skipped : List φ} {v : Verdict} (hv : v ≠ .skip)
    (hskipped : ∀ x ∈ skipped, verdict x = .skip) :
    ¬∃ x ∈ skipped, verdict x = v := by
  rintro ⟨x, hx, hverdict⟩
  exact hv (hverdict.symm.trans (hskipped x hx))

theorem exists_verdict_last
    {skipped : List φ} {v : Verdict} {x : φ} (hv : v ≠ .skip)
    (hskipped : ∀ x ∈ skipped, verdict x = .skip) :
    (∃ y ∈ skipped ++ [x], verdict y = v) ↔ verdict x = v := by
  have hnone := exists_verdict_skipped hv hskipped
  simp only [List.mem_append, List.mem_singleton, or_and_right, exists_or,
    exists_eq_left]
  exact or_iff_right hnone

namespace ReadCall.Step

variable {call : ReadCall φ ε α} {phase next : ReadPhase}

theorem succeeds_iff (hcall : call.Step verdict .ready next) :
    call.Succeeds ↔ ∃ x ∈ call.items, verdict x = .deliver := by
  have hdeliver : Verdict.deliver ≠ .skip := by decide
  cases hcall with
  | waits skipped hskipped =>
      simpa [Succeeds] using exists_verdict_skipped hdeliver hskipped
  | delivers skipped hskipped x hx a next =>
      rw [exists_verdict_last hdeliver hskipped]
      exact iff_of_true ⟨a, rfl⟩ hx
  | refuses skipped hskipped x hx e =>
      rw [exists_verdict_last hdeliver hskipped, hx]
      simp [Succeeds]
  | fails skipped hskipped e =>
      simpa [Succeeds] using exists_verdict_skipped hdeliver hskipped

theorem skip
    {items : List φ} {result : Option (Except ε α)} {x : φ}
    (hx : verdict x = .skip)
    (hcall : Step verdict .ready ⟨items, result⟩ next) :
    Step verdict .ready ⟨x :: items, result⟩ next := by
  have hcons : ∀ {skipped : List φ}, (∀ y ∈ skipped, verdict y = .skip) →
      ∀ y ∈ x :: skipped, verdict y = .skip :=
    fun hskipped => List.forall_mem_cons.mpr ⟨hx, hskipped⟩
  cases hcall with
  | waits skipped hskipped => exact .waits _ (hcons hskipped)
  | delivers skipped hskipped y hy a next =>
      exact .delivers (x :: skipped) (hcons hskipped) y hy a next
  | refuses skipped hskipped y hy e =>
      exact .refuses (x :: skipped) (hcons hskipped) y hy e
  | fails skipped hskipped e => exact .fails _ (hcons hskipped) e

/-- What a call does is settled by its items and by whether it succeeds. -/
theorem returns
    {β : Type} {items : List φ} {result : Option (Except ε α)}
    {result' : Option (Except ε β)} {next' : ReadPhase}
    (hcall : Step verdict .ready ⟨items, result⟩ next)
    (hwaits : result = none → result' = none ∧ next' = next)
    (hfails : ∀ e, result = some (.error e) →
      result' = some (.error e) ∧ next' = next)
    (hsucceeds : ∀ a, result = some (.ok a) → ∃ b, result' = some (.ok b)) :
    Step verdict .ready ⟨items, result'⟩ next' := by
  cases hcall with
  | waits skipped hskipped =>
      obtain ⟨rfl, rfl⟩ := hwaits rfl
      exact .waits _ hskipped
  | delivers skipped hskipped x hx a next =>
      obtain ⟨b, rfl⟩ := hsucceeds a rfl
      exact .delivers _ hskipped x hx b next'
  | refuses skipped hskipped x hx e =>
      obtain ⟨rfl, rfl⟩ := hfails e rfl
      exact .refuses _ hskipped x hx e
  | fails skipped hskipped e =>
      obtain ⟨rfl, rfl⟩ := hfails e rfl
      exact .fails _ hskipped e

/-- A call that waits may see the source fail. -/
theorem fails_of_waits
    {items : List φ}
    (hcall : Step verdict .ready (⟨items, none⟩ : ReadCall φ ε α) next) (e : ε) :
    Step verdict .ready (⟨items, some (.error e)⟩ : ReadCall φ ε α) .ended := by
  cases hcall with
  | waits skipped hskipped => exact .fails _ hskipped e

/-- A failed call has met a refused item, and the source is still there, or it
has met the end of the source. -/
theorem fails_cases (hcall : call.Step verdict phase next)
    (hfails : call.Fails) :
    ((∃ x ∈ call.items, verdict x = .refuse) ∧ next = .ready) ∨
      ((¬∃ x ∈ call.items, verdict x = .refuse) ∧ next = .ended) := by
  have hrefuse : Verdict.refuse ≠ .skip := by decide
  obtain ⟨e, he⟩ := hfails
  cases hcall with
  | buffered a next => cases he
  | waits skipped hskipped => cases he
  | delivers skipped hskipped x hx a next => cases he
  | refuses skipped hskipped x hx e =>
      exact Or.inl ⟨(exists_verdict_last hrefuse hskipped).mpr hx, rfl⟩
  | fails skipped hskipped e =>
      exact Or.inr ⟨exists_verdict_skipped hrefuse hskipped, rfl⟩
  | ended e => exact Or.inr ⟨by simp, rfl⟩

theorem next_of_not_succeeds (hcall : call.Step verdict .ready next)
    (hnot : ¬call.Succeeds) : next = .ready ∨ next = .ended := by
  cases hcall with
  | waits skipped hskipped => exact Or.inl rfl
  | delivers skipped hskipped x hx a next => exact absurd ⟨a, rfl⟩ hnot
  | refuses skipped hskipped x hx e => exact Or.inl rfl
  | fails skipped hskipped e => exact Or.inr rfl

theorem fails_of_refuse (hcall : call.Step verdict phase next)
    (hmem : ∃ x ∈ call.items, verdict x = .refuse) : call.Fails := by
  have hrefuse : Verdict.refuse ≠ .skip := by decide
  cases hcall with
  | buffered a next => simp at hmem
  | waits skipped hskipped =>
      exact absurd hmem (exists_verdict_skipped hrefuse hskipped)
  | delivers skipped hskipped x hx a next =>
      rw [exists_verdict_last hrefuse hskipped, hx] at hmem
      cases hmem
  | refuses skipped hskipped x hx e => exact ⟨e, rfl⟩
  | fails skipped hskipped e => exact ⟨e, rfl⟩
  | ended e => exact ⟨e, rfl⟩

/-- A call stops at the first item that it does not pass over. -/
theorem endsAtRefusal (hcall : call.Step verdict phase next) :
    EndsAtRefusal verdict call.items := by
  have hskip : ∀ {skipped : List φ}, (∀ x ∈ skipped, verdict x = .skip) →
      ∀ x ∈ skipped, verdict x ≠ .refuse := by
    intro skipped hskipped x hx hrefuse
    cases (hskipped x hx).symm.trans hrefuse
  have hskipped' : ∀ {skipped : List φ}, (∀ x ∈ skipped, verdict x = .skip) →
      EndsAtRefusal verdict skipped := by
    intro skipped hskipped
    apply List.pairwise_of_forall_mem_list
    intro x hx y _ hrefuse
    exact absurd hrefuse (hskip hskipped x hx)
  have hlast : ∀ {skipped : List φ} {x : φ},
      (∀ x ∈ skipped, verdict x = .skip) →
      EndsAtRefusal verdict (skipped ++ [x]) := by
    intro skipped x hskipped
    refine List.pairwise_append.mpr ⟨hskipped' hskipped, by simp, ?_⟩
    intro y hy z _ hrefuse
    exact absurd hrefuse (hskip hskipped y hy)
  cases hcall with
  | buffered a next => exact List.Pairwise.nil
  | waits skipped hskipped => exact hskipped' hskipped
  | delivers skipped hskipped x hx a next => exact hlast hskipped
  | refuses skipped hskipped x hx e => exact hlast hskipped
  | fails skipped hskipped e => exact hskipped' hskipped
  | ended e => exact List.Pairwise.nil

end ReadCall.Step

/-! ## Sessions -/

theorem ReadCall.Fails.not_succeeds
    {call : ReadCall φ ε α} (hfails : call.Fails) : ¬call.Succeeds := by
  rintro ⟨a, ha⟩
  obtain ⟨e, he⟩ := hfails
  cases ha.symm.trans he

namespace Session

variable {calls : List (ReadCall φ ε α)}

theorem ended_silent (hsession : Session verdict .ended calls) :
    (∀ call ∈ calls, call.Fails) ∧ calls.flatMap ReadCall.items = [] := by
  generalize hphase : ReadPhase.ended = phase at hsession
  induction hsession with
  | nil phase => simp
  | cons hcall hcalls ih =>
      subst hphase
      cases hcall with
      | ended e => simpa [ReadCall.Fails] using ih rfl

theorem not_succeeds_of_ended (hsession : Session verdict .ended calls) :
    ¬∃ call ∈ calls, call.Succeeds := by
  rintro ⟨call, hcall, hsucceeds⟩
  exact (hsession.ended_silent.1 call hcall).not_succeeds hsucceeds

/-- From an empty buffer, calls succeed if and only if items are delivered. -/
theorem succeeds_iff (hsession : Session verdict .ready calls) :
    (∃ call ∈ calls, call.Succeeds) ↔
      ∃ x ∈ calls.flatMap ReadCall.items, verdict x = .deliver := by
  generalize hphase : ReadPhase.ready = phase at hsession
  induction hsession with
  | nil phase => simp
  | @cons phase next call calls hcall hcalls ih =>
      subst hphase
      rw [List.exists_mem_cons_iff, hcall.succeeds_iff, List.flatMap_cons]
      simp only [List.mem_append, or_and_right, exists_or]
      by_cases hhead : ∃ x ∈ call.items, verdict x = .deliver
      · exact iff_of_true (Or.inl hhead) (Or.inl hhead)
      · rw [or_iff_right hhead, or_iff_right hhead]
        rcases hcall.next_of_not_succeeds (mt hcall.succeeds_iff.mp hhead) with
          hready | hended
        · exact ih hready.symm
        · subst hended
          refine iff_of_false hcalls.not_succeeds_of_ended ?_
          simp [hcalls.ended_silent.2]

theorem first_iff
    {call : ReadCall φ ε α} {phase next : ReadPhase}
    (hcall : call.Step verdict phase next)
    (hcalls : Session verdict next calls) :
    (call.Fails → ¬∃ later ∈ calls, later.Succeeds) ↔
      ∀ x ∈ call.items, ∀ y ∈ calls.flatMap ReadCall.items,
        verdict x = .refuse → verdict y ≠ .deliver := by
  by_cases hfails : call.Fails
  · rcases hcall.fails_cases hfails with ⟨⟨x, hx, hrefuse⟩, rfl⟩ | ⟨hnone, rfl⟩
    · rw [hcalls.succeeds_iff]
      constructor
      · intro hnot x _ y hy _ hdeliver
        exact hnot hfails ⟨y, hy, hdeliver⟩
      · rintro hall _ ⟨y, hy, hdeliver⟩
        exact hall x hx y hy hrefuse hdeliver
    · refine iff_of_true (fun _ => hcalls.not_succeeds_of_ended) ?_
      intro x hx _ _ hrefuse
      exact absurd ⟨x, hx, hrefuse⟩ hnone
  · refine iff_of_true (fun h => absurd h hfails) ?_
    intro x hx _ _ hrefuse
    exact absurd (hcall.fails_of_refuse ⟨x, hx, hrefuse⟩) hfails

theorem staysEnded_iff
    {phase : ReadPhase} (hsession : Session verdict phase calls) :
    StaysEnded (calls.map ReadCall.result) ↔
      EndsAtRefusal verdict (calls.flatMap ReadCall.items) := by
  induction hsession with
  | nil phase => exact iff_of_true List.Pairwise.nil List.Pairwise.nil
  | @cons phase next call calls hcall hcalls ih =>
      unfold StaysEnded EndsAtRefusal at ih ⊢
      rw [List.map_cons, List.pairwise_cons, List.flatMap_cons,
        List.pairwise_append, ih, ← first_iff hcall hcalls]
      have hhead : (∀ later ∈ calls.map ReadCall.result,
          (∃ e, call.result = some (.error e)) → ∀ a, later ≠ some (.ok a)) ↔
          (call.Fails → ¬∃ later ∈ calls, later.Succeeds) := by
        rw [List.forall_mem_map]
        constructor
        · rintro hall hfails ⟨later, hlater, a, ha⟩
          exact hall later hlater hfails a ha
        · intro hnot later hlater hfails a ha
          exact hnot hfails ⟨later, hlater, a, ha⟩
      rw [hhead]
      exact ⟨fun h => ⟨hcall.endsAtRefusal, h.2, h.1⟩, fun h => ⟨h.2.2, h.2.1⟩⟩

end Session

end SingEwp
