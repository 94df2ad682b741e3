import Mathlib.Data.List.AList
import Mathlib.Tactic

/-!
# Sets whose members expire

A finite map from keys to expiry times, read as the set of keys whose expiry
lies in the future.  Expired entries may linger until a sweep removes them.  A
key stays remembered until a given deadline through insertions of keys that are
not live and through sweeps, as long as the clock has not reached the deadline.
Under a clock that does not run backwards, the set answers like a log of all
insertions from which nothing is ever removed.
-/

namespace SingEwp

variable {κ : Type} [DecidableEq κ]

/-- Keys with their expiry times. -/
abbrev ExpiringSet (κ : Type) := AList (fun _ : κ => ℤ)

namespace ExpiringSet

def live (m : ExpiringSet κ) (now : ℤ) (key : κ) : Bool :=
  match m.lookup key with
  | some expiry => now < expiry
  | none => false

/-- One pass over the entries that deletes those expired at `now`. -/
def sweep (m : ExpiringSet κ) (now : ℤ) : ExpiringSet κ :=
  m.entries.foldl
    (fun acc entry => if entry.2 ≤ now then acc.erase entry.1 else acc) m

/-- The key has an entry that lasts at least until the deadline. -/
def Remembers (m : ExpiringSet κ) (key : κ) (deadline : ℤ) : Prop :=
  ∃ expiry, m.lookup key = some expiry ∧ deadline ≤ expiry

/-! ## Sweeping -/

private def sweepOne (now : ℤ) (acc : ExpiringSet κ) (entry : (_ : κ) × ℤ) :
    ExpiringSet κ :=
  if entry.2 ≤ now then acc.erase entry.1 else acc

private theorem lookup_sweepOne_of_ne
    {now : ℤ} {acc : ExpiringSet κ} {entry : (_ : κ) × ℤ} {key : κ}
    (hne : key ≠ entry.1 ∨ now < entry.2) :
    (sweepOne now acc entry).lookup key = acc.lookup key := by
  unfold sweepOne
  by_cases hexp : entry.2 ≤ now
  · rw [if_pos hexp]
    rcases hne with hkey | hlive
    · exact AList.lookup_erase_ne hkey
    · omega
  · rw [if_neg hexp]

private theorem lookup_sweepFold_keep
    {now : ℤ} {key : κ} {todo : List ((_ : κ) × ℤ)}
    (hkeep : ∀ entry ∈ todo, key ≠ entry.1 ∨ now < entry.2)
    (m : ExpiringSet κ) :
    (todo.foldl (sweepOne now) m).lookup key = m.lookup key := by
  induction todo generalizing m with
  | nil => rfl
  | cons entry rest ih =>
      rw [List.foldl_cons,
        ih (fun e he => hkeep e (List.mem_cons_of_mem _ he)),
        lookup_sweepOne_of_ne (hkeep entry List.mem_cons_self)]

private theorem lookup_sweepFold_none
    {now : ℤ} {key : κ} (todo : List ((_ : κ) × ℤ)) {m : ExpiringSet κ}
    (hnone : m.lookup key = none) :
    (todo.foldl (sweepOne now) m).lookup key = none := by
  induction todo generalizing m with
  | nil => exact hnone
  | cons entry rest ih =>
      rw [List.foldl_cons]
      apply ih
      unfold sweepOne
      split
      · rw [AList.lookup_eq_none] at hnone ⊢
        simp [hnone]
      · exact hnone

private theorem lookup_sweepFold_drop
    {now expiry : ℤ} {key : κ} {todo : List ((_ : κ) × ℤ)}
    (hmem : (⟨key, expiry⟩ : (_ : κ) × ℤ) ∈ todo) (hexp : expiry ≤ now)
    (m : ExpiringSet κ) :
    (todo.foldl (sweepOne now) m).lookup key = none := by
  induction todo generalizing m with
  | nil => simp at hmem
  | cons entry rest ih =>
      rw [List.foldl_cons]
      rcases List.mem_cons.mp hmem with hhead | htail
      · subst hhead
        apply lookup_sweepFold_none
        simp [sweepOne, hexp]
      · exact ih htail _

theorem lookup_sweep (m : ExpiringSet κ) (now : ℤ) (key : κ) :
    (m.sweep now).lookup key =
      if m.live now key then m.lookup key else none := by
  change (m.entries.foldl (sweepOne now) m).lookup key = _
  unfold live
  cases hlookup : m.lookup key with
  | none => simpa using lookup_sweepFold_none m.entries hlookup
  | some expiry =>
      have hmem : (⟨key, expiry⟩ : (_ : κ) × ℤ) ∈ m.entries :=
        AList.mem_lookup_iff.mp hlookup
      by_cases hexp : expiry ≤ now
      · have hlive : ¬ now < expiry := not_lt.mpr hexp
        simpa [hlive] using lookup_sweepFold_drop hmem hexp m
      · have hlive : now < expiry := not_le.mp hexp
        have hkeep : ∀ entry ∈ m.entries,
            key ≠ entry.1 ∨ now < entry.2 := by
          intro entry hentry
          by_cases hkey : key = entry.1
          · subst hkey
            have hsame : m.lookup entry.1 = some entry.2 :=
              AList.mem_lookup_iff.mpr hentry
            rw [hlookup, Option.some.injEq] at hsame
            exact Or.inr (hsame ▸ hlive)
          · exact Or.inl hkey
        simpa [hlive, hlookup] using lookup_sweepFold_keep hkeep m

/-! ## Remembering -/

theorem Remembers.live
    {m : ExpiringSet κ} {key : κ} {deadline now : ℤ}
    (hrem : m.Remembers key deadline) (hnow : now < deadline) :
    m.live now key = true := by
  obtain ⟨expiry, hlookup, hle⟩ := hrem
  simp only [ExpiringSet.live, hlookup, decide_eq_true_eq]
  omega

theorem remembers_insert_self
    (m : ExpiringSet κ) (key : κ) {deadline expiry : ℤ}
    (hle : deadline ≤ expiry) :
    Remembers (m.insert key expiry) key deadline :=
  ⟨expiry, AList.lookup_insert m, hle⟩

theorem Remembers.insert_of_not_live
    {m : ExpiringSet κ} {key other : κ} {deadline now : ℤ}
    (hrem : m.Remembers key deadline) (hnow : now < deadline)
    (hother : m.live now other = false) (expiry : ℤ) :
    Remembers (m.insert other expiry) key deadline := by
  have hne : key ≠ other := by
    intro heq
    subst heq
    rw [hrem.live hnow] at hother
    exact Bool.noConfusion hother
  obtain ⟨kept, hlookup, hle⟩ := hrem
  exact ⟨kept, by rw [AList.lookup_insert_ne hne, hlookup], hle⟩

theorem Remembers.sweep
    {m : ExpiringSet κ} {key : κ} {deadline now : ℤ}
    (hrem : m.Remembers key deadline) (hnow : now < deadline) :
    Remembers (m.sweep now) key deadline := by
  have hlive := hrem.live hnow
  obtain ⟨expiry, hlookup, hle⟩ := hrem
  exact ⟨expiry, by rw [lookup_sweep, if_pos hlive, hlookup], hle⟩

/-! ## Against a log that forgets nothing -/

/-- From `now` on, the live keys are those logged less than `span` ago. -/
def Tracks (m : ExpiringSet κ) (log : List (κ × ℤ)) (span now : ℤ) : Prop :=
  ∀ t key, now ≤ t →
    (m.live t key = true ↔ ∃ since, (key, since) ∈ log ∧ t < since + span)

theorem live_congr
    {m m' : ExpiringSet κ} {t : ℤ} {key : κ}
    (hlookup : m.lookup key = m'.lookup key) : m.live t key = m'.live t key := by
  unfold ExpiringSet.live
  rw [hlookup]

theorem live_eq_false_of_le
    {m : ExpiringSet κ} {now t : ℤ} {key : κ} (hnow : now ≤ t)
    (hdead : m.live now key = false) : m.live t key = false := by
  unfold ExpiringSet.live at hdead ⊢
  cases hlookup : m.lookup key with
  | none => rfl
  | some expiry =>
      simp only [hlookup, decide_eq_false_iff_not, not_lt] at hdead ⊢
      exact hdead.trans hnow

theorem tracks_empty (span now : ℤ) :
    Tracks (∅ : ExpiringSet κ) [] span now := by
  intro t key _
  simp [ExpiringSet.live]

theorem Tracks.later
    {m : ExpiringSet κ} {log : List (κ × ℤ)} {span now now' : ℤ}
    (htracks : m.Tracks log span now) (hle : now ≤ now') :
    m.Tracks log span now' :=
  fun t key ht => htracks t key (hle.trans ht)

/-- Overwriting is harmless: the entry that was there has expired for good. -/
theorem Tracks.insert
    {m : ExpiringSet κ} {log : List (κ × ℤ)} {span now : ℤ} {key : κ}
    (htracks : m.Tracks log span now) (hdead : m.live now key = false) :
    Tracks (m.insert key (now + span)) (log ++ [(key, now)]) span now := by
  intro t other ht
  by_cases hother : other = key
  · subst hother
    have hold : ¬ ∃ since, (other, since) ∈ log ∧ t < since + span := by
      rw [← htracks t other ht, live_eq_false_of_le ht hdead]
      simp
    have hnew : ExpiringSet.live (m.insert other (now + span)) t other = true ↔
        t < now + span := by
      simp [ExpiringSet.live]
    rw [hnew]
    constructor
    · intro hlive
      exact ⟨now, by simp, hlive⟩
    · rintro ⟨since, hmem, hlive⟩
      rcases List.mem_append.mp hmem with hlog | hlast
      · exact absurd ⟨since, hlog, hlive⟩ hold
      · simp only [List.mem_singleton, Prod.mk.injEq, true_and] at hlast
        rwa [hlast] at hlive
  · have hsame : ExpiringSet.live (m.insert key (now + span)) t other =
        m.live t other :=
      live_congr (AList.lookup_insert_ne hother)
    rw [hsame, htracks t other ht]
    simp [hother]

theorem Tracks.sweep
    {m : ExpiringSet κ} {log : List (κ × ℤ)} {span now : ℤ}
    (htracks : m.Tracks log span now) :
    Tracks (m.sweep now) log span now := by
  intro t key ht
  rw [← htracks t key ht]
  have hswept : ExpiringSet.live (m.sweep now) t key = m.live t key := by
    cases hlive : m.live now key with
    | true =>
        apply live_congr
        rw [lookup_sweep, if_pos hlive]
    | false =>
        have hgone : AList.lookup key (m.sweep now) = none := by
          rw [lookup_sweep, if_neg (by simp [hlive])]
        rw [live_eq_false_of_le ht hlive]
        unfold ExpiringSet.live
        rw [hgone]
  rw [hswept]

/-! ## Counting -/

/-- The number of entries, expired ones included. -/
def size (m : ExpiringSet κ) : ℕ := m.keys.length

/-- The number of entries that are live at `now`. -/
def liveCount (m : ExpiringSet κ) (now : ℤ) : ℕ := m.keys.countP (m.live now)

theorem size_insert_le (m : ExpiringSet κ) (key : κ) (expiry : ℤ) :
    size (m.insert key expiry) ≤ m.size + 1 := by
  rw [size, AList.keys_insert, List.length_cons, size]
  exact Nat.succ_le_succ (List.length_erase_le)

theorem mem_keys_of_live {m : ExpiringSet κ} {now : ℤ} {key : κ}
    (hlive : m.live now key = true) : key ∈ m.keys := by
  rw [← AList.mem_keys, ← AList.lookup_isSome]
  unfold live at hlive
  cases hlookup : m.lookup key with
  | none => simp [hlookup] at hlive
  | some expiry => rfl

theorem mem_keys_sweep (m : ExpiringSet κ) (now : ℤ) (key : κ) :
    key ∈ (m.sweep now).keys ↔ m.live now key = true := by
  rw [← AList.mem_keys, ← AList.lookup_isSome, lookup_sweep]
  cases hlive : m.live now key with
  | true =>
      rw [if_pos rfl, AList.lookup_isSome, AList.mem_keys]
      exact iff_of_true (mem_keys_of_live hlive) rfl
  | false => simp

theorem size_sweep (m : ExpiringSet κ) (now : ℤ) :
    (m.sweep now).size = m.liveCount now := by
  have hperm : (m.sweep now).keys.Perm (m.keys.filter (m.live now)) := by
    rw [List.perm_ext_iff_of_nodup (AList.keys_nodup _)
      ((AList.keys_nodup m).filter _)]
    intro key
    rw [mem_keys_sweep, List.mem_filter]
    exact ⟨fun hlive => ⟨mem_keys_of_live hlive, hlive⟩, fun hkept => hkept.2⟩
  rw [size, hperm.length_eq, liveCount, List.countP_eq_length_filter]

/-- Nothing expired is left behind. -/
theorem lt_of_lookup_sweep {m : ExpiringSet κ} {now expiry : ℤ} {key : κ}
    (hlookup : (m.sweep now).lookup key = some expiry) : now < expiry := by
  rw [lookup_sweep] at hlookup
  by_cases hlive : m.live now key = true
  · rw [if_pos hlive] at hlookup
    simpa [ExpiringSet.live, hlookup] using hlive
  · simp [hlive] at hlookup

end ExpiringSet

end SingEwp
