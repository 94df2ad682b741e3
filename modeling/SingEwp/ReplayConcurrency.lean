import SingEwp.Interleaving
import SingEwp.ReplayCache

/-!
# Concurrent `MarkSeenOrReject` calls

A call reads the clock before it takes the mutex, so readings can reach the
cache out of order: a delayed call meets entries written, overwritten or swept
out by calls with later readings.  Two calls that admit the same pair are still
a window apart, measured from the first one's reading to the clock at the second
one's critical section.
-/

namespace SingEwp

/-- `Time.Unix` of a clock in nanoseconds. -/
def unixSeconds (clock : ℤ) : ℤ := clock / second

/-- A record of one critical section: the reading it worked with and the clock
at which it ran. -/
structure MarkEvent where
  call : ℕ
  key : ReplayKey
  reading : ℤ
  clock : ℤ
  admitted : Bool

/-- The cache and the clock it is used under, with the critical sections so far
in the order in which they ran. -/
structure MarkState where
  cache : ReplayCache
  clock : ℤ
  marks : List MarkEvent

inductive MarkLabel where
  | readClock
  | locked
  deriving DecidableEq

def MarkState.tick (s : MarkState) (elapsed : ℕ) : MarkState :=
  { s with clock := s.clock + elapsed }

/-- The critical section of `MarkSeenOrReject`. -/
def MarkState.enter (s : MarkState) (call : ℕ) (key : ReplayKey)
    (now expiry : ℤ) : Bool × MarkState :=
  let out := s.cache.admitLocked key now expiry
  (out.1,
    { s with
      cache := out.2
      marks := s.marks ++
        [{ call := call, key := key, reading := now, clock := s.clock,
           admitted := out.1 }] })

/-- `MarkSeenOrReject`.  Before each of its steps any time may pass. -/
def markCall (call : ℕ) (uuid : Uuid) (nonce : HelloNonce) :
    Proc MarkLabel ℕ MarkState Bool := do
  let times ← Proc.atomic .readClock (fun elapsed s =>
    let s := s.tick elapsed
    let now := unixSeconds s.clock
    ((now, now + Int.tdiv s.cache.window second), s))
  Proc.atomic .locked (fun elapsed s =>
    (s.tick elapsed).enter call (makeReplayKey uuid nonce) times.1 times.2)

/-- Any number of calls on one cache. -/
def markPool (cache : ReplayCache) (clock : ℤ)
    (calls : List (Uuid × HelloNonce)) : Pool MarkLabel ℕ MarkState Bool where
  shared := { cache := cache, clock := clock, marks := [] }
  threads := calls.mapIdx (fun i pair => markCall i pair.1 pair.2)

/-! ## What the cache owes to earlier admissions -/

/-- `later` admits a key that `earlier` has admitted only a whole window after
the earlier reading. -/
def MarkEvent.Apart (W : ℤ) (earlier later : MarkEvent) : Prop :=
  earlier.key = later.key → earlier.admitted = true → later.admitted = true →
    (earlier.reading + W) * second ≤ later.clock

/-- Every admission is either a window old or still remembered, and
admissions of one key are a window apart. -/
structure MarkState.Owes (W : ℤ) (s : MarkState) : Prop where
  window : Int.tdiv s.cache.window second = W
  kept : ∀ e ∈ s.marks, e.admitted = true →
    (e.reading + W) * second ≤ s.clock ∨
      s.cache.entries.Remembers e.key (e.reading + W)
  apart : s.marks.Pairwise (MarkEvent.Apart W)

/-- Time passes and the record of critical sections gets longer. -/
def MarkState.Grows (s s' : MarkState) : Prop :=
  s.clock ≤ s'.clock ∧ s.marks <+: s'.marks

theorem MarkState.Grows.refl (s : MarkState) : s.Grows s :=
  ⟨le_rfl, List.prefix_rfl⟩

theorem MarkState.Grows.trans
    {a b c : MarkState} (hab : a.Grows b) (hbc : b.Grows c) : a.Grows c :=
  ⟨hab.1.trans hbc.1, hab.2.trans hbc.2⟩

theorem MarkState.grows_tick (s : MarkState) (elapsed : ℕ) :
    s.Grows (s.tick elapsed) :=
  ⟨by simp [tick], List.prefix_rfl⟩

theorem MarkState.grows_enter
    (s : MarkState) (call : ℕ) (key : ReplayKey) (now expiry : ℤ) :
    s.Grows (s.enter call key now expiry).2 :=
  ⟨le_rfl, List.prefix_append _ _⟩

theorem MarkState.Owes.tick
    {W : ℤ} {s : MarkState} (howes : s.Owes W) (elapsed : ℕ) :
    (s.tick elapsed).Owes W where
  window := howes.window
  kept := by
    intro e he hadmitted
    refine (howes.kept e he hadmitted).imp_left (fun hold => hold.trans ?_)
    simp [MarkState.tick]
  apart := howes.apart

theorem le_clock_of_le_reading
    {s : MarkState} {now deadline : ℤ} (hclock : now ≤ unixSeconds s.clock)
    (hle : deadline ≤ now) : deadline * second ≤ s.clock := by
  have hpos : 0 < second := by decide
  exact (Int.le_ediv_iff_mul_le hpos).mp (hle.trans hclock)

/-- An admission at reading `now` leaves every earlier admission remembered
unless the clock has passed its window. -/
theorem MarkState.Owes.kept_of_admitted
    {W now : ℤ} {s : MarkState} {key : ReplayKey} (howes : s.Owes W)
    (hclock : now ≤ unixSeconds s.clock)
    (hlive : s.cache.entries.live now key = false)
    {e : MarkEvent} (he : e ∈ s.marks) (hadmitted : e.admitted = true)
    (expiry : ℤ) :
    (e.reading + W) * second ≤ s.clock ∨
      e.key ≠ key ∧
        (s.cache.admitLocked key now expiry).2.entries.Remembers e.key
          (e.reading + W) := by
  rcases howes.kept e he hadmitted with hold | hrem
  · exact Or.inl hold
  by_cases hnow : now < e.reading + W
  · have hne : e.key ≠ key := by
      intro heq
      rw [← heq, hrem.live hnow] at hlive
      exact Bool.noConfusion hlive
    exact Or.inr ⟨hne, ReplayCache.admitLocked_remembers hrem hnow key expiry⟩
  · -- the reading itself has passed the earlier window, and so has the clock
    exact Or.inl (le_clock_of_le_reading hclock (not_lt.mp hnow))

theorem MarkState.Owes.enter
    {W now : ℤ} {s : MarkState} (howes : s.Owes W) (hW : 1 ≤ W)
    (hclock : now ≤ unixSeconds s.clock) (call : ℕ) (key : ReplayKey) :
    (s.enter call key now (now + W)).2.Owes W := by
  cases hlive : s.cache.entries.live now key with
  | true =>
      have hout := ReplayCache.admitLocked_of_live (now + W) hlive
      refine ⟨?_, ?_, ?_⟩
      · simpa [MarkState.enter] using howes.window
      · intro e he hadmitted
        simp only [MarkState.enter, hout, List.mem_append, List.mem_singleton]
          at he ⊢
        rcases he with hold | rfl
        · exact howes.kept e hold hadmitted
        · simp at hadmitted
      · simp only [MarkState.enter, hout]
        refine List.pairwise_append.mpr ⟨howes.apart, by simp, ?_⟩
        intro e _ e' he' _ _ hadmitted
        rw [List.mem_singleton.mp he'] at hadmitted
        simp at hadmitted
  | false =>
      refine ⟨?_, ?_, ?_⟩
      · simpa [MarkState.enter] using howes.window
      · intro e he hadmitted
        simp only [MarkState.enter, List.mem_append, List.mem_singleton] at he ⊢
        rcases he with hold | rfl
        · exact (howes.kept_of_admitted hclock hlive hold hadmitted
            (now + W)).imp_right And.right
        · exact Or.inr (ReplayCache.admitLocked_admitted hlive (by omega))
      · refine List.pairwise_append.mpr ⟨howes.apart, by simp, ?_⟩
        intro e he e' he' hkey hadmitted _
        rw [List.mem_singleton.mp he'] at hkey ⊢
        rcases howes.kept_of_admitted hclock hlive he hadmitted (now + W) with
          hold | ⟨hne, _⟩
        · exact hold
        · exact absurd hkey hne

/-! ## Calls -/

/-- The call has run its critical section with the given outcome. -/
def MarkState.Ran (s : MarkState) (call : ℕ) (key : ReplayKey)
    (admitted : Bool) : Prop :=
  ∃ e ∈ s.marks, e.call = call ∧ e.key = key ∧ e.admitted = admitted

theorem MarkState.Ran.grown
    {s s' : MarkState} {call : ℕ} {key : ReplayKey} {admitted : Bool}
    (hran : s.Ran call key admitted) (hgrown : s.Grows s') :
    s'.Ran call key admitted := by
  obtain ⟨e, he, hfacts⟩ := hran
  exact ⟨e, hgrown.2.subset he, hfacts⟩

theorem unixSeconds_mono {a b : ℤ} (hab : a ≤ b) :
    unixSeconds a ≤ unixSeconds b :=
  Int.ediv_le_ediv (by decide) hab

/-- What a call knows between its clock reading and its critical section. -/
def ReadBehind (W : ℤ) (times : ℤ × ℤ) (s : MarkState) : Prop :=
  times.1 ≤ unixSeconds s.clock ∧ times.2 = times.1 + W

theorem markCall_grants
    {W : ℤ} (hW : 1 ≤ W) (s : MarkState) (call : ℕ) (uuid : Uuid)
    (nonce : HelloNonce) :
    Proc.Grants MarkState.Grows (fun _ => MarkState.Grows) (MarkState.Owes W)
      (fun admitted s => s.Ran call (makeReplayKey uuid nonce) admitted) s
      (markCall call uuid nonce) := by
  refine Proc.Grants.bind (?_ : Proc.Grants _ _ _ (ReadBehind W) s _) ?_
  · apply Proc.Grants.atomic
    intro elapsed s' _ howes
    refine ⟨howes.tick elapsed, s'.grows_tick elapsed, le_rfl, ?_⟩
    exact congrArg (unixSeconds (s'.tick elapsed).clock + ·) howes.window
  · rintro ⟨now, expiry⟩ s ⟨hclock, hexpiry⟩
    dsimp only at hclock hexpiry
    subst hexpiry
    apply Proc.Grants.atomic
    intro elapsed s' hgrown howes
    have hclock' : now ≤ unixSeconds (s'.tick elapsed).clock :=
      hclock.trans
        (unixSeconds_mono (hgrown.1.trans (s'.grows_tick elapsed).1))
    refine ⟨(howes.tick elapsed).enter hW hclock' call _,
      (s'.grows_tick elapsed).trans (MarkState.grows_enter _ _ _ _ _), ?_⟩
    exact ⟨_, List.mem_append_right _ (List.mem_singleton.mpr rfl), rfl, rfl,
      rfl⟩

/-- The `i`-th call has run its critical section with the given outcome. -/
def CallRan (calls : List (Uuid × HelloNonce)) (i : ℕ) (admitted : Bool)
    (s : MarkState) : Prop :=
  ∀ pair, calls[i]? = some pair →
    s.Ran i (makeReplayKey pair.1 pair.2) admitted

theorem markPool_grants
    {W : ℤ} (hW : 1 ≤ W) (c : ReplayCache) (clock : ℤ)
    (calls : List (Uuid × HelloNonce)) (i : ℕ)
    (p : Proc MarkLabel ℕ MarkState Bool)
    (hp : (markPool c clock calls).threads[i]? = some p) :
    Proc.Grants MarkState.Grows (fun _ => MarkState.Grows) (MarkState.Owes W)
      (CallRan calls i) (markPool c clock calls).shared p := by
  simp only [markPool, List.getElem?_mapIdx, Option.map_eq_some_iff] at hp
  obtain ⟨pair, hpair, rfl⟩ := hp
  refine (markCall_grants hW _ i pair.1 pair.2).mono ?_
  intro admitted s hran pair' hpair'
  cases hpair.symm.trans hpair'
  exact hran

theorem markPool_run
    {W : ℤ} (hW : 1 ≤ W) {c : ReplayCache} (hwindow : c.window = W * second)
    (clock : ℤ) (calls : List (Uuid × HelloNonce)) (schedule : List (ℕ × ℕ)) :
    ((markPool c clock calls).run schedule).shared.Owes W ∧
      ∀ i pair admitted, calls[i]? = some pair →
        ((markPool c clock calls).run schedule).threads[i]?.bind Proc.result? =
          some admitted →
        ((markPool c clock calls).run schedule).shared.Ran i
          (makeReplayKey pair.1 pair.2) admitted := by
  have hsecond : second ≠ 0 := by decide
  have hinit : (markPool c clock calls).shared.Owes W :=
    { window := by
        change Int.tdiv c.window second = W
        rw [hwindow, Int.mul_tdiv_cancel _ hsecond]
      kept := by simp [markPool]
      apart := List.Pairwise.nil }
  obtain ⟨howes, _, _, hthreads⟩ := Pool.run_grants schedule
    (G := fun _ _ => MarkState.Grows)
    MarkState.Grows.refl MarkState.Grows.trans (fun _ _ _ _ hgrown => hgrown)
    (fun _ _ _ _ hgrown hran pair hpair => (hran pair hpair).grown hgrown)
    (markPool_grants hW c clock calls) hinit
  refine ⟨howes, ?_⟩
  intro i pair admitted hpair hresult
  exact hthreads i _ (Pool.finished_of_result? hresult) pair hpair

/-- Two calls that admit the same pair: at the critical section of the later one
the clock is a whole window past the reading of the earlier one. -/
theorem concurrent_admissions_apart
    (W : ℤ) (hW : 1 ≤ W) (c : ReplayCache) (hwindow : c.window = W * second)
    (clock : ℤ) (calls : List (Uuid × HelloNonce)) (schedule : List (ℕ × ℕ))
    (i j : ℕ) (hij : i ≠ j) (pair : Uuid × HelloNonce)
    (hi : calls[i]? = some pair) (hj : calls[j]? = some pair)
    (hresult : ((markPool c clock calls).run schedule).threads[i]?.bind
      Proc.result? = some true)
    (hresult' : ((markPool c clock calls).run schedule).threads[j]?.bind
      Proc.result? = some true) :
    ∃ (m n : ℕ) (a b : MarkEvent),
      ((markPool c clock calls).run schedule).shared.marks[m]? = some a ∧
      ((markPool c clock calls).run schedule).shared.marks[n]? = some b ∧
      a.call = i ∧ b.call = j ∧ m ≠ n ∧
      (m < n → (a.reading + W) * second ≤ b.clock) ∧
      (n < m → (b.reading + W) * second ≤ a.clock) := by
  obtain ⟨howes, hran⟩ := markPool_run hW hwindow clock calls schedule
  obtain ⟨a, ha, hcall, hkey, hadmitted⟩ := hran i pair true hi hresult
  obtain ⟨b, hb, hcall', hkey', hadmitted'⟩ := hran j pair true hj hresult'
  obtain ⟨m, hm, hma⟩ := List.mem_iff_getElem.mp ha
  obtain ⟨n, hn, hnb⟩ := List.mem_iff_getElem.mp hb
  have hapart := List.pairwise_iff_getElem.mp howes.apart
  refine ⟨m, n, a, b, ?_, ?_, hcall, hcall', ?_, ?_, ?_⟩
  · rw [List.getElem?_eq_getElem hm, hma]
  · rw [List.getElem?_eq_getElem hn, hnb]
  · rintro rfl
    apply hij
    rw [← hcall, ← hcall', ← hma, ← hnb]
  · intro hmn
    have hab := hapart m n hm hn hmn
    rw [hma, hnb] at hab
    exact hab (hkey.trans hkey'.symm) hadmitted hadmitted'
  · intro hnm
    have hba := hapart n m hn hm hnm
    rw [hma, hnb] at hba
    exact hba (hkey'.trans hkey.symm) hadmitted' hadmitted

/-- A one-second window, and a second call that reads the clock one second after
the first one has been admitted. -/
theorem concurrent_admissions_apart_second :
    ∃ (m n : ℕ) (a b : MarkEvent),
      ((markPool (newReplayCache second) 0
        [(FixedBytes.copyFrom _ [], FixedBytes.copyFrom _ []),
          (FixedBytes.copyFrom _ [], FixedBytes.copyFrom _ [])]).run
        [(0, 5), (0, 0), (1, 1000000000), (1, 0)]).shared.marks[m]? = some a ∧
      ((markPool (newReplayCache second) 0
        [(FixedBytes.copyFrom _ [], FixedBytes.copyFrom _ []),
          (FixedBytes.copyFrom _ [], FixedBytes.copyFrom _ [])]).run
        [(0, 5), (0, 0), (1, 1000000000), (1, 0)]).shared.marks[n]? = some b ∧
      a.call = 0 ∧ b.call = 1 ∧ m ≠ n ∧
      (m < n → (a.reading + 1) * second ≤ b.clock) ∧
      (n < m → (b.reading + 1) * second ≤ a.clock) :=
  concurrent_admissions_apart 1 le_rfl (newReplayCache second) rfl 0
    [(FixedBytes.copyFrom _ [], FixedBytes.copyFrom _ []),
      (FixedBytes.copyFrom _ [], FixedBytes.copyFrom _ [])]
    [(0, 5), (0, 0), (1, 1000000000), (1, 0)] 0 1 (by decide) _ rfl rfl
    (by decide) (by decide)

end SingEwp
