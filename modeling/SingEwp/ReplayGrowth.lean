import SingEwp.ReplayLog

/-!
# How large the replay cache grows

Only admissions sweep the cache, and only every `gcInterval`-th of them, so
expired entries linger.  The memory bound is relative to the latest sweep: what
that sweep left, and at most one entry for each admission after it.
-/

namespace SingEwp

/-- `Len`. -/
def ReplayCache.len (c : ReplayCache) : ℕ := c.entries.size

/-- The call is an admission on which the cache sweeps. -/
def ReplayCache.sweepsOn (c : ReplayCache) (call : ReplayCall) : Bool :=
  !c.entries.live call.now (makeReplayKey call.uuid call.nonce) &&
    decide (gcInterval ≤ c.gcCounter + 1)

/-- The entries at the moment at which an admission may sweep. -/
def ReplayCache.recorded (c : ReplayCache) (call : ReplayCall) :
    ExpiringSet ReplayKey :=
  c.entries.insert (makeReplayKey call.uuid call.nonce)
    (call.now + Int.tdiv c.window second)

/-- A cache under observation: `unexpired` is the number of entries that were
unexpired at the most recent sweep, 0 before the first. -/
structure WatchedCache where
  cache : ReplayCache
  unexpired : ℕ

/-- One call.  The observation only counts, it does not touch the cache. -/
def WatchedCache.mark (w : WatchedCache) (call : ReplayCall) : WatchedCache where
  cache := (w.cache.markSeenOrReject call.uuid call.nonce call.now).2
  unexpired :=
    if w.cache.sweepsOn call then (w.cache.recorded call).liveCount call.now
    else w.unexpired

def watchedCache (window : ℤ) (calls : List ReplayCall) : WatchedCache :=
  calls.foldl WatchedCache.mark { cache := newReplayCache window, unexpired := 0 }

/-! ## What one call does to the entries -/

theorem markSeenOrReject_cases (c : ReplayCache) (call : ReplayCall) :
    (c.entries.live call.now (makeReplayKey call.uuid call.nonce) = true ∧
      c.sweepsOn call = false ∧
      (c.markSeenOrReject call.uuid call.nonce call.now).2 = c) ∨
    (c.gcCounter + 1 < gcInterval ∧
      c.sweepsOn call = false ∧
      (c.markSeenOrReject call.uuid call.nonce call.now).2 =
        { c with entries := c.recorded call, gcCounter := c.gcCounter + 1 }) ∨
    (gcInterval ≤ c.gcCounter + 1 ∧
      c.sweepsOn call = true ∧
      (c.markSeenOrReject call.uuid call.nonce call.now).2 =
        { c with
          entries := (c.recorded call).sweep call.now
          gcCounter := 0 }) := by
  unfold ReplayCache.markSeenOrReject ReplayCache.sweepsOn
  cases hlive : c.entries.live call.now (makeReplayKey call.uuid call.nonce) with
  | true =>
      left
      rw [ReplayCache.admitLocked_of_live _ hlive]
      exact ⟨rfl, rfl, rfl⟩
  | false =>
      right
      unfold ReplayCache.admitLocked
      rw [if_neg (by simp [hlive])]
      by_cases hsweep : gcInterval ≤ c.gcCounter + 1
      · right
        dsimp only
        rw [if_pos hsweep]
        exact ⟨hsweep, by simp [hsweep], rfl⟩
      · left
        dsimp only
        rw [if_neg hsweep]
        exact ⟨Nat.lt_of_not_le hsweep, by simp [hsweep], rfl⟩

/-! ## The bound -/

/-- What holds between any two calls. -/
structure WatchedCache.Bounded (w : WatchedCache) : Prop where
  len_le : w.cache.len ≤ w.unexpired + w.cache.gcCounter
  counter_lt : w.cache.gcCounter < gcInterval

theorem WatchedCache.Bounded.mark
    {w : WatchedCache} (hw : w.Bounded) (call : ReplayCall) :
    (w.mark call).Bounded := by
  rcases markSeenOrReject_cases w.cache call with
    ⟨-, hsweep, hcache⟩ | ⟨hcounter, hsweep, hcache⟩ | ⟨-, hsweep, hcache⟩
  · -- A replay leaves everything as it was.
    have hsame : w.mark call = w := by
      simp [WatchedCache.mark, hsweep, hcache]
    rw [hsame]
    exact hw
  · have hinsert := ExpiringSet.size_insert_le w.cache.entries
      (makeReplayKey call.uuid call.nonce)
      (call.now + Int.tdiv w.cache.window second)
    have hlen := hw.len_le
    constructor
    · simp only [WatchedCache.mark, hsweep, hcache, ReplayCache.len,
        ReplayCache.recorded, Bool.false_eq_true, if_false] at hlen ⊢
      omega
    · simpa only [WatchedCache.mark, hcache] using hcounter
  · constructor
    · simp only [WatchedCache.mark, hsweep, hcache, ReplayCache.len, if_true,
        ExpiringSet.size_sweep]
      exact Nat.le_add_right _ _
    · simp only [WatchedCache.mark, hcache]
      decide

theorem watchedCache_bounded (window : ℤ) (calls : List ReplayCall) :
    (watchedCache window calls).Bounded := by
  have hrun : ∀ w : WatchedCache, w.Bounded →
      (calls.foldl WatchedCache.mark w).Bounded := by
    induction calls with
    | nil => exact fun w hw => hw
    | cons call rest ih => exact fun w hw => ih _ (hw.mark call)
  exact hrun _ ⟨Nat.le_refl 0, Nat.zero_lt_succ 1023⟩

/-- The observation follows the cache itself. -/
theorem watchedCache_cache (window : ℤ) (calls : List ReplayCall) :
    (watchedCache window calls).cache =
      calls.foldl
        (fun c call => (c.markSeenOrReject call.uuid call.nonce call.now).2)
        (newReplayCache window) := by
  have hrun : ∀ w : WatchedCache,
      (calls.foldl WatchedCache.mark w).cache =
        calls.foldl
          (fun c call => (c.markSeenOrReject call.uuid call.nonce call.now).2)
          w.cache := by
    induction calls with
    | nil => exact fun w => rfl
    | cons call rest ih => exact fun w => ih (w.mark call)
  exact hrun _

/-- Right after a sweep every entry lies in the future. -/
theorem sweepsOn_leaves_live
    {c : ReplayCache} {call : ReplayCall} (hsweep : c.sweepsOn call = true)
    {key : ReplayKey} {expiry : ℤ}
    (hlookup : (c.markSeenOrReject call.uuid call.nonce call.now).2.entries.lookup
      key = some expiry) :
    call.now < expiry := by
  rcases markSeenOrReject_cases c call with
    ⟨-, hnot, -⟩ | ⟨-, hnot, -⟩ | ⟨-, -, hcache⟩
  · exact absurd (hsweep.symm.trans hnot) Bool.noConfusion
  · exact absurd (hsweep.symm.trans hnot) Bool.noConfusion
  · rw [hcache] at hlookup
    exact ExpiringSet.lt_of_lookup_sweep hlookup

/-- One pair, presented once a second. -/
def everySecond (uuid : Uuid) (nonce : HelloNonce) (n : ℕ) : List ReplayCall :=
  (List.range n).map fun t => { uuid := uuid, nonce := nonce, now := t }

/-- With a window of one second each presentation is an admission. -/
theorem everySecond_admitted (uuid : Uuid) (nonce : HelloNonce)
    {n : ℕ} (hn : n < gcInterval) :
    let c := (watchedCache second (everySecond uuid nonce n)).cache
    c.window = second ∧ c.gcCounter = n ∧
      c.entries.live n (makeReplayKey uuid nonce) = false := by
  induction n with
  | zero => exact ⟨rfl, rfl, rfl⟩
  | succ n ih =>
      obtain ⟨hwindow, hcounter, hlive⟩ := ih (Nat.lt_of_succ_lt hn)
      have hlast : (watchedCache second (everySecond uuid nonce (n + 1))).cache =
          ((watchedCache second (everySecond uuid nonce n)).cache.markSeenOrReject
            uuid nonce n).2 := by
        simp [watchedCache, everySecond, List.range_succ, WatchedCache.mark]
      rw [hlast]
      generalize (watchedCache second (everySecond uuid nonce n)).cache = c at *
      rcases markSeenOrReject_cases c ⟨uuid, nonce, n⟩ with
        ⟨hseen, -, -⟩ | ⟨-, -, hcache⟩ | ⟨hfull, -, -⟩
      · exact absurd (hlive.symm.trans hseen) Bool.noConfusion
      · rw [hcache]
        refine ⟨hwindow, congrArg Nat.succ hcounter, ?_⟩
        -- The entry just written expires at the next presentation.
        simp [ReplayCache.recorded, ExpiringSet.live, hwindow, second]
      · rw [hcounter] at hfull
        omega

theorem everySecond_sweeps (uuid : Uuid) (nonce : HelloNonce)
    {n : ℕ} (hn : n + 1 = gcInterval) :
    let w := watchedCache second (everySecond uuid nonce n)
    let call : ReplayCall := { uuid := uuid, nonce := nonce, now := n }
    w.cache.sweepsOn call = true ∧
      (w.mark call).cache.entries.lookup (makeReplayKey uuid nonce) =
        some (n + 1) := by
  intro w call
  obtain ⟨hwindow, hcounter, hlive⟩ :=
    everySecond_admitted uuid nonce (by omega : n < gcInterval)
  rcases markSeenOrReject_cases w.cache call with
    ⟨hseen, -, -⟩ | ⟨hroom, -, -⟩ | ⟨-, hsweep, hcache⟩
  · exact absurd (hlive.symm.trans hseen) Bool.noConfusion
  · rw [hcounter] at hroom
    omega
  · refine ⟨hsweep, ?_⟩
    have hrecorded : (w.cache.recorded call).lookup (makeReplayKey uuid nonce) =
        some ((n : ℤ) + 1) := by
      simp only [ReplayCache.recorded, call, w, hwindow, AList.lookup_insert]
      rfl
    have hkept : (w.cache.recorded call).live n (makeReplayKey uuid nonce) = true := by
      simp [ExpiringSet.live, hrecorded]
    simp only [WatchedCache.mark, hcache, ExpiringSet.lookup_sweep]
    rw [if_pos hkept]
    exact hrecorded

/-- At every reachable state the cache holds at most what was unexpired at the
latest sweep and one entry for each admission since; there are fewer than
`gcInterval` of those, and a sweep leaves nothing expired.  The clock may even
run backwards. -/
theorem replay_cache_growth (window : ℤ) (calls : List ReplayCall) :
    let w := watchedCache window calls
    w.cache =
        calls.foldl
          (fun c call => (c.markSeenOrReject call.uuid call.nonce call.now).2)
          (newReplayCache window) ∧
      w.cache.len ≤ w.unexpired + w.cache.gcCounter ∧
      w.cache.gcCounter < gcInterval ∧
      ∀ call key expiry, w.cache.sweepsOn call = true →
        (w.mark call).cache.entries.lookup key = some expiry →
        call.now < expiry :=
  ⟨watchedCache_cache window calls,
    (watchedCache_bounded window calls).len_le,
    (watchedCache_bounded window calls).counter_lt,
    fun _ _ _ hsweep hlookup => sweepsOn_leaves_live hsweep hlookup⟩

/-- A pair presented until the cache is due for a sweep: the next presentation
sweeps, and its own entry stays. -/
theorem replay_cache_growth_everySecond :
    ∃ n : ℕ,
      let uuid := FixedBytes.copyFrom uuidLen []
      let nonce := FixedBytes.copyFrom handshakeNonce []
      let w := watchedCache second (everySecond uuid nonce n)
      let call : ReplayCall := { uuid := uuid, nonce := nonce, now := n }
      w.cache.len ≤ w.unexpired + n ∧ w.cache.sweepsOn call = true ∧
        (w.mark call).cache.entries.lookup (makeReplayKey uuid nonce) =
          some (n + 1) ∧
        call.now < n + 1 := by
  obtain ⟨n, hn⟩ : ∃ n, n + 1 = gcInterval := ⟨1023, rfl⟩
  refine ⟨n, ?_⟩
  intro uuid nonce w call
  obtain ⟨hsweep, hlookup⟩ := everySecond_sweeps uuid nonce hn
  obtain ⟨-, hlen, -, hleft⟩ :=
    replay_cache_growth second (everySecond uuid nonce n)
  have hcounter := (everySecond_admitted uuid nonce (by omega : n < gcInterval)).2.1
  rw [hcounter] at hlen
  exact ⟨hlen, hsweep, hlookup, hleft call _ _ hsweep hlookup⟩

end SingEwp
