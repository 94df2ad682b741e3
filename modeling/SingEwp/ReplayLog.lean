import SingEwp.ReplayConcurrency

/-!
# The replay cache as a log

The purpose of the replay cache can be stated without maps, expiry entries or
sweeps: keep every admission, and refuse a pair that was admitted less than the
window ago.  Under a clock that does not run backwards `MarkSeenOrReject` gives
exactly the answers of that log.  The log counts in whole seconds, as the source
does; the last section compares it with the window in nanoseconds.
-/

namespace SingEwp

/-- A call of `MarkSeenOrReject` at the clock reading `now`, in whole seconds. -/
structure ReplayCall where
  uuid : Uuid
  nonce : HelloNonce
  now : ℤ

/-- The answers of successive calls on one cache. -/
def ReplayCache.answers : ReplayCache → List ReplayCall → List Bool
  | _, [] => []
  | c, call :: rest =>
      let out := c.markSeenOrReject call.uuid call.nonce call.now
      out.1 :: out.2.answers rest

/-- The pair of `call` is in the log, less than `span` seconds old. -/
def Replayed (span : ℤ) (log : List ReplayCall) (call : ReplayCall) : Prop :=
  ∃ past ∈ log, past.uuid = call.uuid ∧ past.nonce = call.nonce ∧
    call.now < past.now + span

instance (span : ℤ) (log : List ReplayCall) (call : ReplayCall) :
    Decidable (Replayed span log call) :=
  inferInstanceAs (Decidable (∃ past ∈ log, _))

/-- The answers of a log of all admissions, to which nothing but admissions is
ever done. -/
def logAnswers (span : ℤ) : List ReplayCall → List ReplayCall → List Bool
  | _, [] => []
  | log, call :: rest =>
      if Replayed span log call then false :: logAnswers span log rest
      else true :: logAnswers span (log ++ [call]) rest

/-! ## The cache refines the log -/

theorem makeReplayKey_inj
    {uuid uuid' : Uuid} {nonce nonce' : HelloNonce} :
    makeReplayKey uuid nonce = makeReplayKey uuid' nonce' ↔
      uuid = uuid' ∧ nonce = nonce' := by
  constructor
  · intro hkey
    have hval : uuid.val ++ nonce.val = uuid'.val ++ nonce'.val :=
      congrArg Subtype.val hkey
    obtain ⟨huuid, hnonce⟩ :=
      List.append_inj hval (uuid.property.trans uuid'.property.symm)
    exact ⟨Subtype.ext huuid, Subtype.ext hnonce⟩
  · rintro ⟨rfl, rfl⟩
    rfl

/-- The log as the cache keys it. -/
def keyed (log : List ReplayCall) : List (ReplayKey × ℤ) :=
  log.map fun call => (makeReplayKey call.uuid call.nonce, call.now)

theorem live_iff_replayed
    {m : ExpiringSet ReplayKey} {log : List ReplayCall} {span now : ℤ}
    (htracks : m.Tracks (keyed log) span now) {call : ReplayCall}
    (hnow : now ≤ call.now) :
    m.live call.now (makeReplayKey call.uuid call.nonce) = true ↔
      Replayed span log call := by
  rw [htracks _ _ hnow]
  constructor
  · rintro ⟨since, hmem, hlive⟩
    obtain ⟨past, hpast, heq⟩ := List.mem_map.mp hmem
    obtain ⟨hkey, rfl⟩ := Prod.mk.inj heq
    obtain ⟨huuid, hnonce⟩ := makeReplayKey_inj.mp hkey
    exact ⟨past, hpast, huuid, hnonce, hlive⟩
  · rintro ⟨past, hpast, huuid, hnonce, hlive⟩
    refine ⟨past.now, List.mem_map.mpr ⟨past, hpast, ?_⟩, hlive⟩
    rw [huuid, hnonce]

theorem ReplayCache.markSeenOrReject_tracks
    {c : ReplayCache} {log : List ReplayCall} {call : ReplayCall}
    (htracks : c.entries.Tracks (keyed log) (Int.tdiv c.window second) call.now)
    (hdead : c.entries.live call.now (makeReplayKey call.uuid call.nonce) =
      false) :
    (c.markSeenOrReject call.uuid call.nonce call.now).2.entries.Tracks
      (keyed (log ++ [call])) (Int.tdiv c.window second) call.now := by
  have hinsert := htracks.insert hdead
  have hkeyed : keyed (log ++ [call]) =
      keyed log ++ [(makeReplayKey call.uuid call.nonce, call.now)] := by
    simp [keyed]
  rw [hkeyed]
  unfold ReplayCache.markSeenOrReject
  rcases (admitLocked_of_not_live _ hdead).2 with hplain | hswept
  · rw [hplain]
    exact hinsert
  · rw [hswept]
    exact hinsert.sweep

/-- The invariant of the induction: the live entries are those of the log, from
the last reading on. -/
theorem ReplayCache.answers_eq_logAnswers
    {c : ReplayCache} {log calls : List ReplayCall} {now : ℤ}
    (htracks : c.entries.Tracks (keyed log) (Int.tdiv c.window second) now)
    (hfuture : ∀ call ∈ calls, now ≤ call.now)
    (hclock : calls.Pairwise fun a b => a.now ≤ b.now) :
    c.answers calls = logAnswers (Int.tdiv c.window second) log calls := by
  induction calls generalizing c log now with
  | nil => rfl
  | cons call rest ih =>
      have hnow := hfuture call List.mem_cons_self
      obtain ⟨hlater, hrest⟩ := List.pairwise_cons.mp hclock
      have hlive := live_iff_replayed htracks hnow
      have hfst := c.markSeenOrReject_fst call.uuid call.nonce call.now
      unfold ReplayCache.answers logAnswers
      dsimp only
      by_cases hreplay : Replayed (Int.tdiv c.window second) log call
      · have hsame : c.markSeenOrReject call.uuid call.nonce call.now =
            (false, c) := admitLocked_of_live _ (hlive.mpr hreplay)
        rw [if_pos hreplay, hsame, ih (htracks.later hnow) hlater hrest]
      · have hdead : c.entries.live call.now
            (makeReplayKey call.uuid call.nonce) = false := by
          simpa using mt hlive.mp hreplay
        have hstep := markSeenOrReject_tracks (htracks.later hnow) hdead
        rw [← markSeenOrReject_window c call.uuid call.nonce call.now] at hstep
        rw [if_neg hreplay, hfst, hdead, ih hstep hlater hrest,
          markSeenOrReject_window]
        rfl

/-! ## What the log answers -/

theorem replayed_append_singleton
    (span : ℤ) (log : List ReplayCall) (head call : ReplayCall) :
    Replayed span (log ++ [head]) call ↔
      Replayed span log call ∨
        (head.uuid = call.uuid ∧ head.nonce = call.nonce ∧
          call.now < head.now + span) := by
  simp only [Replayed, List.mem_append, List.mem_singleton, or_and_right,
    exists_or, exists_eq_left]

/-- An earlier call, before position `j`, whose admission makes `call` a
replay. -/
def AdmittedBefore (span : ℤ) (calls : List ReplayCall) (results : List Bool)
    (j : ℕ) (call : ReplayCall) : Prop :=
  ∃ i past, i < j ∧ calls[i]? = some past ∧ results[i]? = some true ∧
    past.uuid = call.uuid ∧ past.nonce = call.nonce ∧
    call.now < past.now + span

theorem admittedBefore_cons
    (span : ℤ) (head : ReplayCall) (calls : List ReplayCall) (answer : Bool)
    (results : List Bool) (j : ℕ) (call : ReplayCall) :
    AdmittedBefore span (head :: calls) (answer :: results) (j + 1) call ↔
      (answer = true ∧ head.uuid = call.uuid ∧ head.nonce = call.nonce ∧
        call.now < head.now + span) ∨
      AdmittedBefore span calls results j call := by
  constructor
  · rintro ⟨i, past, hij, hpast, hresult, hpair⟩
    cases i with
    | zero =>
        simp only [List.getElem?_cons_zero, Option.some.injEq] at hpast hresult
        subst hpast
        exact .inl ⟨hresult, hpair⟩
    | succ i =>
        exact .inr ⟨i, past, by omega, by simpa using hpast,
          by simpa using hresult, hpair⟩
  · rintro (⟨hresult, hpair⟩ | ⟨i, past, hij, hpast, hresult, hpair⟩)
    · exact ⟨0, head, by omega, rfl, by simp [hresult], hpair⟩
    · exact ⟨i + 1, past, by omega, by simpa using hpast,
        by simpa using hresult, hpair⟩

theorem logAnswers_eq_false_iff
    (span : ℤ) {log calls : List ReplayCall} {j : ℕ} {call : ReplayCall}
    (hcall : calls[j]? = some call) :
    (logAnswers span log calls)[j]? = some false ↔
      Replayed span log call ∨
        AdmittedBefore span calls (logAnswers span log calls) j call := by
  induction calls generalizing log j with
  | nil => simp at hcall
  | cons head rest ih =>
      unfold logAnswers
      cases j with
      | zero =>
          simp only [List.getElem?_cons_zero, Option.some.injEq] at hcall
          subst hcall
          have hnone : ∀ results, ¬ AdmittedBefore span (head :: rest) results 0
              head := by
            rintro results ⟨i, _, hi, _⟩
            omega
          by_cases hreplay : Replayed span log head
          · simp [hreplay]
          · simp [hreplay, hnone]
      | succ j =>
          have hrest : rest[j]? = some call := by simpa using hcall
          by_cases hreplay : Replayed span log head
          · rw [if_pos hreplay, List.getElem?_cons_succ, ih hrest,
              admittedBefore_cons]
            simp
          · rw [if_neg hreplay, List.getElem?_cons_succ, ih hrest,
              admittedBefore_cons, replayed_append_singleton, or_assoc]
            simp

section Runs

variable {window : ℤ} {calls : List ReplayCall}

theorem newReplayCache_answers
    (window : ℤ) (hclock : calls.Pairwise fun a b => a.now ≤ b.now) :
    (newReplayCache window).answers calls =
      logAnswers (Int.tdiv window second) [] calls := by
  cases calls with
  | nil => rfl
  | cons head rest =>
      refine ReplayCache.answers_eq_logAnswers
        (ExpiringSet.tracks_empty _ head.now) ?_ hclock
      intro call hcall
      rcases List.mem_cons.mp hcall with rfl | hrest
      · exact le_rfl
      · exact (List.pairwise_cons.mp hclock).1 call hrest

theorem answers_eq_false_iff
    (hclock : calls.Pairwise fun a b => a.now ≤ b.now)
    {j : ℕ} {call : ReplayCall} (hcall : calls[j]? = some call) :
    ((newReplayCache window).answers calls)[j]? = some false ↔
      AdmittedBefore (Int.tdiv window second) calls
        ((newReplayCache window).answers calls) j call := by
  rw [newReplayCache_answers window hclock, logAnswers_eq_false_iff _ hcall]
  simp [Replayed]

end Runs

/-- `MarkSeenOrReject` answers as the log does: a call is refused exactly when
an earlier call for its pair was admitted less than the window ago. -/
theorem replay_cache_refines_log
    (window : ℤ) (calls : List ReplayCall)
    (hclock : calls.Pairwise fun a b => a.now ≤ b.now) :
    (newReplayCache window).answers calls =
        logAnswers (Int.tdiv window second) [] calls ∧
      ∀ (j : ℕ) (call : ReplayCall), calls[j]? = some call →
        (((newReplayCache window).answers calls)[j]? = some false ↔
          ∃ (i : ℕ) (past : ReplayCall), i < j ∧ calls[i]? = some past ∧
            ((newReplayCache window).answers calls)[i]? = some true ∧
            past.uuid = call.uuid ∧ past.nonce = call.nonce ∧
            call.now < past.now + Int.tdiv window second) :=
  ⟨newReplayCache_answers window hclock,
    fun _ _ hcall => answers_eq_false_iff hclock hcall⟩

def callAt (now : ℤ) : ReplayCall where
  uuid := FixedBytes.copyFrom uuidLen []
  nonce := FixedBytes.copyFrom handshakeNonce []
  now := now

/-- Two seconds of window, truncated from 2.9 s: the pair is back on the third
second. -/
theorem replay_cache_refines_log_truncated :
    logAnswers (Int.tdiv 2900000000 second) [] [callAt 5, callAt 6, callAt 7] =
        [true, false, true] ∧
      (newReplayCache 2900000000).answers [callAt 5, callAt 6, callAt 7] =
        [true, false, true] := by
  have hlog : logAnswers (Int.tdiv 2900000000 second) []
      [callAt 5, callAt 6, callAt 7] = [true, false, true] := by decide
  refine ⟨hlog, ?_⟩
  rw [(replay_cache_refines_log 2900000000 [callAt 5, callAt 6, callAt 7]
    (by decide)).1, hlog]

/-! ## The window in nanoseconds -/

/-- A call of `MarkSeenOrReject` at a clock in nanoseconds. -/
structure TimedCall where
  uuid : Uuid
  nonce : HelloNonce
  clock : ℤ

/-- The call as the cache sees it, `time.Now().Unix()` being its reading. -/
def TimedCall.reading (call : TimedCall) : ReplayCall where
  uuid := call.uuid
  nonce := call.nonce
  now := unixSeconds call.clock

def ReplayCache.clockAnswers (c : ReplayCache) (calls : List TimedCall) :
    List Bool :=
  c.answers (calls.map TimedCall.reading)

/-- Any two admissions of one pair are at least the window apart. -/
def HonoursWindow (window : ℤ) (calls : List TimedCall) : Prop :=
  ∀ (i j : ℕ) (first again : TimedCall), i < j →
    calls[i]? = some first → calls[j]? = some again →
    first.uuid = again.uuid → first.nonce = again.nonce →
    ((newReplayCache window).clockAnswers calls)[i]? = some true →
    ((newReplayCache window).clockAnswers calls)[j]? = some true →
    first.clock + window ≤ again.clock

/-- No call for an admitted pair comes after the expiry that the cache has
rounded down to a second, yet before the window is over. -/
def NoCallInGap (window : ℤ) (calls : List TimedCall) : Prop :=
  ∀ (i j : ℕ) (first again : TimedCall), i < j →
    calls[i]? = some first → calls[j]? = some again →
    first.uuid = again.uuid → first.nonce = again.nonce →
    ((newReplayCache window).clockAnswers calls)[i]? = some true →
    ¬ ((unixSeconds first.clock + Int.tdiv window second) * second ≤
        again.clock ∧ again.clock < first.clock + window)

theorem mul_second_le_iff (n clock : ℤ) :
    n * second ≤ clock ↔ n ≤ unixSeconds clock :=
  (Int.le_ediv_iff_mul_le (by decide)).symm

theorem ReplayCache.answers_length (c : ReplayCache) (calls : List ReplayCall) :
    (c.answers calls).length = calls.length := by
  induction calls generalizing c with
  | nil => rfl
  | cons call rest ih => simp [ReplayCache.answers, ih]

section Gap

variable {window : ℤ} {calls : List TimedCall}

theorem readings_sorted
    (hclock : calls.Pairwise fun a b => a.clock ≤ b.clock) :
    (calls.map TimedCall.reading).Pairwise fun a b => a.now ≤ b.now :=
  List.Pairwise.map _ (fun _ _ hle => unixSeconds_mono hle) hclock

theorem getElem?_reading
    {j : ℕ} {call : TimedCall} (hcall : calls[j]? = some call) :
    (calls.map TimedCall.reading)[j]? = some call.reading := by
  simp [hcall]

theorem clockAnswers_eq_true_or_false
    {j : ℕ} {call : TimedCall} (hcall : calls[j]? = some call) :
    ((newReplayCache window).clockAnswers calls)[j]? = some true ∨
      ((newReplayCache window).clockAnswers calls)[j]? = some false := by
  have hj : j < ((newReplayCache window).clockAnswers calls).length := by
    rw [ReplayCache.clockAnswers, ReplayCache.answers_length, List.length_map]
    exact (List.getElem?_eq_some_iff.mp hcall).1
  rw [List.getElem?_eq_getElem hj]
  cases ((newReplayCache window).clockAnswers calls)[j] with
  | true => exact .inl rfl
  | false => exact .inr rfl

/-- Two admissions of one pair are at least the truncated window apart in their
readings. -/
theorem admitted_readings_apart
    (hclock : calls.Pairwise fun a b => a.clock ≤ b.clock)
    {i j : ℕ} {first again : TimedCall} (hij : i < j)
    (hfirst : calls[i]? = some first) (hagain : calls[j]? = some again)
    (huuid : first.uuid = again.uuid) (hnonce : first.nonce = again.nonce)
    (hi : ((newReplayCache window).clockAnswers calls)[i]? = some true)
    (hj : ((newReplayCache window).clockAnswers calls)[j]? = some true) :
    unixSeconds first.clock + Int.tdiv window second ≤
      unixSeconds again.clock := by
  by_contra hshort
  have hfalse : ((newReplayCache window).clockAnswers calls)[j]? =
      some false :=
    (answers_eq_false_iff (readings_sorted hclock) (getElem?_reading hagain)).mpr
      ⟨i, first.reading, hij, getElem?_reading hfirst, hi, huuid, hnonce,
        not_le.mp hshort⟩
  rw [hj] at hfalse
  simp at hfalse

theorem exists_admitted_of_refused
    (hclock : calls.Pairwise fun a b => a.clock ≤ b.clock)
    {j : ℕ} {again : TimedCall} (hagain : calls[j]? = some again)
    (hj : ((newReplayCache window).clockAnswers calls)[j]? = some false) :
    ∃ (i : ℕ) (first : TimedCall), i < j ∧ calls[i]? = some first ∧
      ((newReplayCache window).clockAnswers calls)[i]? = some true ∧
      first.uuid = again.uuid ∧ first.nonce = again.nonce ∧
      unixSeconds again.clock <
        unixSeconds first.clock + Int.tdiv window second := by
  obtain ⟨i, past, hij, hpast, hi, huuid, hnonce, hlive⟩ :=
    (answers_eq_false_iff (readings_sorted hclock)
      (getElem?_reading hagain)).mp hj
  rw [List.getElem?_map, Option.map_eq_some_iff] at hpast
  obtain ⟨first, hfirst, rfl⟩ := hpast
  exact ⟨i, first, hij, hfirst, hi, huuid, hnonce, hlive⟩

theorem clock_le_of_lt
    (hclock : calls.Pairwise fun a b => a.clock ≤ b.clock)
    {i j : ℕ} {a b : TimedCall} (hij : i < j)
    (ha : calls[i]? = some a) (hb : calls[j]? = some b) :
    a.clock ≤ b.clock := by
  obtain ⟨hi, rfl⟩ := List.getElem?_eq_some_iff.mp ha
  obtain ⟨hj, rfl⟩ := List.getElem?_eq_some_iff.mp hb
  exact List.pairwise_iff_getElem.mp hclock i j hi hj hij

end Gap

/-- The window is honoured in real time exactly in the runs in which no call
falls into the gap that rounding leaves. -/
theorem honours_window_iff
    (window : ℤ) (calls : List TimedCall)
    (hclock : calls.Pairwise fun a b => a.clock ≤ b.clock) :
    HonoursWindow window calls ↔ NoCallInGap window calls := by
  constructor
  · rintro hhonours i j first again hij hfirst hagain huuid hnonce hi
      ⟨hexpired, hearly⟩
    rw [mul_second_le_iff] at hexpired
    rcases @clockAnswers_eq_true_or_false window _ _ _ hagain with hj | hj
    · have := hhonours i j first again hij hfirst hagain huuid hnonce hi hj
      omega
    · -- the refusal goes back to a later admission, itself a window after `first`
      obtain ⟨k, middle, hkj, hmiddle, hk, huuid', hnonce', hlive⟩ :=
        exists_admitted_of_refused hclock hagain hj
      have hik : i < k := by
        rcases lt_trichotomy i k with hlt | rfl | hgt
        · exact hlt
        · rw [hfirst, Option.some.injEq] at hmiddle
          subst hmiddle
          omega
        · have := unixSeconds_mono (clock_le_of_lt hclock hgt hmiddle hfirst)
          omega
      have hapart := hhonours i k first middle hik hfirst hmiddle
        (huuid.trans huuid'.symm) (hnonce.trans hnonce'.symm) hi hk
      have := clock_le_of_lt hclock hkj hmiddle hagain
      omega
  · intro hgap i j first again hij hfirst hagain huuid hnonce hi hj
    have hapart :=
      admitted_readings_apart hclock hij hfirst hagain huuid hnonce hi hj
    by_contra hearly
    exact hgap i j first again hij hfirst hagain huuid hnonce hi
      ⟨(mul_second_le_iff _ _).mpr hapart, not_le.mp hearly⟩

/-- Nothing is rounded when the window and the calls keep to whole seconds. -/
theorem noCallInGap_of_whole_seconds
    {window : ℤ} {calls : List TimedCall} (hwindow : second ∣ window)
    (hcalls : ∀ call ∈ calls, second ∣ call.clock) :
    NoCallInGap window calls := by
  rintro i j first again _ hfirst _ _ _ _ ⟨hexpired, hearly⟩
  have hclock : unixSeconds first.clock * second = first.clock :=
    Int.ediv_mul_cancel (hcalls first (List.mem_of_getElem? hfirst))
  rw [add_mul, hclock, Int.tdiv_mul_cancel hwindow] at hexpired
  omega

def timedAt (clock : ℤ) : TimedCall where
  uuid := FixedBytes.copyFrom uuidLen []
  nonce := FixedBytes.copyFrom handshakeNonce []
  clock := clock

theorem honours_window_iff_whole_seconds :
    HonoursWindow replayWindow [timedAt 0, timedAt (180 * second)] :=
  (honours_window_iff replayWindow [timedAt 0, timedAt (180 * second)]
    (by decide)).mpr
    (noCallInGap_of_whole_seconds ⟨180, rfl⟩ (by simp [timedAt]))

/-! ## Readmission before the window is over -/

theorem clockAnswers_readmitted
    {window clock clock' : ℤ} (hclock : clock ≤ clock')
    (hexpired : (unixSeconds clock + Int.tdiv window second) * second ≤ clock') :
    (newReplayCache window).clockAnswers [timedAt clock, timedAt clock'] =
      [true, true] := by
  have hfirst : ¬ Replayed (Int.tdiv window second) [] (timedAt clock).reading :=
    by simp [Replayed]
  have hagain : ¬ Replayed (Int.tdiv window second)
      ([] ++ [(timedAt clock).reading]) (timedAt clock').reading := by
    rintro ⟨past, hpast, _, _, hlive⟩
    simp only [List.nil_append, List.mem_singleton] at hpast
    subst hpast
    exact absurd ((mul_second_le_iff _ _).mp hexpired) (not_le.mpr hlive)
  rw [ReplayCache.clockAnswers,
    newReplayCache_answers window (readings_sorted (by simp [timedAt, hclock])),
    List.map_cons, List.map_cons, List.map_nil, logAnswers, if_neg hfirst,
    logAnswers, if_neg hagain, logAnswers]

theorem not_honoursWindow_of_readmitted
    {window clock clock' : ℤ} (hclock : clock ≤ clock')
    (hexpired : (unixSeconds clock + Int.tdiv window second) * second ≤ clock')
    (hearly : clock' < clock + window) :
    ¬ HonoursWindow window [timedAt clock, timedAt clock'] := by
  intro hhonours
  have hanswers := clockAnswers_readmitted hclock hexpired
  have hapart := hhonours 0 1 (timedAt clock) (timedAt clock') (by decide) rfl
    rfl rfl rfl (by rw [hanswers]; rfl) (by rw [hanswers]; rfl)
  exact absurd hapart (not_le.mpr hearly)

/-- The standard window of three minutes, cut short by almost a second. -/
theorem replay_window_cut_short :
    0 < replayWindow ∧
      (newReplayCache replayWindow).clockAnswers
          [timedAt 999999999, timedAt 180000000000] = [true, true] ∧
      180000000000 < 999999999 + replayWindow ∧
      ¬ HonoursWindow replayWindow
        [timedAt 999999999, timedAt 180000000000] :=
  ⟨by decide, clockAnswers_readmitted (by decide) (by decide), by decide,
    not_honoursWindow_of_readmitted (by decide) (by decide) (by decide)⟩

end SingEwp
