import SingEwp.LengthFramer

/-!
# Sizes on the wire

What an observer sees of a stream is the sizes of its messages.  The padding
policy aims at a bucket of its ladder and then cuts the pad to `MaxFramePad`; a
message lands in a bucket exactly when the bucket it aims at is within reach of
the largest pad, and otherwise its size gives its length away.  The policy never
makes a message unsendable, and it keeps the messages of `SendTCPData` between
the lowest and the highest bucket.
-/

namespace SingEwp

/-! ## Buckets -/

/-- The size `padToBucket` aims at, before any clamp. -/
def targetBucket (rawWireLen : ℤ) (ladder : List ℤ) (draw : RandRead) : ℤ :=
  match ladder.findIdx? (fun b => rawWireLen ≤ b) with
  | none => Int.tdiv (rawWireLen + 1023) 1024 * 1024
  | some idx =>
      if idx + 1 < ladder.length ∧
          secureRandIntn 10000 draw < bucketUpProbBP then
        ladder.getD (idx + 1) 0
      else ladder.getD idx 0

section Buckets

variable {rawWireLen target : ℤ} {ladder : List ℤ} {draw : RandRead}

theorem padToBucket_eq
    (hmax : targetBucket rawWireLen ladder draw ≤ maxWire) :
    padToBucket rawWireLen ladder draw =
      clampPad rawWireLen (targetBucket rawWireLen ladder draw) := by
  unfold targetBucket at hmax ⊢
  unfold padToBucket
  cases hidx : ladder.findIdx? (fun b => rawWireLen ≤ b) with
  | none =>
      simp only [hidx] at hmax ⊢
      rw [if_neg (not_lt.mpr hmax)]
  | some idx =>
      dsimp only
      split
      · rfl
      · rfl

theorem clampPad_wire (hle : rawWireLen ≤ target) (hmax : target ≤ maxWire) :
    rawWireLen + clampPad rawWireLen target =
      min target (rawWireLen + maxFramePad) := by
  unfold clampPad
  dsimp only
  rw [if_neg (by omega : ¬ target - rawWireLen < 0)]
  by_cases hreach : target ≤ rawWireLen + maxFramePad
  · rw [if_neg (by omega : ¬ (maxFramePad : ℤ) < target - rawWireLen),
      if_neg (by omega), min_eq_left hreach]
    omega
  · rw [if_pos (by omega : (maxFramePad : ℤ) < target - rawWireLen),
      if_neg (by omega), min_eq_right (by omega)]

/-- The clamps leave a message at its target or at the largest pad. -/
theorem padToBucket_wire
    (hle : rawWireLen ≤ targetBucket rawWireLen ladder draw)
    (hmax : targetBucket rawWireLen ladder draw ≤ maxWire) :
    rawWireLen + padToBucket rawWireLen ladder draw =
      min (targetBucket rawWireLen ladder draw) (rawWireLen + maxFramePad) := by
  rw [padToBucket_eq hmax, clampPad_wire hle hmax]

/-- The target is the smallest bucket that fits, or the next one. -/
theorem targetBucket_eq
    (draw : RandRead) (hfits : ∃ b ∈ ladder, rawWireLen ≤ b) :
    ∃ (idx : ℕ) (hidx : idx < ladder.length), rawWireLen ≤ ladder[idx] ∧
      (∀ (j : ℕ) (hj : j < idx), ladder[j] < rawWireLen) ∧
      (targetBucket rawWireLen ladder draw = ladder[idx] ∨
        ∃ hup : idx + 1 < ladder.length,
          targetBucket rawWireLen ladder draw = ladder[idx + 1]) := by
  obtain ⟨b, hb, hraw⟩ := hfits
  unfold targetBucket
  cases hfind : ladder.findIdx? (fun b => rawWireLen ≤ b) with
  | none =>
      rw [List.findIdx?_eq_none_iff] at hfind
      have := hfind b hb
      simp [hraw] at this
  | some idx =>
      obtain ⟨hidx, hfound, hsmaller⟩ :=
        List.findIdx?_eq_some_iff_getElem.mp hfind
      refine ⟨idx, hidx, by simpa using hfound, ?_, ?_⟩
      · intro j hj
        simpa using hsmaller j hj
      · dsimp only
        by_cases hup : idx + 1 < ladder.length ∧
            secureRandIntn 10000 draw < bucketUpProbBP
        · rw [if_pos hup, ← List.getElem_eq_getD (h := hup.1) 0]
          exact .inr ⟨hup.1, rfl⟩
        · rw [if_neg hup, ← List.getElem_eq_getD (h := hidx) 0]
          exact .inl rfl

/-- The place of a length in its ladder, and the size it aims at from there. -/
theorem targetBucket_at
    (draw : RandRead) (hfits : ∃ b ∈ ladder, rawWireLen ≤ b) :
    ∃ idx < ladder.length, rawWireLen ≤ ladder.getD idx 0 ∧
      (0 < idx → ladder.getD (idx - 1) 0 < rawWireLen) ∧
      targetBucket rawWireLen ladder draw =
        if idx + 1 < ladder.length ∧
            secureRandIntn 10000 draw < bucketUpProbBP then
          ladder.getD (idx + 1) 0 else ladder.getD idx 0 := by
  obtain ⟨b, hb, hle⟩ := hfits
  unfold targetBucket
  cases hfind : ladder.findIdx? (fun b => rawWireLen ≤ b) with
  | none =>
      have hnone := List.findIdx?_eq_none_iff.mp hfind b hb
      simp [hle] at hnone
  | some idx =>
      obtain ⟨hidx, hfound, hsmaller⟩ :=
        List.findIdx?_eq_some_iff_getElem.mp hfind
      refine ⟨idx, hidx, ?_, ?_, rfl⟩
      · rw [← List.getElem_eq_getD (h := hidx) 0]
        simpa using hfound
      · intro hpos
        rw [← List.getElem_eq_getD (h := by omega) 0]
        simpa using hsmaller (idx - 1) (by omega)

/-- Two messages with the same smallest bucket aim at the same size. -/
theorem targetBucket_congr
    {a b : ℤ} (draw : RandRead) (hfits : ∃ bucket ∈ ladder, b ≤ bucket)
    (hsame : ladder.findIdx? (fun bucket => a ≤ bucket) =
      ladder.findIdx? (fun bucket => b ≤ bucket)) :
    targetBucket a ladder draw = targetBucket b ladder draw := by
  unfold targetBucket
  rw [hsame]
  cases hfind : ladder.findIdx? (fun bucket => b ≤ bucket) with
  | none =>
      obtain ⟨bucket, hbucket, hle⟩ := hfits
      have := List.findIdx?_eq_none_iff.mp hfind bucket hbucket
      simp [hle] at this
  | some idx => rfl

theorem targetBucket_fits
    (hsorted : ladder.Pairwise (· < ·)) (hfits : ∃ b ∈ ladder, rawWireLen ≤ b) :
    targetBucket rawWireLen ladder draw ∈ ladder ∧
      rawWireLen ≤ targetBucket rawWireLen ladder draw := by
  obtain ⟨idx, hidx, hle, _, htarget | ⟨hup, htarget⟩⟩ :=
    targetBucket_eq draw hfits
  · rw [htarget]
    exact ⟨List.getElem_mem _, hle⟩
  · have hnext : ladder[idx] < ladder[idx + 1] :=
      List.pairwise_iff_getElem.mp hsorted idx (idx + 1) hidx hup
        (Nat.lt_succ_self idx)
    rw [htarget]
    exact ⟨List.getElem_mem _, hle.trans hnext.le⟩

/-- Every bucket but the top one is a pad away from the one below it, the first
one from the empty frame. -/
def ReachableSteps (ladder : List ℤ) : Prop :=
  ∀ idx < ladder.length - 1,
    ladder.getD idx 0 ≤ (32 :: ladder).getD idx 0 + maxFramePad

/-- Cut to the largest pad, a message misses every bucket. -/
theorem clamped_not_mem
    (hsorted : ladder.Pairwise (· < ·)) (hsteps : ReachableSteps ladder)
    (hlow : 33 ≤ rawWireLen) (hfits : ∃ b ∈ ladder, rawWireLen ≤ b)
    (hreach : rawWireLen + maxFramePad < targetBucket rawWireLen ladder draw) :
    rawWireLen + maxFramePad ∉ ladder := by
  intro hmem
  obtain ⟨m, hm, hval⟩ := List.getElem_of_mem hmem
  obtain ⟨idx, hidx, hle, hsmaller, htarget⟩ := targetBucket_eq draw hfits
  have hmono : ∀ i j (hi : i < ladder.length) (hj : j < ladder.length), i < j →
      ladder[i] < ladder[j] := List.pairwise_iff_getElem.mp hsorted
  have hpad : (0 : ℤ) ≤ maxFramePad := by simp
  have hidxLe : idx ≤ m := by
    by_contra hlt
    have := hsmaller m (not_le.mp hlt)
    omega
  rcases htarget with htarget | ⟨hup, htarget⟩
  · rcases hidxLe.lt_or_eq with hlt | rfl
    · have := hmono idx m hidx hm hlt
      omega
    · omega
  · -- between the message and the next bucket there is only the smallest one
    have hmEq : m = idx := by
      by_contra hne
      rcases (by omega : m = idx + 1 ∨ idx + 1 < m) with rfl | hlt
      · omega
      · have := hmono (idx + 1) m hup hm hlt
        omega
    subst hmEq
    have hstep := hsteps m (by omega)
    rw [← List.getElem_eq_getD (h := hm) 0, hval] at hstep
    cases m with
    | zero =>
        simp only [List.getD_cons_zero] at hstep
        omega
    | succ k =>
        have := hsmaller k (by omega)
        rw [List.getD_cons_succ, ← List.getElem_eq_getD (h := by omega) 0]
          at hstep
        omega

theorem padToBucket_between
    {lo hi : ℤ} (hsorted : ladder.Pairwise (· < ·))
    (hfits : ∃ b ∈ ladder, rawWireLen ≤ b)
    (hbounds : ∀ b ∈ ladder, lo ≤ b ∧ b ≤ hi) (hhi : hi ≤ maxWire)
    (hlo : lo ≤ rawWireLen + maxFramePad) :
    lo ≤ rawWireLen + padToBucket rawWireLen ladder draw ∧
      rawWireLen + padToBucket rawWireLen ladder draw ≤ hi := by
  obtain ⟨hmem, hle⟩ := @targetBucket_fits _ _ draw hsorted hfits
  obtain ⟨hlow, hhigh⟩ := hbounds _ hmem
  rw [padToBucket_wire hle (hhigh.trans hhi)]
  exact ⟨le_min hlow hlo, (min_le_left _ _).trans hhigh⟩

end Buckets

theorem steadyBuckets_sorted : steadyBuckets.Pairwise (· < ·) := by decide

theorem handshakeBuckets_sorted : handshakeBuckets.Pairwise (· < ·) := by decide

theorem steadyBuckets_bounds :
    ∀ b ∈ steadyBuckets, 256 ≤ b ∧ b ≤ 16384 := by decide

theorem handshakeBuckets_bounds :
    ∀ b ∈ handshakeBuckets, 1500 ≤ b ∧ b ≤ 16384 := by decide

/-- One of the two ladders of the policy. -/
def IsLadder (ladder : List ℤ) : Prop :=
  ladder = steadyBuckets ∨ ladder = handshakeBuckets

namespace IsLadder

variable {ladder : List ℤ} (hladder : IsLadder ladder)
include hladder

theorem sorted : ladder.Pairwise (· < ·) := by
  rcases hladder with rfl | rfl
  · exact steadyBuckets_sorted
  · exact handshakeBuckets_sorted

theorem reachableSteps : ReachableSteps ladder := by
  unfold ReachableSteps
  rcases hladder with rfl | rfl
  · decide
  · decide

theorem le_top : ∀ b ∈ ladder, b ≤ 16384 := by
  rcases hladder with rfl | rfl
  · exact fun b hb => (steadyBuckets_bounds b hb).2
  · exact fun b hb => (handshakeBuckets_bounds b hb).2

theorem exists_fits {rawWireLen : ℤ} (hraw : rawWireLen ≤ 16384) :
    ∃ b ∈ ladder, rawWireLen ≤ b := by
  refine ⟨16384, ?_, hraw⟩
  rcases hladder with rfl | rfl
  · decide
  · decide

/-- The top bucket is within `maxWire`, so only the largest pad is a limit. -/
theorem wire_eq_min {rawWireLen : ℤ} (draw : RandRead)
    (hraw : rawWireLen ≤ 16384) :
    rawWireLen + padToBucket rawWireLen ladder draw =
      min (targetBucket rawWireLen ladder draw) (rawWireLen + maxFramePad) := by
  obtain ⟨hmem, hle⟩ := @targetBucket_fits _ _ draw hladder.sorted
    (hladder.exists_fits hraw)
  exact padToBucket_wire hle ((hladder.le_top _ hmem).trans (by simp))

theorem wire_mem_iff {rawWireLen : ℤ} (draw : RandRead) (hlow : 33 ≤ rawWireLen)
    (hraw : rawWireLen ≤ 16384) :
    rawWireLen + padToBucket rawWireLen ladder draw ∈ ladder ↔
      targetBucket rawWireLen ladder draw ≤ rawWireLen + maxFramePad := by
  have hfits := hladder.exists_fits hraw
  rw [hladder.wire_eq_min draw hraw]
  constructor
  · intro hlands
    by_contra hreach
    rw [min_eq_right (not_le.mp hreach).le] at hlands
    exact clamped_not_mem hladder.sorted hladder.reachableSteps hlow hfits
      (not_le.mp hreach) hlands
  · intro hreach
    rw [min_eq_left hreach]
    exact (targetBucket_fits hladder.sorted hfits).1

theorem targetBucket_beyond {rawWireLen : ℤ} (draw : RandRead)
    (hraw : 16384 < rawWireLen) :
    targetBucket rawWireLen ladder draw =
      (rawWireLen + 1023) / 1024 * 1024 := by
  have hnone : ladder.findIdx? (fun b => rawWireLen ≤ b) = none := by
    rw [List.findIdx?_eq_none_iff]
    intro b hb
    have := hladder.le_top b hb
    simp only [decide_eq_false_iff_not]
    omega
  unfold targetBucket
  rw [hnone]
  dsimp only
  rw [Int.tdiv_eq_ediv_of_nonneg (by omega)]

/-- Beyond the ladder every multiple of 1024 is within reach. -/
theorem wire_beyond {rawWireLen : ℤ} (draw : RandRead)
    (hlow : 16384 < rawWireLen) (hhigh : rawWireLen ≤ 64512) :
    rawWireLen + padToBucket rawWireLen ladder draw =
      (rawWireLen + 1023) / 1024 * 1024 := by
  have htarget := hladder.targetBucket_beyond draw hlow
  have hmax : targetBucket rawWireLen ladder draw ≤ maxWire := by
    rw [htarget]
    simp only [maxWire]
    omega
  rw [padToBucket_wire (by omega) hmax, htarget]
  apply min_eq_left
  simp only [maxFramePad]
  omega

end IsLadder

section Reach

variable {rawWireLen : ℤ}

/-- The top step of the first ladder is out of reach of half its lengths, and so
are the next buckets but one. -/
theorem handshake_reach_iff
    (draw : RandRead) (hlow : 33 ≤ rawWireLen) (hhigh : rawWireLen ≤ 16384) :
    targetBucket rawWireLen handshakeBuckets draw ≤ rawWireLen + maxFramePad ↔
      ¬(8193 ≤ rawWireLen ∧ rawWireLen ≤ 12287) ∧
      (secureRandIntn 10000 draw < bucketUpProbBP →
        ¬(1501 ≤ rawWireLen ∧ rawWireLen ≤ 4095) ∧
        ¬(4097 ≤ rawWireLen ∧ rawWireLen ≤ 8192)) := by
  obtain ⟨idx, hidx, hfits, hbelow, htarget⟩ :=
    targetBucket_at draw (IsLadder.exists_fits (.inr rfl) hhigh)
  rw [htarget]
  simp only [handshakeBuckets, List.length_cons, List.length_nil] at hidx
  by_cases hup : secureRandIntn 10000 draw < bucketUpProbBP
  · interval_cases idx <;>
      simp [handshakeBuckets, hup] at hfits hbelow ⊢ <;> omega
  · interval_cases idx <;>
      simp [handshakeBuckets, hup] at hfits hbelow ⊢ <;> omega

/-- In the second ladder only a frame that is bumped up is out of reach. -/
theorem steady_reach_iff
    (draw : RandRead) (hlow : 33 ≤ rawWireLen) (hhigh : rawWireLen ≤ 16384) :
    targetBucket rawWireLen steadyBuckets draw ≤ rawWireLen + maxFramePad ↔
      (secureRandIntn 10000 draw < bucketUpProbBP →
        ¬(2049 ≤ rawWireLen ∧ rawWireLen ≤ 4095) ∧
        ¬(4097 ≤ rawWireLen ∧ rawWireLen ≤ 8191) ∧
        ¬(8193 ≤ rawWireLen ∧ rawWireLen ≤ 12287)) := by
  obtain ⟨idx, hidx, hfits, hbelow, htarget⟩ :=
    targetBucket_at draw (IsLadder.exists_fits (.inl rfl) hhigh)
  rw [htarget]
  simp only [steadyBuckets, List.length_cons, List.length_nil] at hidx
  by_cases hup : secureRandIntn 10000 draw < bucketUpProbBP
  · interval_cases idx <;>
      simp [steadyBuckets, hup] at hfits hbelow ⊢ <;> omega
  · interval_cases idx <;>
      simp [steadyBuckets, hup] at hfits hbelow ⊢ <;> omega

end Reach

/-- A padded message lands in a bucket exactly when its target is within reach of
the largest pad, which for each ladder is a matter of ranges; if it is not, its
size tells its length.  Beyond the ladder it lands on a multiple of 1024. -/
theorem padded_frames_land_iff
    (ladder : List ℤ) (hladder : IsLadder ladder) (draw : RandRead) :
    (∀ rawWireLen : ℤ, 33 ≤ rawWireLen → rawWireLen ≤ 16384 →
      (rawWireLen + padToBucket rawWireLen ladder draw ∈ ladder ↔
        targetBucket rawWireLen ladder draw ≤ rawWireLen + maxFramePad) ∧
      (rawWireLen + maxFramePad < targetBucket rawWireLen ladder draw →
        padToBucket rawWireLen ladder draw = maxFramePad)) ∧
    (∀ rawWireLen : ℤ, 16384 < rawWireLen → rawWireLen ≤ 64512 →
      1024 ∣ rawWireLen + padToBucket rawWireLen ladder draw ∧
        0 ≤ padToBucket rawWireLen ladder draw ∧
        padToBucket rawWireLen ladder draw < 1024) ∧
    (∀ a b : ℤ, a ≤ 16384 → b ≤ 16384 →
      ladder.findIdx? (fun bucket => a ≤ bucket) =
        ladder.findIdx? (fun bucket => b ≤ bucket) →
      targetBucket a ladder draw ≤ a + maxFramePad →
      targetBucket b ladder draw ≤ b + maxFramePad →
      a + padToBucket a ladder draw = b + padToBucket b ladder draw) ∧
    ∀ rawWireLen : ℤ, 33 ≤ rawWireLen → rawWireLen ≤ 16384 →
      (targetBucket rawWireLen handshakeBuckets draw ≤ rawWireLen + maxFramePad ↔
        ¬(8193 ≤ rawWireLen ∧ rawWireLen ≤ 12287) ∧
        (secureRandIntn 10000 draw < bucketUpProbBP →
          ¬(1501 ≤ rawWireLen ∧ rawWireLen ≤ 4095) ∧
          ¬(4097 ≤ rawWireLen ∧ rawWireLen ≤ 8192))) ∧
      (targetBucket rawWireLen steadyBuckets draw ≤ rawWireLen + maxFramePad ↔
        (secureRandIntn 10000 draw < bucketUpProbBP →
          ¬(2049 ≤ rawWireLen ∧ rawWireLen ≤ 4095) ∧
          ¬(4097 ≤ rawWireLen ∧ rawWireLen ≤ 8191) ∧
          ¬(8193 ≤ rawWireLen ∧ rawWireLen ≤ 12287))) := by
  refine ⟨?_, ?_, ?_, fun rawWireLen hlow hhigh =>
    ⟨handshake_reach_iff draw hlow hhigh, steady_reach_iff draw hlow hhigh⟩⟩
  · intro rawWireLen hlow hhigh
    refine ⟨hladder.wire_mem_iff draw hlow hhigh, ?_⟩
    intro hreach
    have hwire := hladder.wire_eq_min draw hhigh
    rw [min_eq_right hreach.le] at hwire
    omega
  · intro rawWireLen hlow hhigh
    have hwire := hladder.wire_beyond draw hlow hhigh
    refine ⟨?_, by omega, by omega⟩
    rw [hwire]
    exact Dvd.intro_left _ rfl
  · intro a b ha hb hsame hreachA hreachB
    rw [hladder.wire_eq_min draw ha, hladder.wire_eq_min draw hb,
      min_eq_left hreachA, min_eq_left hreachB]
    exact targetBucket_congr draw (hladder.exists_fits hb) hsame

theorem padded_frames_land_small :
    300 + padToBucket 300 steadyBuckets Transparent.framerEnv.bucket ∈
      steadyBuckets :=
  ((padded_frames_land_iff steadyBuckets (.inl rfl)
    Transparent.framerEnv.bucket).1 300 (by decide) (by decide)).1.mpr (by decide)

/-- One byte above a bucket, and the largest pad does not reach the next. -/
theorem padded_frames_miss :
    8193 + padToBucket 8193 handshakeBuckets Transparent.framerEnv.bucket =
        12289 ∧
      (12289 : ℤ) ∉ handshakeBuckets ∧
      4097 + padToBucket 4097 steadyBuckets Transparent.framerEnv.bucket =
        8193 ∧
      (8193 : ℤ) ∉ steadyBuckets := by
  decide

/-! ## Sendable with any pad of the policy -/

theorem encodeFrameAppend_served_iff
    (P : Primitives) (dst : Bytes) (f : FrameAEAD) {t : FrameType}
    {metaBytes payload : Bytes} {padLen : ℤ} {draw : RandRead}
    (htype : t.valid = true) (hmeta : metaBytes.length ≤ maxMetaLen)
    (hpad : padLen ≤ maxFramePad) (hserved : ∀ n, draw n ≠ none) :
    (∃ out, encodeFrameAppend P dst f t metaBytes payload padLen draw =
        .ok out) ↔
      bareFrameLen metaBytes.length payload.length + padLen.toNat ≤
        maxFrameSize := by
  rw [Prod.exists, encodeFrameAppend_ok_iff]
  constructor
  · rintro ⟨_, _, _, hsize, _⟩
    exact hsize
  · intro hsize
    exact ⟨htype, hmeta, hpad, hsize, drawPad_ne_none hserved _⟩

/-- The pad of the policy is one the encoder takes, and the frame is sendable
with it exactly when it is sendable without. -/
theorem policy_pad_sendable_iff
    (P : Primitives) (dst : Bytes) (f : FrameAEAD) (t : FrameType)
    (metaBytes payload : Bytes) (phaseFrameIndex : ℤ) (bucket pad : RandRead)
    (htype : t.valid = true) (hmeta : metaBytes.length ≤ maxMetaLen)
    (hserved : ∀ n, pad n ≠ none) :
    0 ≤ suggestStreamPad (rawWireLen metaBytes.length payload.length)
        phaseFrameIndex bucket ∧
      suggestStreamPad (rawWireLen metaBytes.length payload.length)
        phaseFrameIndex bucket ≤ maxFramePad ∧
      ((∃ out, encodeFrameAppend P dst f t metaBytes payload
          (suggestStreamPad (rawWireLen metaBytes.length payload.length)
            phaseFrameIndex bucket) pad = .ok out) ↔
        ∃ out, encodeFrameAppend P dst f t metaBytes payload 0 pad =
          .ok out) := by
  obtain ⟨hnonneg, hmax, hfits⟩ := suggestStreamPad_within
    (rawWireLen metaBytes.length payload.length) phaseFrameIndex bucket
  generalize suggestStreamPad (rawWireLen metaBytes.length payload.length)
    phaseFrameIndex bucket = padLen at hnonneg hmax hfits ⊢
  refine ⟨hnonneg, hmax, ?_⟩
  rw [encodeFrameAppend_served_iff P dst f htype hmeta hmax hserved,
    encodeFrameAppend_served_iff P dst f htype hmeta (by simp) hserved]
  rcases hfits with hfits | rfl
  · rw [rawWireLen_eq] at hfits
    simp only [maxWire, maxFrameSize] at hfits ⊢
    omega
  · rfl

theorem policy_pad_sendable_empty :
    ∃ out, encodeFrameAppend Transparent.suite []
      (newClientSecureStream Transparent.keys).send framePing [] []
      (suggestStreamPad (rawWireLen 0 0) 0 Transparent.framerEnv.bucket)
      Transparent.framerEnv.pad = .ok out := by
  refine (policy_pad_sendable_iff Transparent.suite []
    (newClientSecureStream Transparent.keys).send framePing [] [] 0
    Transparent.framerEnv.bucket Transparent.framerEnv.pad rfl (by decide)
    (by simp [Transparent.framerEnv, Transparent.streamEnv])).2.2.mpr ?_
  exact ⟨_, rfl⟩

/-! ## The envelope of `SendTCPData` -/

theorem suggestStreamPad_between
    {rawWireLen : ℤ} (hlow : 33 ≤ rawWireLen) (hhigh : rawWireLen ≤ 16384)
    (phaseFrameIndex : ℤ) (draw : RandRead) :
    256 ≤ rawWireLen + suggestStreamPad rawWireLen phaseFrameIndex draw ∧
      rawWireLen + suggestStreamPad rawWireLen phaseFrameIndex draw ≤ 16384 ∧
      (phaseFrameIndex < handshakePhaseFrames →
        1500 ≤ rawWireLen + suggestStreamPad rawWireLen phaseFrameIndex draw) := by
  have hlo : (1500 : ℤ) ≤ rawWireLen + maxFramePad := by
    simp only [maxFramePad]
    omega
  unfold suggestStreamPad
  by_cases hphase : phaseFrameIndex < handshakePhaseFrames
  · obtain ⟨hmin, hmax⟩ := @padToBucket_between rawWireLen _ draw _ _
      handshakeBuckets_sorted (IsLadder.exists_fits (.inr rfl) hhigh)
      handshakeBuckets_bounds (by simp) hlo
    rw [if_pos hphase]
    exact ⟨by omega, hmax, fun _ => hmin⟩
  · obtain ⟨hmin, hmax⟩ := @padToBucket_between rawWireLen _ draw _ _
      steadyBuckets_sorted (IsLadder.exists_fits (.inl rfl) hhigh)
      steadyBuckets_bounds (by simp) (by omega)
    rw [if_neg hphase]
    exact ⟨hmin, hmax, fun h => absurd h hphase⟩

/-- The phase index is the number of frames sent, as long as that is small. -/
theorem toInt64_frames {n : ℕ} (hn : n < 16) :
    toInt64 (UInt64.ofNat n).toNat < handshakePhaseFrames := by
  rw [UInt64.toNat_ofNat_of_lt' (hn.trans (by decide)),
    toInt64_of_small (by omega) (by omega), handshakePhaseFrames]
  omega

/-- The size of the `n`-th message of a stream, counted from zero. -/
def WithinEnvelope (n size : ℕ) : Prop :=
  size ≤ 16384 ∧ 256 ≤ size ∧ (n < 16 → 1500 ≤ size)

/-- The frames that `SendTCPData` emits from the `n`-th frame on. -/
structure Enveloped (P : Primitives) (n : ℕ) (payload : Bytes)
    (frames : List SentFrame) : Prop where
  payload_eq : (frames.map SentFrame.payload).flatten = payload
  frame : ∀ (i : ℕ) (e : SentFrame), frames[i]? = some e →
    e.type = frameTCPData ∧ e.metaBytes = [] ∧
      e.payload.length ≤ reshapeMax ∧ (e.payload = [] → payload = []) ∧
      (∃ f fr, e.SealedIn P f fr) ∧ WithinEnvelope (n + i) e.wire.length

theorem Enveloped.singleton
    {P : Primitives} {n : ℕ} {e : SentFrame} (htype : e.type = frameTCPData)
    (hmeta : e.metaBytes = []) (hlen : e.payload.length ≤ reshapeMax)
    (hsealed : ∃ f fr, e.SealedIn P f fr)
    (hsize : WithinEnvelope n e.wire.length) : Enveloped P n e.payload [e] where
  payload_eq := by simp
  frame := by
    intro i e' he'
    obtain ⟨hi, rfl⟩ := List.getElem?_eq_some_iff.mp he'
    have hzero : i = 0 := by simpa using hi
    subst hzero
    exact ⟨htype, hmeta, hlen, id, hsealed, hsize⟩

theorem Enveloped.cons
    {P : Primitives} {n : ℕ} {e : SentFrame} {rest : Bytes}
    {frames : List SentFrame} (hfirst : Enveloped P n e.payload [e])
    (hne : e.payload ≠ []) (hrest : Enveloped P (n + 1) rest frames)
    (hframes : rest = [] → frames = []) :
    Enveloped P n (e.payload ++ rest) (e :: frames) where
  payload_eq := by simp [hrest.payload_eq]
  frame := by
    intro i e' he'
    cases i with
    | zero =>
        simp only [List.getElem?_cons_zero, Option.some.injEq] at he'
        subst he'
        obtain ⟨htype, hmeta, hlen, _, hfacts⟩ := hfirst.frame 0 e rfl
        exact ⟨htype, hmeta, hlen, fun hnil => absurd hnil hne, hfacts⟩
    | succ i =>
        rw [List.getElem?_cons_succ] at he'
        obtain ⟨htype, hmeta, hlen, hempty, hsealed, hsize⟩ :=
          hrest.frame i e' he'
        rw [Nat.add_right_comm] at hsize
        refine ⟨htype, hmeta, hlen, ?_, hsealed, hsize⟩
        intro hnil
        rw [hframes (hempty hnil)] at he'
        simp at he'

/-- A transport that takes every message of the envelope. -/
def TakesEnvelope (env : StreamEnv) : Prop :=
  ∀ w : Bytes, w.length ≤ 16384 → env.sendMessage w = none

theorem sendFrameLocked_enveloped
    {P : Primitives} {env : StreamEnv} {s : SecureStream} {piece : Bytes}
    (htakes : TakesEnvelope env) (hserved : ∀ m, env.pad m ≠ none)
    (hpiece : piece.length ≤ reshapeMax) :
    ∃ s' e, sendFrameLocked P frameTCPData [] piece (-1) env s = (.ok (), s') ∧
      s'.closed = s.closed ∧ s'.handed = s.handed ++ [e] ∧
      s'.frmOut = s.frmOut + 1 ∧ e.payload = piece ∧
      ∀ n, s.frmOut = UInt64.ofNat n → Enveloped P n e.payload [e] := by
  have hraw : (rawWireLen ([] : Bytes).length piece.length : ℤ) =
      33 + piece.length := by
    simp [rawWireLen]
    omega
  have hlen : piece.length ≤ 12288 := hpiece
  obtain ⟨hmin, hmax, hphase⟩ := @suggestStreamPad_between
    (rawWireLen ([] : Bytes).length piece.length) (by omega) (by omega)
    (toInt64 s.frmOut.toNat) env.bucket
  obtain ⟨hnonneg, hpadMax, _⟩ := suggestStreamPad_within
    (rawWireLen ([] : Bytes).length piece.length) (toInt64 s.frmOut.toNat)
    env.bucket
  have hpad : framePad s (rawWireLen ([] : Bytes).length piece.length) (-1)
      env.bucket = suggestStreamPad
        (rawWireLen ([] : Bytes).length piece.length)
        (toInt64 s.frmOut.toNat) env.bucket := if_pos (by omega)
  generalize suggestStreamPad (rawWireLen ([] : Bytes).length piece.length)
    (toInt64 s.frmOut.toNat) env.bucket = pad
    at hmin hmax hphase hnonneg hpadMax hpad
  obtain ⟨s', w, fr, hlocked, hclosed, hhanded, hfrmOut, hsealed, hwire⟩ :=
    @sendFrameLocked_sends P frameTCPData [] piece (-1) env s rfl (by simp)
      hserved pad hpad hnonneg hpadMax (by simp only [maxFrameSize]; omega)
      (fun w hw => htakes w (by omega))
  refine ⟨s', ⟨frameTCPData, [], piece, w⟩, hlocked, hclosed, hhanded, hfrmOut,
    rfl, ?_⟩
  intro n hcount
  refine Enveloped.singleton rfl rfl hpiece ⟨s.send, fr, hsealed⟩ ⟨?_, ?_, ?_⟩
  · dsimp only
    omega
  · dsimp only
    omega
  · intro hn
    rw [hcount] at hphase
    have := hphase (toInt64_frames hn)
    dsimp only
    omega

/-- Between two states of an open stream the payload is handed over within the
envelope, in no frame at all if it is empty. -/
def HandsEnveloped (P : Primitives) (s : SecureStream) (payload : Bytes)
    (last : SecureStream) : Prop :=
  last.closed = false ∧ ∀ n, s.frmOut = UInt64.ofNat n →
    ∃ frames, last.handed = s.handed ++ frames ∧ Enveloped P n payload frames ∧
      (payload = [] → frames = [])

theorem HandsEnveloped.nil
    {P : Primitives} {s : SecureStream} (hopen : s.closed = false) :
    HandsEnveloped P s [] s :=
  ⟨hopen, fun _ _ => ⟨[], by simp, ⟨rfl, by simp⟩, fun _ => rfl⟩⟩

theorem HandsEnveloped.cons
    {P : Primitives} {s s' last : SecureStream} {e : SentFrame} {rest : Bytes}
    (hhanded : s'.handed = s.handed ++ [e]) (hcount : s'.frmOut = s.frmOut + 1)
    (hne : e.payload ≠ [])
    (hfirst : ∀ n, s.frmOut = UInt64.ofNat n → Enveloped P n e.payload [e])
    (hrest : HandsEnveloped P s' rest last) :
    HandsEnveloped P s (e.payload ++ rest) last := by
  refine ⟨hrest.1, ?_⟩
  intro n hn
  have hnext : s'.frmOut = UInt64.ofNat (n + 1) := by
    rw [hcount, hn]
    simp
  obtain ⟨frames, hlater, henveloped, hframes⟩ := hrest.2 (n + 1) hnext
  refine ⟨e :: frames, ?_, (hfirst n hn).cons hne henveloped hframes, ?_⟩
  · rw [hlater, hhanded, List.append_assoc, List.singleton_append]
  · intro hnil
    exact absurd (List.append_eq_nil_iff.mp hnil).1 hne

theorem sendChunks_enveloped
    {P : Primitives} {payload : Bytes} {supply : ℕ → StreamEnv}
    {s : SecureStream} (hopen : s.closed = false)
    (htakes : ∀ k, TakesEnvelope (supply k))
    (hserved : ∀ k m, (supply k).pad m ≠ none) :
    ∃ last supply', (sendChunks P payload.length payload).exec supply s =
      (.ok (), last, supply') ∧ HandsEnveloped P s payload last := by
  refine @sendChunks_exec P
    (fun env => TakesEnvelope env ∧ ∀ m, env.pad m ≠ none) (HandsEnveloped P)
    (fun _ => HandsEnveloped.nil) ?_ _ payload supply s le_rfl
    (fun k => ⟨htakes k, hserved k⟩) hopen
  rintro env s payload chunk ⟨htakes, hdraw⟩ hopen hne hpiece
  obtain ⟨s', e, hlocked, hclosed, hhanded, hcount, hpayload, hfirst⟩ :=
    @sendFrameLocked_enveloped P env s _ htakes hdraw hpiece
  refine ⟨s', hlocked, hclosed.trans hopen, ?_⟩
  intro last hrest
  have hwhole := hrest.cons hhanded hcount (by rwa [hpayload]) hfirst
  rwa [hpayload, List.take_append_drop] at hwhole

/-- On an open stream over a working transport `SendTCPData` succeeds, and every
message it sends is within the envelope of the buckets. -/
theorem tcp_wire_envelope (P : Primitives) :
    (∀ (keys : SessionKeys) (side : Side) (tasks : List StreamTask)
        (schedule : List (ℕ × StreamEnv)),
      (streamRun P keys side tasks schedule).closed = false →
        (streamRun P keys side tasks schedule).frmOut =
          UInt64.ofNat (streamRun P keys side tasks schedule).handed.length) ∧
    ∀ (payload : Bytes) (s : SecureStream) (n : ℕ) (supply : ℕ → StreamEnv),
      s.closed = false → s.frmOut = UInt64.ofNat n →
      (∀ k, TakesEnvelope (supply k)) → (∀ k m, (supply k).pad m ≠ none) →
      ∃ s' supply' frames,
        (sendTCPData P payload).exec supply s = (.ok (), s', supply') ∧
        s'.closed = false ∧ s'.handed = s.handed ++ frames ∧
        (frames.map SentFrame.payload).flatten = payload ∧
        ∀ (i : ℕ) (e : SentFrame), frames[i]? = some e →
          e.type = frameTCPData ∧ e.metaBytes = [] ∧
          e.payload.length ≤ 12288 ∧ (e.payload = [] → payload = []) ∧
          (∃ f fr, e.SealedIn P f fr) ∧ e.wire.length ≤ 16384 ∧
          256 ≤ e.wire.length ∧ (n + i < 16 → 1500 ≤ e.wire.length) := by
  refine ⟨streamRun_frmOut P, ?_⟩
  intro payload s n supply hopen hcount htakes hserved
  unfold sendTCPData
  by_cases hshort : payload.length ≤ reshapeThreshold
  · have hpiece : payload.length ≤ reshapeMax := hshort.trans (by decide)
    obtain ⟨s', e, hlocked, hclosed, hhanded, _, hpayload, henveloped⟩ :=
      @sendFrameLocked_enveloped P (supply 1) s payload (htakes 1) (hserved 1)
        hpiece
    rw [hpayload] at henveloped
    rw [if_pos hshort, sendFrame_exec hopen hlocked]
    exact ⟨s', _, [e], rfl, hclosed.trans hopen, hhanded,
      (henveloped n hcount).payload_eq, (henveloped n hcount).frame⟩
  · obtain ⟨s', supply', hexec, hstill, hhands⟩ :=
      @sendChunks_enveloped P payload supply s hopen htakes hserved
    obtain ⟨frames, hhanded, henveloped, _⟩ := hhands n hcount
    rw [if_neg hshort, hexec]
    exact ⟨s', supply', frames, rfl, hstill, hhanded, henveloped.payload_eq,
      henveloped.frame⟩

theorem tcp_wire_envelope_one_byte :
    ∃ (s' : SecureStream) (supply' : ℕ → StreamEnv) (frames : List SentFrame),
      (sendTCPData Transparent.suite [7]).exec
          (fun _ => Transparent.streamEnv (.ok []))
          (newClientSecureStream Transparent.keys) = (.ok (), s', supply') ∧
        (frames.map SentFrame.payload).flatten = [7] ∧
        ∀ e : SentFrame, frames[0]? = some e → 1500 ≤ e.wire.length := by
  obtain ⟨s', supply', frames, hexec, _, _, hpayload, hframe⟩ :=
    (tcp_wire_envelope Transparent.suite).2 [7]
      (newClientSecureStream Transparent.keys) 0
      (fun _ => Transparent.streamEnv (.ok [])) rfl rfl
      (fun _ _ _ => rfl) (by simp [Transparent.streamEnv])
  refine ⟨s', supply', frames, hexec, hpayload, ?_⟩
  intro e he
  obtain ⟨_, _, _, _, _, _, _, hmin⟩ := hframe 0 e he
  exact hmin (by decide)

end SingEwp
