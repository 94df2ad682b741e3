import SingEwp.CoverTraffic
import SingEwp.WireSizes

/-!
# What a size gives away

An observer of the encrypted transport sees message sizes only.  The policy pads
within one of two ladders, so two frames look alike if no phase and no draw ever
gives them different sizes.  `sizeCell` names the cells of this relation: four
buckets up to 1500 bytes, the top bucket, and the multiples of 1024 beyond the
ladder.  Between 1501 and 12288 bytes there are none.  There the next bucket of
the handshake ladder is out of reach of the largest pad, and a frame that is
bumped up in the first phase goes out at its own length plus `MaxFramePad`.
-/

namespace SingEwp

/-- No phase and no draw tells the two lengths apart. -/
def SizeAlike (a b : ℤ) : Prop :=
  ∀ phaseFrameIndex draw,
    a + suggestStreamPad a phaseFrameIndex draw =
      b + suggestStreamPad b phaseFrameIndex draw

/-- The cell of an unpadded length; a length without one is alike to itself
only. -/
def sizeCell (rawWireLen : ℤ) : Option ℤ :=
  if rawWireLen ≤ 256 then some 256
  else if rawWireLen ≤ 512 then some 512
  else if rawWireLen ≤ 1024 then some 1024
  else if rawWireLen ≤ 1500 then some 1500
  else if rawWireLen ≤ 12288 then none
  else if rawWireLen ≤ 16384 then some 16384
  else if rawWireLen ≤ 64512 then some ((rawWireLen + 1023) / 1024 * 1024)
  else none

/-! ## One ladder -/

namespace IsLadder

variable {ladder : List ℤ} {rawWireLen : ℤ}

/-- The place of a length in its ladder, and the size it gets there. -/
theorem wire_at
    (hladder : IsLadder ladder) (draw : RandRead) (hraw : rawWireLen ≤ 16384) :
    ∃ idx < ladder.length, rawWireLen ≤ ladder.getD idx 0 ∧
      (0 < idx → ladder.getD (idx - 1) 0 < rawWireLen) ∧
      rawWireLen + padToBucket rawWireLen ladder draw =
        min (if idx + 1 < ladder.length ∧
            secureRandIntn 10000 draw < bucketUpProbBP then
          ladder.getD (idx + 1) 0 else ladder.getD idx 0)
          (rawWireLen + maxFramePad) := by
  obtain ⟨idx, hidx, hfits, hbelow, htarget⟩ :=
    targetBucket_at draw (hladder.exists_fits hraw)
  refine ⟨idx, hidx, hfits, hbelow, ?_⟩
  rw [hladder.wire_eq_min draw hraw, htarget]

/-- Out of the ladder and of what a frame can be padded to. -/
theorem wire_unpadded
    (hladder : IsLadder ladder) (draw : RandRead) (hraw : 64512 < rawWireLen) :
    rawWireLen + padToBucket rawWireLen ladder draw = rawWireLen := by
  have hnone : ladder.findIdx? (fun b => rawWireLen ≤ b) = none := by
    rw [List.findIdx?_eq_none_iff]
    intro b hb
    have := hladder.le_top b hb
    simp only [decide_eq_false_iff_not]
    omega
  unfold padToBucket
  rw [hnone]
  dsimp only
  rw [Int.tdiv_eq_ediv_of_nonneg (by omega), if_pos, add_zero]
  simp only [maxWire]
  omega

/-- A short frame reaches the bucket it aims at. -/
theorem targetBucket_le_of_short
    (hladder : IsLadder ladder) (draw : RandRead) (hraw : rawWireLen ≤ 1500) :
    targetBucket rawWireLen ladder draw ≤ 4096 := by
  obtain ⟨idx, hidx, _, hsmaller, htarget⟩ :=
    targetBucket_eq draw (hladder.exists_fits (hraw.trans (by norm_num)))
  rcases hladder with rfl | rfl
  · have hlow : idx ≤ 3 := by
      by_contra hlt
      have hbelow := hsmaller 3 (not_le.mp hlt)
      simp [steadyBuckets] at hbelow
      omega
    rcases htarget with htarget | ⟨_, htarget⟩
    · rw [htarget]
      interval_cases idx <;> simp [steadyBuckets]
    · rw [htarget]
      interval_cases idx <;> simp [steadyBuckets]
  · have hlow : idx = 0 := by
      by_contra hne
      have hbelow := hsmaller 0 (Nat.pos_of_ne_zero hne)
      simp [handshakeBuckets] at hbelow
      omega
    subst hlow
    rcases htarget with htarget | ⟨_, htarget⟩
    · rw [htarget]
      simp [handshakeBuckets]
    · rw [htarget]
      simp [handshakeBuckets]

theorem targetBucket_reached
    (hladder : IsLadder ladder) (draw : RandRead) (hnonneg : 0 ≤ rawWireLen)
    (hraw : rawWireLen ≤ 1500 ∨ 12288 ≤ rawWireLen ∧ rawWireLen ≤ 16384) :
    targetBucket rawWireLen ladder draw ≤ rawWireLen + maxFramePad := by
  simp only [maxFramePad]
  rcases hraw with hshort | ⟨hlow, hhigh⟩
  · have htarget := hladder.targetBucket_le_of_short draw hshort
    omega
  · have hmem := (@targetBucket_fits _ _ draw hladder.sorted
      (hladder.exists_fits hhigh)).1
    have htop := hladder.le_top _ hmem
    omega

/-- Lengths with the same buckets above them get the same size if both reach
it. -/
theorem wire_congr
    {a b : ℤ} (hladder : IsLadder ladder) (draw : RandRead) (ha : a ≤ 16384)
    (hb : b ≤ 16384) (hsame : ∀ bucket ∈ ladder, a ≤ bucket ↔ b ≤ bucket)
    (hreach : targetBucket a ladder draw ≤ a + maxFramePad)
    (hreach' : targetBucket b ladder draw ≤ b + maxFramePad) :
    a + padToBucket a ladder draw = b + padToBucket b ladder draw := by
  have hfind : ∀ buckets : List ℤ, (∀ bucket ∈ buckets, a ≤ bucket ↔ b ≤ bucket) →
      buckets.findIdx? (fun bucket => a ≤ bucket) =
        buckets.findIdx? (fun bucket => b ≤ bucket) := by
    intro buckets
    induction buckets with
    | nil => exact fun _ => rfl
    | cons bucket buckets ih =>
        intro hall
        obtain ⟨hfirst, hrest⟩ := List.forall_mem_cons.mp hall
        simp only [List.findIdx?_cons, hfirst, ih hrest]
  rw [hladder.wire_eq_min draw ha, hladder.wire_eq_min draw hb,
    min_eq_left hreach, min_eq_left hreach']
  exact targetBucket_congr draw (hladder.exists_fits hb) (hfind ladder hsame)

end IsLadder

/-! ## The cells -/

theorem sizeCell_eq_some
    {rawWireLen cell : ℤ} (hcell : sizeCell rawWireLen = some cell) :
    (rawWireLen ≤ 256 ∧ cell = 256) ∨
    (256 < rawWireLen ∧ rawWireLen ≤ 512 ∧ cell = 512) ∨
    (512 < rawWireLen ∧ rawWireLen ≤ 1024 ∧ cell = 1024) ∨
    (1024 < rawWireLen ∧ rawWireLen ≤ 1500 ∧ cell = 1500) ∨
    (12288 < rawWireLen ∧ rawWireLen ≤ 16384 ∧ cell = 16384) ∨
    (16384 < rawWireLen ∧ rawWireLen ≤ 64512 ∧
      cell = (rawWireLen + 1023) / 1024 * 1024) := by
  unfold sizeCell at hcell
  split_ifs at hcell <;> simp only [Option.some.injEq] at hcell <;> omega

theorem sizeCell_top
    {rawWireLen : ℤ} (hlow : 12288 < rawWireLen) (hhigh : rawWireLen ≤ 16384) :
    sizeCell rawWireLen = some 16384 := by
  unfold sizeCell
  split_ifs <;> first | rfl | omega

theorem sizeCell_beyond
    {rawWireLen : ℤ} (hlow : 16384 < rawWireLen) (hhigh : rawWireLen ≤ 64512) :
    sizeCell rawWireLen = some ((rawWireLen + 1023) / 1024 * 1024) := by
  unfold sizeCell
  split_ifs <;> first | rfl | omega

theorem SizeAlike.of_ladders
    {a b : ℤ} (halike : ∀ ladder, IsLadder ladder → ∀ draw,
      a + padToBucket a ladder draw = b + padToBucket b ladder draw) :
    SizeAlike a b := by
  intro phaseFrameIndex draw
  unfold suggestStreamPad
  split
  · exact halike _ (.inr rfl) draw
  · exact halike _ (.inl rfl) draw

/-- Lengths of one cell look alike. -/
theorem SizeAlike.of_cell
    {a b cell : ℤ} (ha : 0 ≤ a) (hb : 0 ≤ b) (hcell : sizeCell a = some cell)
    (hcell' : sizeCell b = some cell) : SizeAlike a b := by
  apply SizeAlike.of_ladders
  intro ladder hladder draw
  have hcases := sizeCell_eq_some hcell
  have hcases' := sizeCell_eq_some hcell'
  by_cases hbeyond : 16384 < a
  · rw [hladder.wire_beyond draw hbeyond (by omega),
      hladder.wire_beyond draw (by omega) (by omega)]
    omega
  · apply hladder.wire_congr draw (by omega) (by omega)
    · rcases hladder with rfl | rfl
      · simp only [steadyBuckets, List.mem_cons, List.not_mem_nil, or_false,
          forall_eq_or_imp, forall_eq]
        omega
      · simp only [handshakeBuckets, List.mem_cons, List.not_mem_nil, or_false,
          forall_eq_or_imp, forall_eq]
        omega
    · exact hladder.targetBucket_reached draw ha (by omega)
    · exact hladder.targetBucket_reached draw hb (by omega)

/-! ## Telling lengths apart -/

/-- The first phase and a frame that is bumped up: beyond the first bucket the
size gives the length away. -/
theorem handshake_bumped
    {rawWireLen : ℤ} {draw : RandRead} (hnonneg : 0 ≤ rawWireLen)
    (hup : secureRandIntn 10000 draw < bucketUpProbBP) :
    rawWireLen + padToBucket rawWireLen handshakeBuckets draw =
      if rawWireLen ≤ 1500 then 4096
      else if rawWireLen ≤ 12288 then rawWireLen + 4096
      else if rawWireLen ≤ 16384 then 16384
      else if rawWireLen ≤ 64512 then (rawWireLen + 1023) / 1024 * 1024
      else rawWireLen := by
  have hladder : IsLadder handshakeBuckets := .inr rfl
  by_cases hin : rawWireLen ≤ 16384
  · obtain ⟨idx, hidx, hfits, hbelow, hwire⟩ := hladder.wire_at draw hin
    rw [hwire]
    simp only [handshakeBuckets, List.length_cons, List.length_nil] at hidx
    interval_cases idx <;>
      simp [handshakeBuckets, hup] at hfits hbelow ⊢ <;> split_ifs <;> omega
  · by_cases hpadded : rawWireLen ≤ 64512
    · rw [hladder.wire_beyond draw (by omega) hpadded]
      split_ifs <;> omega
    · rw [hladder.wire_unpadded draw (by omega)]
      split_ifs <;> omega

/-- The second phase and a short frame in its smallest bucket. -/
theorem steady_settled
    {rawWireLen : ℤ} {draw : RandRead} (hnonneg : 0 ≤ rawWireLen)
    (hraw : rawWireLen ≤ 16384)
    (hup : ¬secureRandIntn 10000 draw < bucketUpProbBP) :
    (rawWireLen ≤ 1500 → sizeCell rawWireLen =
      some (rawWireLen + padToBucket rawWireLen steadyBuckets draw)) ∧
    (12288 < rawWireLen ↔
      rawWireLen + padToBucket rawWireLen steadyBuckets draw = 16384) := by
  obtain ⟨idx, hidx, hfits, hbelow, hwire⟩ :=
    IsLadder.wire_at (.inl rfl) draw hraw
  rw [if_neg (fun hboth => hup hboth.2)] at hwire
  rw [hwire]
  unfold sizeCell
  simp only [steadyBuckets, List.length_cons, List.length_nil] at hidx
  interval_cases idx <;> simp [steadyBuckets] at hfits hbelow ⊢ <;>
    split_ifs <;> simp <;> omega

theorem sizeAlike_iff
    {a b : ℤ} (ha : 0 ≤ a) (hb : 0 ≤ b) :
    SizeAlike a b ↔
      a = b ∨ ∃ cell, sizeCell a = some cell ∧ sizeCell b = some cell := by
  constructor
  · intro halike
    have hdraws := @exists_secureRandIntn_iff 10000 (by decide)
    obtain ⟨low, hlow⟩ := (hdraws 0).mpr (by decide)
    obtain ⟨high, hhigh⟩ := (hdraws 9999).mpr (by decide)
    have hup : secureRandIntn 10000 low < bucketUpProbBP := by
      rw [hlow]
      decide
    have hdown : ¬secureRandIntn 10000 high < bucketUpProbBP := by
      rw [hhigh]
      decide
    have hbumped := halike 0 low
    have hsettled := halike 16 high
    unfold suggestStreamPad at hbumped hsettled
    rw [if_pos (by decide), handshake_bumped ha hup, handshake_bumped hb hup]
      at hbumped
    rw [if_neg (by decide)] at hsettled
    -- bumped up, only the short frames, the top bucket and the frames beyond the
    -- ladder do not show their lengths
    have hregion : a = b ∨ (a ≤ 1500 ∧ b ≤ 1500) ∨
        ((12288 ≤ a ∧ a ≤ 16384) ∧ 12288 ≤ b ∧ b ≤ 16384) ∨
        ((16384 < a ∧ a ≤ 64512) ∧ (16384 < b ∧ b ≤ 64512) ∧
          (a + 1023) / 1024 * 1024 = (b + 1023) / 1024 * 1024) := by
      split_ifs at hbumped <;> omega
    rcases hregion with heq | ⟨hsa, hsb⟩ | ⟨⟨hla, hta⟩, hlb, htb⟩ |
      ⟨⟨hla, hta⟩, ⟨hlb, htb⟩, hceil⟩
    · exact Or.inl heq
    · obtain ⟨hcell, _⟩ := steady_settled ha (by omega) hdown
      obtain ⟨hcell', _⟩ := steady_settled hb (by omega) hdown
      exact Or.inr ⟨_, hcell hsa, by rw [hcell' hsb, hsettled]⟩
    · obtain ⟨_, htop⟩ := steady_settled ha hta hdown
      obtain ⟨_, htop'⟩ := steady_settled hb htb hdown
      rw [hsettled, ← htop'] at htop
      by_cases heq : a = b
      · exact Or.inl heq
      · exact Or.inr ⟨16384, sizeCell_top (by omega) hta,
          sizeCell_top (by omega) htb⟩
    · exact Or.inr ⟨_, sizeCell_beyond hla hta, by
        rw [sizeCell_beyond hlb htb, hceil]⟩
  · rintro (rfl | ⟨cell, hcell, hcell'⟩)
    · exact fun _ _ => rfl
    · exact SizeAlike.of_cell ha hb hcell hcell'

/-- The sizes of two frames agree under every draw and in both phases exactly if
the frames are of the same length or their lengths share a cell.  In the
handshake phase a length without a cell up to 12288 shows through: bumped up, it
goes out with the largest pad. -/
theorem padding_hides_cells_iff (metaLen payloadLen metaLen' payloadLen' : ℕ) :
    ((∀ phaseFrameIndex draw,
      rawWireLen metaLen payloadLen +
          suggestStreamPad (rawWireLen metaLen payloadLen) phaseFrameIndex draw =
        rawWireLen metaLen' payloadLen' +
          suggestStreamPad (rawWireLen metaLen' payloadLen') phaseFrameIndex
            draw) ↔
      rawWireLen metaLen payloadLen = rawWireLen metaLen' payloadLen' ∨
        ∃ cell, sizeCell (rawWireLen metaLen payloadLen) = some cell ∧
          sizeCell (rawWireLen metaLen' payloadLen') = some cell) ∧
    ∀ phaseFrameIndex draw, phaseFrameIndex < handshakePhaseFrames →
      secureRandIntn 10000 draw < bucketUpProbBP →
      1501 ≤ rawWireLen metaLen payloadLen →
      rawWireLen metaLen payloadLen ≤ 12288 →
      suggestStreamPad (rawWireLen metaLen payloadLen) phaseFrameIndex draw =
        maxFramePad := by
  constructor
  · have hiff := sizeAlike_iff (Int.natCast_nonneg (rawWireLen metaLen payloadLen))
      (Int.natCast_nonneg (rawWireLen metaLen' payloadLen'))
    rwa [Nat.cast_inj] at hiff
  · intro phaseFrameIndex draw hphase hup hlow hhigh
    have hbumped := handshake_bumped
      (Int.natCast_nonneg (rawWireLen metaLen payloadLen)) hup
    rw [if_neg (by omega), if_pos (by omega)] at hbumped
    rw [suggestStreamPad, if_pos hphase]
    simp only [maxFramePad]
    omega

/-- A first frame of 1600 payload bytes, bumped up. -/
theorem padding_hides_cells_uncovered :
    suggestStreamPad (rawWireLen 0 1600) 0 Transparent.framerEnv.bucket =
      maxFramePad :=
  (padding_hides_cells_iff 0 1600 0 1600).2 0 _ (by decide) (by decide)
    (by decide) (by decide)

end SingEwp
