import SingEwp.Protocol

/-!
# The padding policy

`padding_policy.go`.  Whatever the ladder and the draw, the chosen pad respects
the frame layer's limit and never pushes a message beyond `maxWire`; a message
that is beyond it already is not padded.
-/

namespace SingEwp

def steadyBuckets : List ℤ :=
  [256, 512, 1024, 1500, 2048, 4096, 8192, 12288, 16384]

def handshakeBuckets : List ℤ := [1500, 4096, 8192, 16384]

def handshakePhaseFrames : ℤ := 16

def bucketUpProbBP : ℤ := 4500

/-- `MaxFrameSize - 4`, the budget of `padToBucket`. -/
@[simp] abbrev maxWire : ℤ := 65536 - 4

def secureRandIntn (n : ℤ) (draw : RandRead) : ℤ :=
  if n ≤ 1 then 0
  else
    match draw 4 with
    | none => 0
    | some b => ((getBE b.val &&& 0x7fffffff : ℕ) : ℤ) % n

/-- The clamps at the end of `padToBucket`. -/
def clampPad (rawWireLen target : ℤ) : ℤ :=
  let pad := target - rawWireLen
  let pad := if pad < 0 then 0 else pad
  let pad := if (maxFramePad : ℤ) < pad then (maxFramePad : ℤ) else pad
  if maxWire < rawWireLen + pad then
    let pad := maxWire - rawWireLen
    if pad < 0 then 0 else pad
  else pad

def padToBucket (rawWireLen : ℤ) (ladder : List ℤ) (draw : RandRead) : ℤ :=
  match ladder.findIdx? (fun b => rawWireLen ≤ b) with
  | none =>
      let t := Int.tdiv (rawWireLen + 1023) 1024 * 1024
      if maxWire < t then 0 else clampPad rawWireLen t
  | some idx =>
      if idx + 1 < ladder.length ∧
          secureRandIntn 10000 draw < bucketUpProbBP then
        clampPad rawWireLen (ladder.getD (idx + 1) 0)
      else clampPad rawWireLen (ladder.getD idx 0)

def suggestStreamPad (rawWireLen phaseFrameIndex : ℤ) (draw : RandRead) : ℤ :=
  padToBucket rawWireLen
    (if phaseFrameIndex < handshakePhaseFrames then handshakeBuckets
      else steadyBuckets) draw

/-! ## Bounds -/

theorem secureRandIntn_nonneg (n : ℤ) (draw : RandRead) :
    0 ≤ secureRandIntn n draw := by
  unfold secureRandIntn
  split
  · exact le_rfl
  · split
    · exact le_rfl
    · exact Int.emod_nonneg _ (by omega)

theorem secureRandIntn_lt {n : ℤ} (hn : 0 < n) (draw : RandRead) :
    secureRandIntn n draw < n := by
  unfold secureRandIntn
  split
  · exact hn
  · split
    · exact hn
    · exact Int.emod_lt_of_pos _ hn

/-- What every choice of the policy obeys. -/
structure PadWithin (rawWireLen pad : ℤ) : Prop where
  nonneg : 0 ≤ pad
  le_max : pad ≤ maxFramePad
  fits : rawWireLen + pad ≤ maxWire ∨ pad = 0

theorem clampPad_within (rawWireLen target : ℤ) :
    PadWithin rawWireLen (clampPad rawWireLen target) := by
  unfold clampPad
  dsimp only
  generalize hfloor : (if target - rawWireLen < 0 then 0
    else target - rawWireLen) = floored
  have hfloored : 0 ≤ floored := by
    rw [← hfloor]
    split <;> omega
  generalize hcap : (if (maxFramePad : ℤ) < floored then (maxFramePad : ℤ)
    else floored) = capped
  have hcapped : 0 ≤ capped ∧ capped ≤ maxFramePad := by
    rw [← hcap]
    split <;> constructor <;> simp at * <;> omega
  split
  · split
    · exact ⟨le_rfl, by simp, Or.inr rfl⟩
    · constructor <;> simp at * <;> omega
  · exact ⟨hcapped.1, hcapped.2, Or.inl (by omega)⟩

theorem padToBucket_within
    (rawWireLen : ℤ) (ladder : List ℤ) (draw : RandRead) :
    PadWithin rawWireLen (padToBucket rawWireLen ladder draw) := by
  unfold padToBucket
  split
  · dsimp only
    split
    · exact ⟨le_rfl, by simp, Or.inr rfl⟩
    · exact clampPad_within _ _
  · split
    · exact clampPad_within _ _
    · exact clampPad_within _ _

theorem suggestStreamPad_within
    (rawWireLen phaseFrameIndex : ℤ) (draw : RandRead) :
    PadWithin rawWireLen
      (suggestStreamPad rawWireLen phaseFrameIndex draw) :=
  padToBucket_within _ _ _

end SingEwp
