import Mathlib.Data.List.Basic
import Mathlib.Tactic

/-!
# Byte strings, fixed-width arrays and big-endian numerals

The wire formats of this development are concatenations of fixed-width blocks,
big-endian numerals and variable-length tails.  This file supplies the small
vocabulary they share: byte strings, arrays whose length is part of the type,
slices by offset, and the fixed-width big-endian codec with its two inverse
laws.  Nothing here mentions a particular protocol.
-/

namespace SingEwp

abbrev Bytes := List UInt8

/-- A byte array whose length is part of its type. -/
abbrev FixedBytes (n : ℕ) := { b : Bytes // b.length = n }

/-- A zeroed array overwritten from the front by `src`: shorter sources leave
zeros behind and longer ones are cut. -/
def FixedBytes.copyFrom (n : ℕ) (src : Bytes) : FixedBytes n :=
  ⟨(src ++ List.replicate n 0).take n, by simp⟩

/-- The half-open slice `b[lo:hi]`. -/
def slice (b : Bytes) (lo hi : ℕ) : Bytes :=
  (b.take hi).drop lo

/-- The `width` low-order bytes of `value`, most significant first. -/
def putBE : ℕ → ℕ → Bytes
  | 0, _ => []
  | width + 1, value => putBE width (value / 256) ++ [UInt8.ofNat value]

/-- The number denoted by a big-endian byte string. -/
def getBE (b : Bytes) : ℕ :=
  b.foldl (fun acc byte => acc * 256 + byte.toNat) 0

/-! ## Arrays -/

theorem FixedBytes.copyFrom_val_of_length
    {n : ℕ} {src : Bytes} (hlen : src.length = n) :
    (FixedBytes.copyFrom n src).val = src := by
  simp [FixedBytes.copyFrom, ← hlen]

@[simp] theorem FixedBytes.copyFrom_val {n : ℕ} (b : FixedBytes n) :
    FixedBytes.copyFrom n b.val = b :=
  Subtype.ext (FixedBytes.copyFrom_val_of_length b.property)

theorem FixedBytes.length_val {n : ℕ} (b : FixedBytes n) : b.val.length = n :=
  b.property

/-! ## Slices -/

@[simp] theorem slice_length (b : Bytes) (lo hi : ℕ) :
    (slice b lo hi).length = min hi b.length - lo := by
  simp [slice]

theorem slice_length_of_le
    {b : Bytes} {lo hi : ℕ} (hhi : hi ≤ b.length) :
    (slice b lo hi).length = hi - lo := by
  rw [slice_length, min_eq_left hhi]

theorem FixedBytes.copyFrom_slice_val
    {n : ℕ} {b : Bytes} {lo hi : ℕ} (hhi : hi ≤ b.length) (hn : hi - lo = n) :
    (FixedBytes.copyFrom n (slice b lo hi)).val = slice b lo hi :=
  FixedBytes.copyFrom_val_of_length (by rw [slice_length_of_le hhi, hn])

theorem slice_singleton {b : Bytes} {i : ℕ} (hi : i < b.length) :
    slice b i (i + 1) = [b.getD i 0] := by
  unfold slice
  rw [List.drop_take, List.getD_eq_getElem?_getD,
    List.getElem?_eq_getElem hi, List.drop_eq_getElem_cons hi,
    Nat.add_sub_cancel_left]
  rfl

theorem slice_append_right
    {a b : Bytes} {lo hi : ℕ} (hlo : a.length ≤ lo) :
    slice (a ++ b) lo hi = slice b (lo - a.length) (hi - a.length) := by
  unfold slice
  rw [List.take_append, List.drop_append]
  have hshort : (a.take hi).length ≤ lo := by
    simp only [List.length_take]
    omega
  rw [List.drop_eq_nil_of_le hshort, List.nil_append]
  by_cases hhi : a.length ≤ hi
  · rw [List.length_take, min_eq_right hhi]
  · have hzero : hi - a.length = 0 := by omega
    simp [hzero]

theorem slice_append_left
    {a b : Bytes} {lo hi : ℕ} (hhi : hi ≤ a.length) :
    slice (a ++ b) lo hi = slice a lo hi := by
  unfold slice
  rw [List.take_append_of_le_length hhi]

theorem slice_take {b : Bytes} {lo hi n : ℕ} (hhi : hi ≤ n) :
    slice (b.take n) lo hi = slice b lo hi := by
  unfold slice
  rw [List.take_take, min_eq_left hhi]

theorem slice_zero_length {a : Bytes} {hi : ℕ} (hlen : a.length = hi) :
    slice a 0 hi = a := by
  simp [slice, ← hlen]

theorem slice_middle
    {a b c : Bytes} {lo hi : ℕ}
    (hlo : a.length = lo) (hhi : lo + b.length = hi) :
    slice (a ++ (b ++ c)) lo hi = b := by
  rw [slice_append_right hlo.le, slice_append_left (by omega)]
  rw [hlo, Nat.sub_self]
  exact slice_zero_length (by omega)

theorem slice_append_slice
    (b : Bytes) {lo mid hi : ℕ} (hlo : lo ≤ mid) (hhi : mid ≤ hi) :
    slice b lo mid ++ slice b mid hi = slice b lo hi := by
  unfold slice
  have hsplit : b.take hi = b.take mid ++ (b.take hi).drop mid := by
    conv_lhs => rw [← List.take_append_drop mid (b.take hi)]
    rw [List.take_take, min_eq_left hhi]
  by_cases hlong : lo ≤ b.length
  · conv_rhs => rw [hsplit]
    rw [List.drop_append_of_le_length (by simp; omega)]
  · have hshort : ∀ n, (b.take n).drop lo = [] := by
      intro n
      apply List.drop_eq_nil_of_le
      simp
      omega
    have hshort' : (b.take hi).drop mid = [] := by
      apply List.drop_eq_nil_of_le
      simp
      omega
    rw [hshort, hshort, hshort', List.append_nil]

/-! ## Big-endian numerals -/

@[simp] theorem putBE_length (width value : ℕ) :
    (putBE width value).length = width := by
  induction width generalizing value with
  | zero => rfl
  | succ width ih => simp [putBE, ih]

@[simp] theorem getBE_nil : getBE [] = 0 := rfl

theorem getBE_append_singleton (b : Bytes) (byte : UInt8) :
    getBE (b ++ [byte]) = getBE b * 256 + byte.toNat := by
  simp [getBE, List.foldl_append]

theorem getBE_lt (b : Bytes) : getBE b < 256 ^ b.length := by
  induction b using List.reverseRecOn with
  | nil => simp
  | append_singleton b byte ih =>
      rw [getBE_append_singleton]
      have hbyte := byte.toNat_lt
      have hpow : 256 ^ (b ++ [byte]).length = 256 ^ b.length * 256 := by
        simp [pow_succ]
      rw [hpow]
      omega

theorem getBE_putBE (width value : ℕ) :
    getBE (putBE width value) = value % 256 ^ width := by
  induction width generalizing value with
  | zero => simp [putBE, Nat.mod_one]
  | succ width ih =>
      rw [putBE, getBE_append_singleton, ih, pow_succ]
      have hbyte : (UInt8.ofNat value).toNat = value % 256 := by simp
      rw [hbyte, Nat.mul_comm (256 ^ width) 256, Nat.mod_mul]
      ring

theorem getBE_putBE_of_lt {width value : ℕ} (hvalue : value < 256 ^ width) :
    getBE (putBE width value) = value := by
  rw [getBE_putBE, Nat.mod_eq_of_lt hvalue]

theorem putBE_getBE (b : Bytes) : putBE b.length (getBE b) = b := by
  induction b using List.reverseRecOn with
  | nil => rfl
  | append_singleton b byte ih =>
      have hbyte := byte.toNat_lt
      have hdiv : getBE (b ++ [byte]) / 256 = getBE b := by
        rw [getBE_append_singleton]
        omega
      have hlow : UInt8.ofNat (getBE (b ++ [byte])) = byte := by
        apply UInt8.toNat_inj.mp
        rw [getBE_append_singleton]
        simp
      rw [List.length_append, List.length_singleton, putBE, hdiv, ih, hlow]

theorem putBE_getBE_of_length {b : Bytes} {width : ℕ} (hlen : b.length = width) :
    putBE width (getBE b) = b := by
  rw [← hlen, putBE_getBE]

theorem putBE_inj
    {width x y : ℕ} (hx : x < 256 ^ width) (hy : y < 256 ^ width)
    (heq : putBE width x = putBE width y) : x = y := by
  rw [← getBE_putBE_of_lt hx, heq, getBE_putBE_of_lt hy]

end SingEwp
