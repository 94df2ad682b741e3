import SingEwp.ByteString

/-!
# Slices, readers and random reads

The parts of the Go runtime and standard library that the model relies on:
slices that may be nil, calls that may panic, `io.ReadFull` and `io.CopyN` on an
in-memory reader, reads from a random source that may fail, and the conversion
to signed 64-bit integers.
-/

namespace SingEwp

inductive IoError where
  | eof
  | unexpectedEOF
  | closedPipe
  deriving DecidableEq, Repr

/-- How a call ends: with a value, with an error value, or in a panic. -/
inductive Outcome (ε α : Type) where
  | ok (value : α)
  | error (err : ε)
  | panic
  deriving DecidableEq, Repr

/-- A slice value; `none` is the nil slice. -/
abbrev Slice := Option Bytes

def Slice.bytes (s : Slice) : Bytes := s.getD []

/-- `append([]byte(nil), src...)`: the nil slice stays nil when nothing is
appended to it. -/
def appendToNil (src : Bytes) : Slice :=
  if src = [] then none else some src

@[simp] theorem appendToNil_bytes (src : Bytes) :
    (appendToNil src).bytes = src := by
  unfold appendToNil Slice.bytes
  by_cases hsrc : src = []
  · simp [hsrc]
  · simp [hsrc]

theorem appendToNil_eq_none_iff (src : Bytes) :
    appendToNil src = none ↔ src = [] := by
  simp [appendToNil]

/-- The largest capacity `make` may ask for; a larger request panics.  Up to it
the runtime is assumed to obtain every buffer, as if memory had no other limit. -/
def maxAlloc : ℕ := 2 ^ 48

def toInt64 (x : ℤ) : ℤ := Int.bmod x (2 ^ 64)

theorem toInt64_of_range {x : ℤ} (hlow : -2 ^ 63 ≤ x) (hhigh : x < 2 ^ 63) :
    toInt64 x = x := by
  unfold toInt64
  rw [Int.bmod_eq_of_le] <;> omega

theorem toInt64_lt (x : ℤ) : toInt64 x < 2 ^ 63 := by
  have hlt := @Int.bmod_lt x (2 ^ 64) (by norm_num)
  unfold toInt64
  omega

/-- One `io.ReadFull` from the random source: `none` when the source fails. -/
abbrev RandRead := (n : ℕ) → Option (FixedBytes n)

/-- `io.ReadFull` on a reader holding `r`: what was read and what is left. -/
def readFull (n : ℕ) (r : Bytes) : Except IoError Bytes × Bytes :=
  if n ≤ r.length then (.ok (r.take n), r.drop n)
  else (.error (if r = [] then .eof else .unexpectedEOF), [])

/-- `io.CopyN(io.Discard, r, n)`. -/
def discardN (n : ℕ) (r : Bytes) : Except IoError Unit × Bytes :=
  if n ≤ r.length then (.ok (), r.drop n) else (.error .eof, [])

theorem readFull_of_le {n : ℕ} {r : Bytes} (hle : n ≤ r.length) :
    readFull n r = (.ok (r.take n), r.drop n) :=
  if_pos hle

theorem discardN_of_le {n : ℕ} {r : Bytes} (hle : n ≤ r.length) :
    discardN n r = (.ok (), r.drop n) :=
  if_pos hle

/-- Nothing is discarded at zero, so a guard against it changes nothing. -/
theorem discardN_guard (n : ℕ) (r : Bytes) :
    (if 0 < n then discardN n r else (.ok (), r)) = discardN n r := by
  by_cases hpos : 0 < n
  · rw [if_pos hpos]
  · have hzero : n = 0 := by omega
    simp [hzero, discardN]

theorem readFull_append {n : ℕ} {b : Bytes} (hlen : b.length = n) (rest : Bytes) :
    readFull n (b ++ rest) = (.ok b, rest) := by
  simp [readFull, ← hlen]

theorem readFull_ok {n : ℕ} {r b rest : Bytes}
    (hread : readFull n r = (.ok b, rest)) :
    b.length = n ∧ r = b ++ rest := by
  unfold readFull at hread
  by_cases hle : n ≤ r.length
  · rw [if_pos hle] at hread
    simp only [Prod.mk.injEq, Except.ok.injEq] at hread
    rw [← hread.1, ← hread.2, List.take_append_drop, List.length_take_of_le hle]
    exact ⟨rfl, rfl⟩
  · rw [if_neg hle] at hread
    simp at hread

theorem discardN_append {n : ℕ} {b : Bytes} (hlen : b.length = n) (rest : Bytes) :
    discardN n (b ++ rest) = (.ok (), rest) := by
  simp [discardN, ← hlen]

theorem discardN_ok {n : ℕ} {r rest : Bytes}
    (hread : discardN n r = (.ok (), rest)) :
    ∃ b, b.length = n ∧ r = b ++ rest := by
  unfold discardN at hread
  by_cases hle : n ≤ r.length
  · rw [if_pos hle] at hread
    rw [← (Prod.mk.inj hread).2]
    exact ⟨r.take n, List.length_take_of_le hle, (List.take_append_drop n r).symm⟩
  · rw [if_neg hle] at hread
    simp at hread

end SingEwp
