import SingEwp.Runtime

/-!
# Reads that may be out of range

Go panics where an index or a slice expression leaves its operand.  A parser
written over `Outcome` with the operations below shows every such place, and
the rewriting lemmas turn each of them into the total operation, at the price of
the bound that the parser must have checked before.  A parser rewritten to the
end is `Outcome.ofExcept` of a total one, which does not panic.
-/

namespace SingEwp
namespace Outcome

variable {ε α β : Type}

protected def bind : Outcome ε α → (α → Outcome ε β) → Outcome ε β
  | .ok a, k => k a
  | .error e, _ => .error e
  | .panic, _ => .panic

instance : Monad (Outcome ε) where
  pure := .ok
  bind := Outcome.bind

/-- A total call seen as one that might have panicked. -/
def ofExcept : Except ε α → Outcome ε α
  | .ok a => .ok a
  | .error e => .error e

/-- An error passed on under another name. -/
def mapError {ε' : Type} (f : ε → ε') : Outcome ε α → Outcome ε' α
  | .ok a => .ok a
  | .error e => .error (f e)
  | .panic => .panic

/-- `if c { return e }`. -/
def rejectIf (c : Prop) [Decidable c] (e : ε) : Outcome ε Unit :=
  if c then .error e else .ok ()

/-- `b[lo:hi]`. -/
def sliceAt (b : Bytes) (lo hi : ℕ) : Outcome ε Bytes :=
  if lo ≤ hi ∧ hi ≤ b.length then .ok (slice b lo hi) else .panic

/-- `b[i]`. -/
def byteAt (b : Bytes) (i : ℕ) : Outcome ε UInt8 :=
  if i < b.length then .ok (b.getD i 0) else .panic

/-! ## Rewriting a checked parser -/

@[simp] theorem ok_bind (a : α) (k : α → Outcome ε β) :
    (Outcome.ok a >>= k) = k a := rfl

@[simp] theorem error_bind (e : ε) (k : α → Outcome ε β) :
    (Outcome.error e >>= k) = .error e := rfl

theorem rejectIf_bind
    (c : Prop) [Decidable c] (e : ε) (k : Unit → Outcome ε β) :
    (rejectIf c e >>= k) = if c then .error e else k () := by
  by_cases hc : c
  · simp [rejectIf, hc]
  · simp [rejectIf, hc]

theorem sliceAt_bind
    {b : Bytes} {lo hi : ℕ} (hle : lo ≤ hi) (hhi : hi ≤ b.length)
    (k : Bytes → Outcome ε β) :
    (sliceAt b lo hi >>= k) = k (slice b lo hi) := by
  rw [sliceAt, if_pos ⟨hle, hhi⟩, ok_bind]

theorem byteAt_bind
    {b : Bytes} {i : ℕ} (hi : i < b.length) (k : UInt8 → Outcome ε β) :
    (byteAt b i >>= k) = k (b.getD i 0) := by
  rw [byteAt, if_pos hi, ok_bind]

/-! ## Total calls do not panic -/

theorem ofExcept_ne_panic (x : Except ε α) : ofExcept x ≠ .panic := by
  cases x with
  | ok a => simp [ofExcept]
  | error e => simp [ofExcept]

theorem ite_ofExcept
    {c : Prop} [Decidable c] {out out' : Outcome ε α} {ref ref' : Except ε α}
    (hthen : c → out = ofExcept ref) (helse : ¬c → out' = ofExcept ref') :
    (if c then out else out') = ofExcept (if c then ref else ref') := by
  by_cases hc : c
  · simpa only [if_pos hc] using hthen hc
  · simpa only [if_neg hc] using helse hc

end Outcome
end SingEwp
