import SingEwp.Runtime

/-!
# Byte streams that arrive in fragments

The receiving end of a connection.  The network cuts the stream into fragments
where it likes, and a reader that wants an exact number of bytes collects them
from as many fragments as it takes.  How the stream was cut never shows: the
result depends on the concatenation of the fragments alone.
-/

namespace SingEwp

variable {α : Type}

/-- The next `n` items, or `none` when the fragments do not hold as many. -/
def takeFragments : ℕ → List (List α) → Option (List α × List (List α))
  | 0, frags => some ([], frags)
  | _ + 1, [] => none
  | n + 1, frag :: rest =>
      if n + 1 ≤ frag.length then
        some (frag.take (n + 1), frag.drop (n + 1) :: rest)
      else
        (takeFragments (n + 1 - frag.length) rest).map
          (fun r => (frag ++ r.1, r.2))

theorem takeFragments_of_le
    {n : ℕ} {frags : List (List α)} (hle : n ≤ frags.flatten.length) :
    ∃ rest, takeFragments n frags = some (frags.flatten.take n, rest) ∧
      rest.flatten = frags.flatten.drop n := by
  induction frags generalizing n with
  | nil =>
      cases n with
      | zero => exact ⟨[], rfl, rfl⟩
      | succ n => simp at hle
  | cons frag frags ih =>
      cases n with
      | zero => exact ⟨frag :: frags, by simp [takeFragments], by simp⟩
      | succ n =>
          unfold takeFragments
          by_cases hfits : n + 1 ≤ frag.length
          · rw [if_pos hfits]
            refine ⟨frag.drop (n + 1) :: frags, ?_, ?_⟩
            · rw [List.flatten_cons, List.take_append_of_le_length hfits]
            · rw [List.flatten_cons, List.flatten_cons,
                List.drop_append_of_le_length hfits]
          · have hlen : frag.length ≤ n + 1 := by omega
            have hrest : n + 1 - frag.length ≤ frags.flatten.length := by
              rw [List.flatten_cons, List.length_append] at hle
              omega
            obtain ⟨rest, htake, hdrop⟩ := ih hrest
            rw [if_neg hfits, htake]
            refine ⟨rest, ?_, ?_⟩
            · rw [List.flatten_cons, List.take_append,
                List.take_of_length_le hlen]
              rfl
            · rw [hdrop, List.flatten_cons, List.drop_append,
                List.drop_of_length_le hlen, List.nil_append]

theorem takeFragments_of_lt
    {n : ℕ} {frags : List (List α)} (hlt : frags.flatten.length < n) :
    takeFragments n frags = none := by
  induction frags generalizing n with
  | nil =>
      cases n with
      | zero => simp at hlt
      | succ n => rfl
  | cons frag frags ih =>
      rw [List.flatten_cons, List.length_append] at hlt
      cases n with
      | zero => omega
      | succ n =>
          unfold takeFragments
          rw [if_neg (by omega), ih (by omega)]
          rfl

/-- The receiving end of a connection: the fragments that have arrived, and
what a read reports after them, `none` while more may come. -/
structure Conn where
  arrived : List Bytes
  ended : Option IoError := none

namespace Conn

def pending (c : Conn) : Bytes := c.arrived.flatten

/-- `io.ReadFull` on the connection; `none` while it waits for more bytes. -/
def readFull (n : ℕ) (c : Conn) : Option (Except IoError Bytes × Conn) :=
  match takeFragments n c.arrived with
  | some (b, rest) => some (.ok b, { c with arrived := rest })
  | none =>
      c.ended.map (fun e =>
        (.error (if e = .eof ∧ c.pending ≠ [] then .unexpectedEOF else e),
          { c with arrived := [] }))

def arrive (c : Conn) (frag : Bytes) : Conn :=
  { c with arrived := c.arrived ++ [frag] }

@[simp] theorem pending_arrive (c : Conn) (frag : Bytes) :
    (c.arrive frag).pending = c.pending ++ frag := by
  simp [arrive, pending]

theorem readFull_append
    {n : ℕ} {c : Conn} {b rest : Bytes} (hlen : b.length = n)
    (hpending : c.pending = b ++ rest) :
    ∃ c', c.readFull n = some (.ok b, c') ∧ c'.pending = rest ∧
      c'.ended = c.ended := by
  have hle : n ≤ c.arrived.flatten.length := by
    rw [← pending, hpending, List.length_append]
    omega
  obtain ⟨frags, htake, hdrop⟩ := takeFragments_of_le hle
  rw [← pending, hpending] at htake hdrop
  rw [List.take_left' hlen] at htake
  rw [List.drop_left' hlen] at hdrop
  exact ⟨{ c with arrived := frags }, by rw [readFull, htake], hdrop, rfl⟩

theorem readFull_ok
    {n : ℕ} {c c' : Conn} {b : Bytes}
    (hread : c.readFull n = some (.ok b, c')) :
    b.length = n ∧ c.pending = b ++ c'.pending := by
  by_cases hle : n ≤ c.arrived.flatten.length
  · obtain ⟨frags, htake, hdrop⟩ := takeFragments_of_le hle
    rw [readFull, htake] at hread
    cases hread
    constructor
    · exact List.length_take_of_le hle
    · rw [pending, pending, hdrop, List.take_append_drop]
  · rw [readFull, takeFragments_of_lt (not_le.mp hle)] at hread
    simp at hread

theorem readFull_waits
    {n : ℕ} {c : Conn} (hlive : c.ended = none)
    (hshort : c.pending.length < n) : c.readFull n = none := by
  rw [readFull, takeFragments_of_lt hshort, hlive]
  rfl

/-- A stream that ends within what is wanted ends in the error; its end is
`io.EOF` to a reader that got nothing, and unexpected to one that got part. -/
theorem readFull_ended
    {n : ℕ} {c : Conn} {e : IoError} (hended : c.ended = some e)
    (hshort : c.pending.length < n) :
    c.readFull n =
      some (.error (if e = .eof ∧ c.pending ≠ [] then .unexpectedEOF else e),
        { c with arrived := [] }) := by
  rw [readFull, takeFragments_of_lt hshort, hended]
  rfl

end Conn

end SingEwp
