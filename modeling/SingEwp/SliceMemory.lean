import Mathlib.Data.List.GetD
import Mathlib.Tactic

/-!
# Slices over shared arrays

A slice is a window on an array that other slices may share: writing through one
of them shows in all, and an append writes into the array behind the slice when
the capacity allows it.  A value computed in such memory is trustworthy only if
every item read has been written for it, whatever the array held before.

`Heap.store` is the one operation that changes an array.  Two stores side by
side are one store, and a store over a shorter one hides it; with these two rules
a buffer filled piece by piece is a buffer filled at once.  A slice that does not
share its array with the one written through keeps its contents, and so does
every slice when new memory is allocated.
-/

namespace SingEwp

variable {α : Type}

/-! ## Overwriting part of a list -/

def overwrite (xs : List α) (i : ℕ) (vals : List α) : List α :=
  xs.take i ++ (vals ++ xs.drop (i + vals.length))

section Overwrite

variable {xs vals more : List α} {i : ℕ}

theorem overwrite_nil (xs : List α) (i : ℕ) : overwrite xs i [] = xs := by
  simp [overwrite]

theorem overwrite_length (hfits : i + vals.length ≤ xs.length) :
    (overwrite xs i vals).length = xs.length := by
  simp only [overwrite, List.length_append, List.length_take, List.length_drop]
  omega

/-- Everything up to the end of what was written. -/
theorem take_overwrite_end (hi : i ≤ xs.length) :
    (overwrite xs i vals).take (i + vals.length) = xs.take i ++ vals := by
  have hlen : (xs.take i ++ vals).length = i + vals.length := by
    rw [List.length_append, List.length_take_of_le hi]
  rw [overwrite, ← List.append_assoc, List.take_left' hlen]

theorem drop_overwrite_end (hi : i ≤ xs.length) :
    (overwrite xs i vals).drop (i + vals.length) = xs.drop (i + vals.length) := by
  have hlen : (xs.take i ++ vals).length = i + vals.length := by
    rw [List.length_append, List.length_take_of_le hi]
  rw [overwrite, ← List.append_assoc, List.drop_left' hlen]

theorem take_overwrite_of_le {n : ℕ} (hi : i ≤ xs.length) (hn : n ≤ i) :
    (overwrite xs i vals).take n = xs.take n := by
  rw [overwrite, List.take_append_of_le_length
    (by rw [List.length_take_of_le hi]; exact hn), List.take_take, min_eq_left hn]

theorem overwrite_adjacent (hi : i ≤ xs.length) :
    overwrite (overwrite xs i vals) (i + vals.length) more =
      overwrite xs i (vals ++ more) := by
  have hrest : (overwrite xs i vals).drop (i + vals.length + more.length) =
      xs.drop (i + (vals ++ more).length) := by
    rw [← List.drop_drop, drop_overwrite_end hi, List.drop_drop,
      List.length_append, Nat.add_assoc]
  conv_lhs => rw [overwrite]
  rw [take_overwrite_end hi, hrest, overwrite, List.append_assoc,
    List.append_assoc]

theorem overwrite_again (hi : i ≤ xs.length) (hshorter : vals.length ≤ more.length) :
    overwrite (overwrite xs i vals) i more = overwrite xs i more := by
  have hrest : (overwrite xs i vals).drop (i + more.length) =
      xs.drop (i + more.length) := by
    have hsplit : i + more.length =
        i + vals.length + (more.length - vals.length) := by omega
    rw [hsplit, ← List.drop_drop, drop_overwrite_end hi, List.drop_drop]
  conv_lhs => rw [overwrite]
  rw [take_overwrite_of_le hi le_rfl, hrest, overwrite]

end Overwrite

/-! ## Arrays and slices -/

/-- The arrays allocated so far; an address is a position in the list. -/
structure Heap (α : Type) where
  arrays : List (List α)

structure SliceRef where
  addr : ℕ
  off : ℕ
  len : ℕ
  cap : ℕ
  deriving DecidableEq

namespace SliceRef

/-- The nil slice. -/
def nil : SliceRef := ⟨0, 0, 0, 0⟩

/-- `s[lo:hi]`. -/
def sub (s : SliceRef) (lo hi : ℕ) : SliceRef :=
  { s with off := s.off + lo, len := hi - lo, cap := s.cap - lo }

theorem sub_full (s : SliceRef) : s.sub 0 s.len = s := by
  simp [sub]

/-- `s[lo:]`. -/
def dropFirst (s : SliceRef) (lo : ℕ) : SliceRef := s.sub lo s.len

/-- Nothing can be written through `s` that shows in `t`. -/
def Apart (s t : SliceRef) : Prop := s.cap = 0 ∨ t.cap = 0 ∨ s.addr ≠ t.addr

theorem Apart.symm {s t : SliceRef} (hapart : s.Apart t) : t.Apart s := by
  rcases hapart with hs | ht | hne
  · exact .inr (.inl hs)
  · exact .inl ht
  · exact .inr (.inr hne.symm)

end SliceRef

namespace Heap

def empty : Heap α := ⟨[]⟩

def array (h : Heap α) (addr : ℕ) : List α := h.arrays.getD addr []

def read (h : Heap α) (s : SliceRef) : List α :=
  ((h.array s.addr).drop s.off).take s.len

/-- The slice lies within its array. -/
structure Holds (h : Heap α) (s : SliceRef) : Prop where
  len_le : s.len ≤ s.cap
  cap_le : s.off + s.cap ≤ (h.array s.addr).length

/-- A new array with the given contents and the slice of all of it. -/
def alloc (h : Heap α) (vals : List α) : SliceRef × Heap α :=
  (⟨h.arrays.length, 0, vals.length, vals.length⟩, ⟨h.arrays ++ [vals]⟩)

def store (h : Heap α) (addr i : ℕ) (vals : List α) : Heap α :=
  ⟨h.arrays.set addr (overwrite (h.array addr) i vals)⟩

/-- `copy(s, vals)`. -/
def copyTo (h : Heap α) (s : SliceRef) (vals : List α) : Heap α :=
  h.store s.addr s.off (vals.take s.len)

/-- `append(s, vals...)`.  An append that has to allocate gets `spare` items more
than it needs, which hold the zero value. -/
def append (zero : α) (spare : ℕ) (h : Heap α) (s : SliceRef) (vals : List α) :
    SliceRef × Heap α :=
  if s.len + vals.length ≤ s.cap then
    ({ s with len := s.len + vals.length }, h.store s.addr (s.off + s.len) vals)
  else
    let grown := h.alloc (h.read s ++ vals ++ List.replicate spare zero)
    ({ grown.1 with len := s.len + vals.length }, grown.2)

/-! ## Reading -/

section Read

variable {h : Heap α} {s t : SliceRef}

theorem array_of_not_lt {addr : ℕ} (haddr : ¬ addr < h.arrays.length) :
    h.array addr = [] := by
  rw [array, List.getD_eq_default _ _ (not_lt.mp haddr)]

theorem read_length (hs : h.Holds s) : (h.read s).length = s.len := by
  have hlen := hs.len_le
  have hcap := hs.cap_le
  rw [read, List.length_take, List.length_drop]
  omega

theorem holds_nil : h.Holds SliceRef.nil :=
  ⟨le_rfl, Nat.zero_le _⟩

theorem holds_sub {lo hi : ℕ} (hs : h.Holds s) (hlo : lo ≤ hi) (hhi : hi ≤ s.cap) :
    h.Holds (s.sub lo hi) := by
  have hcap := hs.cap_le
  constructor
  · simp only [SliceRef.sub]
    omega
  · simp only [SliceRef.sub]
    omega

theorem read_sub {lo hi : ℕ} (hhi : hi ≤ s.len) :
    h.read (s.sub lo hi) = ((h.read s).take hi).drop lo := by
  rw [read, read, SliceRef.sub, List.take_take, min_eq_left hhi, List.drop_take,
    List.drop_drop]

theorem read_congr {h' : Heap α} (harray : h'.array s.addr = h.array s.addr) :
    h'.read s = h.read s := by
  rw [read, read, harray]

theorem holds_congr {h' : Heap α}
    (hlen : (h'.array s.addr).length = (h.array s.addr).length)
    (hs : h.Holds s) : h'.Holds s :=
  ⟨hs.len_le, hlen ▸ hs.cap_le⟩

end Read

/-! ## Writing -/

section Store

variable {h : Heap α} {s t : SliceRef} {addr i : ℕ} {vals more : List α}

theorem store_nil : h.store addr i [] = h := by
  rw [store, overwrite_nil]
  by_cases haddr : addr < h.arrays.length
  · rw [array, List.getD_eq_getElem _ _ haddr, List.set_getElem_self]
  · rw [List.set_eq_of_length_le (not_lt.mp haddr)]

theorem array_store (hfits : i + vals.length ≤ (h.array addr).length) :
    (h.store addr i vals).array addr = overwrite (h.array addr) i vals := by
  by_cases haddr : addr < h.arrays.length
  · simp [store, array, haddr]
  · have hvals : vals = [] := by
      rw [array_of_not_lt haddr, List.length_nil] at hfits
      exact List.length_eq_zero_iff.mp (by omega)
    rw [hvals, store_nil, overwrite_nil]

theorem array_store_of_ne {other : ℕ} (hne : addr ≠ other) :
    (h.store addr i vals).array other = h.array other := by
  simp [store, array, List.getD_eq_getElem?_getD, List.getElem?_set_ne hne]

theorem array_store_length (hfits : i + vals.length ≤ (h.array addr).length)
    (other : ℕ) :
    ((h.store addr i vals).array other).length = (h.array other).length := by
  by_cases hne : addr = other
  · subst hne
    rw [array_store hfits, overwrite_length hfits]
  · rw [array_store_of_ne hne]

theorem Holds.store (hfits : i + vals.length ≤ (h.array addr).length)
    (hs : h.Holds s) : (h.store addr i vals).Holds s :=
  holds_congr (array_store_length hfits _) hs

theorem store_adjacent (hfits : i + vals.length ≤ (h.array addr).length) :
    (h.store addr i vals).store addr (i + vals.length) more =
      h.store addr i (vals ++ more) := by
  conv_lhs => rw [Heap.store]
  rw [array_store hfits, overwrite_adjacent (by omega), Heap.store, Heap.store,
    List.set_set]

theorem store_again (hfits : i + vals.length ≤ (h.array addr).length)
    (hshorter : vals.length ≤ more.length) :
    (h.store addr i vals).store addr i more = h.store addr i more := by
  conv_lhs => rw [Heap.store]
  rw [array_store hfits, overwrite_again (by omega) hshorter, Heap.store,
    Heap.store, List.set_set]

/-- What a slice shows that ends where the store ends. -/
theorem read_store_end
    (hfits : s.off + i + vals.length ≤ (h.array s.addr).length)
    (hlen : s.len = i + vals.length) :
    (h.store s.addr (s.off + i) vals).read s =
      ((h.array s.addr).drop s.off).take i ++ vals := by
  rw [read, array_store hfits, hlen]
  have htake := congrArg (List.drop s.off)
    (@take_overwrite_end _ (h.array s.addr) vals (s.off + i) (by omega))
  rw [List.drop_take, List.drop_append_of_le_length
    (by rw [List.length_take_of_le (by omega)]; omega), List.drop_take] at htake
  have hsame : s.off + i + vals.length - s.off = i + vals.length := by omega
  have hfirst : s.off + i - s.off = i := by omega
  rwa [hsame, hfirst] at htake

/-- What a slice shows that ends before the store begins. -/
theorem read_store_before
    (hfits : i + vals.length ≤ (h.array s.addr).length)
    (hlen : s.off + s.len ≤ i) :
    (h.store s.addr i vals).read s = h.read s := by
  rw [read, array_store hfits, read]
  have htake := congrArg (List.drop s.off)
    (@take_overwrite_of_le _ (h.array s.addr) vals i (s.off + s.len) (by omega)
      hlen)
  rw [List.drop_take, List.drop_take, Nat.add_sub_cancel_left] at htake
  exact htake

end Store

/-! ## Allocating -/

section Alloc

variable {h : Heap α} {s t : SliceRef} {vals : List α}

theorem array_alloc_of_lt {addr : ℕ} (haddr : addr < h.arrays.length) :
    (h.alloc vals).2.array addr = h.array addr := by
  simp [alloc, array, List.getD_eq_getElem?_getD,
    List.getElem?_append_left haddr]

@[simp] theorem array_alloc_self :
    (h.alloc vals).2.array (h.alloc vals).1.addr = vals := by
  simp [alloc, array]

theorem holds_alloc : (h.alloc vals).2.Holds (h.alloc vals).1 := by
  constructor
  · rfl
  · rw [array_alloc_self]
    simp [alloc]

/-- A slice that holds something is not at the new address. -/
theorem addr_lt_of_cap (hs : h.Holds s) (hcap : 0 < s.cap) :
    s.addr < h.arrays.length := by
  by_contra haddr
  have hbounds := hs.cap_le
  rw [array_of_not_lt haddr, List.length_nil] at hbounds
  omega

theorem alloc_apart (hs : h.Holds s) : (h.alloc vals).1.Apart s := by
  rcases Nat.eq_zero_or_pos s.cap with hcap | hcap
  · exact .inr (.inl hcap)
  · exact .inr (.inr (addr_lt_of_cap hs hcap).ne')

theorem Holds.alloc (hs : h.Holds s) : (h.alloc vals).2.Holds s := by
  by_cases haddr : s.addr < h.arrays.length
  · exact holds_congr (by rw [array_alloc_of_lt haddr]) hs
  · -- an unallocated address has room for the empty slice only
    have hbounds := hs.cap_le
    rw [array_of_not_lt haddr, List.length_nil] at hbounds
    exact ⟨hs.len_le, by omega⟩

theorem read_of_cap_zero (hs : h.Holds s) (hcap : s.cap = 0) : h.read s = [] := by
  have hlen := hs.len_le
  rw [read, (by omega : s.len = 0), List.take_zero]

theorem read_alloc (hs : h.Holds s) : (h.alloc vals).2.read s = h.read s := by
  rcases Nat.eq_zero_or_pos s.cap with hcap | hcap
  · rw [read_of_cap_zero hs hcap, read_of_cap_zero hs.alloc hcap]
  · exact read_congr (array_alloc_of_lt (addr_lt_of_cap hs hcap))

end Alloc

/-! ## What other slices see -/

/-- From `h` to `h'` nothing was written except through `s`. -/
def Keeps (s : SliceRef) (h h' : Heap α) : Prop :=
  ∀ t, h.Holds t → s.Apart t → h'.Holds t ∧ h'.read t = h.read t

section Keeps

variable {h : Heap α} {s : SliceRef} {vals : List α} {i : ℕ}

theorem keeps_store (hs : h.Holds s) (hi : s.off ≤ i)
    (hfits : i + vals.length ≤ s.off + s.cap) :
    Keeps s h (h.store s.addr i vals) := by
  intro t ht hapart
  have hbounds := hs.cap_le
  have ht' : (h.store s.addr i vals).Holds t := ht.store (by omega)
  refine ⟨ht', ?_⟩
  rcases hapart with hcap | hcap | hne
  · have hvals : vals = [] := List.length_eq_zero_iff.mp (by omega)
    rw [hvals, store_nil]
  · rw [read_of_cap_zero ht hcap, read_of_cap_zero ht' hcap]
  · exact read_congr (array_store_of_ne hne)

theorem keeps_alloc (s : SliceRef) (h : Heap α) (vals : List α) :
    Keeps s h (h.alloc vals).2 :=
  fun _ ht _ => ⟨ht.alloc, read_alloc ht⟩

end Keeps

/-! ## Copying and appending -/

section Operations

variable {h : Heap α} {s t : SliceRef} {vals : List α}

theorem copyTo_take (h : Heap α) (s : SliceRef) (vals : List α) :
    h.copyTo s (vals.take s.len) = h.copyTo s vals := by
  rw [copyTo, copyTo, List.take_take, min_self]

theorem keeps_copyTo (hs : h.Holds s) (vals : List α) :
    Keeps s h (h.copyTo s vals) := by
  have hlen := hs.len_le
  have htake := List.length_take_le s.len vals
  exact keeps_store hs le_rfl (by omega)

theorem Holds.copyTo (hs : h.Holds s) (ht : h.Holds t) (vals : List α) :
    (h.copyTo s vals).Holds t := by
  have hlen := hs.len_le
  have hcap := hs.cap_le
  have htake := List.length_take_le s.len vals
  exact ht.store (by omega)

theorem read_copyTo (hs : h.Holds s) (hvals : vals.length = s.len) :
    (h.copyTo s vals).read s = vals := by
  have hlen := hs.len_le
  have hcap := hs.cap_le
  have htake : vals.take s.len = vals := List.take_of_length_le hvals.le
  have hread := @read_store_end _ h s 0 vals (by omega) (by omega)
  rw [Nat.add_zero, List.take_zero, List.nil_append] at hread
  rw [copyTo, htake]
  exact hread

/-- Writing into a new array shows in no slice there was before. -/
theorem copyTo_alloc (ht : h.Holds t) (vals new : List α) :
    ((h.alloc vals).2.copyTo (h.alloc vals).1 new).Holds t ∧
      ((h.alloc vals).2.copyTo (h.alloc vals).1 new).read t = h.read t := by
  obtain ⟨ht', hread⟩ := keeps_copyTo holds_alloc new t ht.alloc (alloc_apart ht)
  exact ⟨ht', hread.trans (read_alloc ht)⟩

theorem append_in_place
    (zero : α) (spare : ℕ) (hfits : s.len + vals.length ≤ s.cap) :
    (append zero spare h s vals).2 = h.store s.addr (s.off + s.len) vals := by
  rw [append, if_pos hfits]

/-- An append shows the new items behind the old ones, in place or in a new
array, and disturbs nobody else. -/
theorem append_spec (zero : α) (spare : ℕ) (hs : h.Holds s) (vals : List α) :
    (append zero spare h s vals).2.Holds (append zero spare h s vals).1 ∧
      (append zero spare h s vals).2.read (append zero spare h s vals).1 =
        h.read s ++ vals ∧
      Keeps s h (append zero spare h s vals).2 ∧
      ∀ t, h.Holds t → s.Apart t → (append zero spare h s vals).1.Apart t := by
  have hlen := hs.len_le
  have hcap := hs.cap_le
  unfold append
  by_cases hfits : s.len + vals.length ≤ s.cap
  · rw [if_pos hfits]
    have hroom : s.off + s.len + vals.length ≤ (h.array s.addr).length := by omega
    refine ⟨⟨hfits, ?_⟩, ?_, keeps_store hs (by omega) (by omega), fun _ _ => id⟩
    · rw [array_store_length hroom]
      exact hcap
    · exact @read_store_end _ h { s with len := s.len + vals.length } s.len vals
        hroom rfl
  · rw [if_neg hfits]
    have hread := read_length hs
    refine ⟨⟨?_, ?_⟩, ?_, keeps_alloc s h _, fun t ht _ => ?_⟩
    · simp only [alloc, List.length_append, hread]
      omega
    · simp [alloc, array]
    · have hitems : (h.read s ++ vals).length = s.len + vals.length := by
        rw [List.length_append, hread]
      rw [read]
      dsimp only
      rw [array_alloc_self]
      exact List.take_left' hitems
    · exact alloc_apart ht

end Operations

/-! ## Filling a slice from the front -/

/-- `h` is `h₀` with `done` written over the front of `s`. -/
structure Filled (h₀ : Heap α) (s : SliceRef) (done : List α) (h : Heap α) :
    Prop where
  eq : h = h₀.store s.addr s.off done
  holds : h₀.Holds s
  fits : done.length ≤ s.len

section Filled

variable {h₀ h : Heap α} {s g : SliceRef} {done old : List α}

theorem filled_nil (hs : h₀.Holds s) : Filled h₀ s [] h₀ :=
  ⟨store_nil.symm, hs, Nat.zero_le _⟩

theorem Filled.room (hfilled : Filled h₀ s done h) :
    s.off + done.length ≤ (h₀.array s.addr).length := by
  have hcap := hfilled.holds.cap_le
  have hlen := hfilled.holds.len_le
  have hfits := hfilled.fits
  omega

theorem Filled.keepsHolds (hfilled : Filled h₀ s done h) {t : SliceRef}
    (ht : h₀.Holds t) : h.Holds t := by
  rw [hfilled.eq]
  exact ht.store hfilled.room

/-- `copy(s[lo:hi], vals)` right behind what has been written. -/
theorem Filled.copy
    (hfilled : Filled h₀ s done h) (lo hi : ℕ) (vals : List α)
    (hlo : lo = done.length) (hlen : vals.length ≤ hi - lo)
    (hfits : lo + vals.length ≤ s.len) :
    Filled h₀ s (done ++ vals) (h.copyTo (s.sub lo hi) vals) := by
  refine ⟨?_, hfilled.holds, by rw [List.length_append]; omega⟩
  rw [← store_adjacent hfilled.room, ← hfilled.eq, copyTo, SliceRef.sub,
    List.take_of_length_le hlen, hlo]

/-- The end of what has been written is written over. -/
theorem Filled.rewrite
    (hfilled : Filled h₀ s (done ++ old) h) (vals : List α)
    (hlonger : old.length ≤ vals.length)
    (hfits : done.length + vals.length ≤ s.len) :
    Filled h₀ s (done ++ vals) (h.store s.addr (s.off + done.length) vals) := by
  have hroom := hfilled.room
  rw [List.length_append] at hroom
  have hfirst : s.off + done.length ≤ (h₀.array s.addr).length := by omega
  refine ⟨?_, hfilled.holds, by rw [List.length_append]; omega⟩
  rw [hfilled.eq, ← store_adjacent hfirst, ← store_adjacent hfirst, store_again]
  · rw [array_store_length hfirst]
    omega
  · exact hlonger

theorem Filled.read_sub {lo hi : ℕ} (hfilled : Filled h₀ s done h)
    (hhi : hi ≤ done.length) : h.read (s.sub lo hi) = (done.take hi).drop lo := by
  have hfront : h.read (s.sub 0 done.length) = done := by
    have hread := @read_store_end _ h₀ (s.sub 0 done.length) 0 done
      hfilled.room (by simp [SliceRef.sub])
    rw [hfilled.eq]
    simpa [SliceRef.sub] using hread
  have hsub : s.sub lo hi = (s.sub 0 done.length).sub lo hi := by
    simp [SliceRef.sub]
  rw [hsub, Heap.read_sub hhi, hfront]

/-- What lies before the slice that is filled. -/
theorem Filled.read_front {base : ℕ}
    (hfilled : Filled h₀ (g.dropFirst base) done h) :
    h.read (g.sub 0 base) = h₀.read (g.sub 0 base) := by
  rw [hfilled.eq]
  exact read_store_before hfilled.room (by simp [SliceRef.sub, SliceRef.dropFirst])

theorem Filled.read_whole {base : ℕ}
    (hfilled : Filled h₀ (g.dropFirst base) done h)
    (hlen : base + done.length = g.len) :
    h.read g = h₀.read (g.sub 0 base) ++ done := by
  have hread := @read_store_end _ h₀ g base done hfilled.room hlen.symm
  rw [hfilled.eq]
  simpa [SliceRef.dropFirst, SliceRef.sub, read] using hread

end Filled

end Heap

end SingEwp
