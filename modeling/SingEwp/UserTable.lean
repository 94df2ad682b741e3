import SingEwp.Handshake
import SingEwp.SliceMemory

/-!
# The users of a service

`ParseUUID` of `client.go` and the user table of `server.go`.  `RemoveUser`
closes the gap in the array behind `s.users`, where an old lookup could still be
reading, and an `AddUser` may write into the same array.  `rebuildLookup` gives
every lookup an array of its own, which nobody writes to once the lookup is
installed; so a lookup answers for the list as it was when it was built, however
long a handshake holds on to it.
-/

namespace SingEwp

/-! ## Parsing -/

/-- Why `ParseUUID` fails: the number of digits, or an error of
`hex.DecodeString`. -/
inductive UuidError where
  | digits
  | hexByte (c : UInt8)
  | hexLength
  deriving DecidableEq, Repr

def hexValue (c : UInt8) : Option ℕ :=
  if 0x30 ≤ c.toNat ∧ c.toNat ≤ 0x39 then some (c.toNat - 0x30)
  else if 0x61 ≤ c.toNat ∧ c.toNat ≤ 0x66 then some (c.toNat - 0x61 + 10)
  else if 0x41 ≤ c.toNat ∧ c.toNat ≤ 0x46 then some (c.toNat - 0x41 + 10)
  else none

/-- `hex.DecodeString`. -/
def hexDecode : Bytes → Except UuidError Bytes
  | [] => .ok []
  | [c] =>
      match hexValue c with
      | none => .error (.hexByte c)
      | some _ => .error .hexLength
  | c :: d :: rest =>
      match hexValue c with
      | none => .error (.hexByte c)
      | some hi =>
          match hexValue d with
          | none => .error (.hexByte d)
          | some lo =>
              match hexDecode rest with
              | .error e => .error e
              | .ok bytes => .ok (UInt8.ofNat (hi * 16 + lo) :: bytes)

/-- `strings.ReplaceAll(s, "-", "")`. -/
def stripHyphens (s : Bytes) : Bytes := s.filter (fun c => c ≠ 0x2d)

def parseUUID (s : Bytes) : Except UuidError Uuid :=
  let clean := stripHyphens s
  if clean.length ≠ 32 then .error .digits
  else
    match hexDecode clean with
    | .error e => .error e
    | .ok b => .ok (FixedBytes.copyFrom uuidLen b)

/-! ## The table -/

/-- The fields `users` and `lookup` of a `Service`.  A lookup is the slice that
`MakeUUIDLookup` closes over. -/
structure UserTable where
  heap : Heap Uuid
  users : SliceRef
  lookup : SliceRef

def zeroUuid : Uuid := FixedBytes.copyFrom uuidLen []

/-- `Users`. -/
def UserTable.list (t : UserTable) : List Uuid := t.heap.read t.users

def rebuildLookup (t : UserTable) : UserTable :=
  let made := t.heap.alloc (List.replicate t.users.len zeroUuid)
  { t with
    heap := made.2.copyTo made.1 (made.2.read t.users)
    lookup := made.1 }

/-- The table of `NewService`. -/
def newUserTable : UserTable :=
  rebuildLookup { heap := .empty, users := .nil, lookup := .nil }

/-- `s.users = append(s.users[:n], vals...)` and `s.rebuildLookup()`. -/
def UserTable.edit (t : UserTable) (spare n : ℕ) (vals : List Uuid) : UserTable :=
  let users := Heap.append zeroUuid spare t.heap (t.users.sub 0 n) vals
  rebuildLookup { t with heap := users.2, users := users.1 }

/-- `AddUser`; an append that allocates gets `spare` items more. -/
def addUser (spare : ℕ) (uuidStr : Bytes) (t : UserTable) :
    Except UuidError Unit × UserTable :=
  match parseUUID uuidStr with
  | .error e => (.error e, t)
  | .ok u =>
      if u ∈ t.list then (.ok (), t)
      else (.ok (), t.edit spare t.users.len [u])

def removeUser (uuidStr : Bytes) (t : UserTable) : Bool × UserTable :=
  match parseUUID uuidStr with
  | .error _ => (false, t)
  | .ok u =>
      match t.list.idxOf? u with
      | none => (false, t)
      | some i =>
          (true, t.edit 0 i (t.heap.read (t.users.sub (i + 1) t.users.len)))

/-- A call of a lookup that closes over `snapshot`, with the arrays as they are
when it is made. -/
def lookupIn (P : Primitives) (heap : Heap Uuid) (snapshot : SliceRef) :
    UUIDLookup :=
  makeUUIDLookup P (heap.read snapshot)

inductive UserCall where
  | addUser (uuidStr : Bytes) (spare : ℕ)
  | removeUser (uuidStr : Bytes)

def UserCall.run (t : UserTable) : UserCall → UserTable
  | .addUser uuidStr spare => (SingEwp.addUser spare uuidStr t).2
  | .removeUser uuidStr => (SingEwp.removeUser uuidStr t).2

def tableAfter (calls : List UserCall) : UserTable :=
  calls.foldl UserCall.run newUserTable

/-- The same calls on a set of parsed identifiers. -/
def UserCall.onSet (users : Finset Uuid) : UserCall → Finset Uuid
  | .addUser uuidStr _ =>
      match parseUUID uuidStr with
      | .ok u => insert u users
      | .error _ => users
  | .removeUser uuidStr =>
      match parseUUID uuidStr with
      | .ok u => users.erase u
      | .error _ => users

def usersAfter (calls : List UserCall) : Finset Uuid :=
  calls.foldl UserCall.onSet ∅

/-! ## What the parser accepts -/

/-- The two hexadecimal digits of every byte. -/
def nibbles (bytes : Bytes) : List (Option ℕ) :=
  bytes.flatMap fun b => [some (b.toNat / 16), some (b.toNat % 16)]

/-- The digits of `s`, in either case and with hyphens left out, are those of
`u`. -/
def Spells (s : Bytes) (u : Uuid) : Prop :=
  (stripHyphens s).map hexValue = nibbles u.val

theorem hexValue_lt {c : UInt8} {v : ℕ} (hv : hexValue c = some v) : v < 16 := by
  unfold hexValue at hv
  split at hv
  · have := Option.some.inj hv
    omega
  · split at hv
    · have := Option.some.inj hv
      omega
    · split at hv
      · have := Option.some.inj hv
        omega
      · simp at hv

@[simp] theorem nibbles_nil : nibbles [] = [] := rfl

@[simp] theorem nibbles_cons (b : UInt8) (rest : Bytes) :
    nibbles (b :: rest) =
      some (b.toNat / 16) :: some (b.toNat % 16) :: nibbles rest := rfl

theorem nibbles_length (bytes : Bytes) :
    (nibbles bytes).length = 2 * bytes.length := by
  induction bytes with
  | nil => rfl
  | cons b rest ih =>
      rw [nibbles_cons, List.length_cons, List.length_cons, ih, List.length_cons]
      omega

theorem hexDecode_pair (c d : UInt8) (rest bytes : Bytes) :
    hexDecode (c :: d :: rest) = .ok bytes ↔
      ∃ hi lo more, hexValue c = some hi ∧ hexValue d = some lo ∧
        hexDecode rest = .ok more ∧
        bytes = UInt8.ofNat (hi * 16 + lo) :: more := by
  rw [hexDecode]
  cases hexValue c with
  | none => simp
  | some hi =>
      cases hexValue d with
      | none => simp
      | some lo =>
          cases hexDecode rest with
          | error e => simp
          | ok more => simp [eq_comm]

/-- A byte is the number its two digits spell. -/
theorem byte_eq_iff {hi lo : ℕ} (hhi : hi < 16) (hlo : lo < 16) (b : UInt8) :
    b = UInt8.ofNat (hi * 16 + lo) ↔ hi = b.toNat / 16 ∧ lo = b.toNat % 16 := by
  have hsmall : (UInt8.ofNat (hi * 16 + lo)).toNat = hi * 16 + lo :=
    UInt8.toNat_ofNat_of_lt' (by simp only [UInt8.size]; omega)
  rw [← UInt8.toNat_inj, hsmall]
  omega

theorem hexDecode_ok_iff (s bytes : Bytes) :
    hexDecode s = .ok bytes ↔ s.map hexValue = nibbles bytes := by
  induction s using List.twoStepInduction generalizing bytes with
  | nil =>
      cases bytes with
      | nil => simp [hexDecode]
      | cons b rest => simp [hexDecode]
  | singleton c =>
      rw [hexDecode]
      cases bytes with
      | nil => cases hexValue c <;> simp
      | cons b rest => cases hexValue c <;> simp
  | cons_cons c d rest ih =>
      rw [hexDecode_pair]
      cases bytes with
      | nil => simp
      | cons b more =>
          simp only [List.map_cons, nibbles_cons, List.cons.injEq, ← ih]
          constructor
          · rintro ⟨hi, lo, tail, hc, hd, hrest, hb, rfl⟩
            have hspell := (byte_eq_iff (hexValue_lt hc) (hexValue_lt hd) b).mp hb
            rw [hc, hd, hspell.1, hspell.2]
            exact ⟨rfl, rfl, hrest⟩
          · rintro ⟨hc, hd, hrest⟩
            have hb := (byte_eq_iff (hexValue_lt hc) (hexValue_lt hd) b).mpr ⟨rfl, rfl⟩
            exact ⟨_, _, more, hc, hd, hrest, hb, rfl⟩

theorem parseUUID_ok_iff (s : Bytes) (u : Uuid) :
    parseUUID s = .ok u ↔ Spells s u := by
  unfold parseUUID Spells
  dsimp only
  by_cases hlen : (stripHyphens s).length = 32
  · rw [if_neg (not_not.mpr hlen)]
    cases hdec : hexDecode (stripHyphens s) with
    | error e =>
        simp only [reduceCtorEq, ← hexDecode_ok_iff, hdec]
    | ok b =>
        have hblen : b.length = uuidLen := by
          have hdigits := congrArg List.length ((hexDecode_ok_iff _ _).mp hdec)
          rw [List.length_map, nibbles_length, hlen] at hdigits
          simp only [uuidLen]
          omega
        rw [← hexDecode_ok_iff, hdec, Except.ok.injEq, Except.ok.injEq,
          ← Subtype.val_inj, FixedBytes.copyFrom_val_of_length hblen]
  · rw [if_pos hlen]
    simp only [reduceCtorEq, false_iff]
    intro hspells
    have hdigits := congrArg List.length hspells
    rw [List.length_map, nibbles_length, u.property] at hdigits
    exact hlen hdigits

/-! ## One call -/

section Calls

variable {t : UserTable} {u : Uuid}

/-- A slice apart from the list of users keeps its contents from `t` to `t'`. -/
def Spares (t t' : UserTable) : Prop :=
  ∀ s, t.heap.Holds s → t.users.Apart s →
    t'.heap.Holds s ∧ t'.heap.read s = t.heap.read s ∧ t'.users.Apart s

theorem Spares.trans {t' t'' : UserTable} (hfirst : Spares t t')
    (hsecond : Spares t' t'') : Spares t t'' := by
  intro s hs hapart
  obtain ⟨hs', hread, hapart'⟩ := hfirst s hs hapart
  obtain ⟨hs'', hread', hapart''⟩ := hsecond s hs' hapart'
  exact ⟨hs'', hread'.trans hread, hapart''⟩

/-- The table between two calls. -/
structure UserTable.Sound (t : UserTable) : Prop where
  users_held : t.heap.Holds t.users
  lookup_held : t.heap.Holds t.lookup
  apart : t.users.Apart t.lookup
  nodup : t.list.Nodup
  installed : t.heap.read t.lookup = t.list

/-- Making the snapshot is harmless to every slice there is. -/
theorem rebuildLookup_keeps {s : SliceRef} (hs : t.heap.Holds s) :
    (rebuildLookup t).heap.Holds s ∧
      (rebuildLookup t).heap.read s = t.heap.read s ∧
      (rebuildLookup t).lookup.Apart s := by
  obtain ⟨hheld, hread⟩ := Heap.copyTo_alloc hs _ _
  exact ⟨hheld, hread, Heap.alloc_apart hs⟩

theorem rebuildLookup_sound
    (hheld : t.heap.Holds t.users) (hnodup : t.list.Nodup) :
    (rebuildLookup t).Sound ∧ (rebuildLookup t).list = t.list ∧
      Spares t (rebuildLookup t) := by
  obtain ⟨husers, hlist, hapart⟩ := rebuildLookup_keeps hheld
  have hlen : (t.heap.read t.users).length =
      (List.replicate t.users.len zeroUuid).length := by
    rw [Heap.read_length hheld, List.length_replicate]
  have hinstalled : (rebuildLookup t).heap.read (rebuildLookup t).lookup =
      t.heap.read t.users := by
    rw [rebuildLookup]
    dsimp only
    rw [Heap.read_alloc hheld]
    exact Heap.read_copyTo Heap.holds_alloc hlen
  refine ⟨⟨husers, ?_, hapart.symm, ?_, ?_⟩, hlist, ?_⟩
  · exact Heap.holds_alloc.copyTo Heap.holds_alloc _
  · rw [UserTable.list]
    exact hlist ▸ hnodup
  · exact hinstalled.trans hlist.symm
  · intro s hs hspared
    obtain ⟨hs', hread, _⟩ := rebuildLookup_keeps hs
    exact ⟨hs', hread, hspared⟩

theorem edit_sound
    {n spare : ℕ} {vals : List Uuid} (hsound : t.Sound) (hn : n ≤ t.users.len)
    (hnodup : (t.list.take n ++ vals).Nodup) :
    (t.edit spare n vals).Sound ∧
      (t.edit spare n vals).list = t.list.take n ++ vals ∧
      Spares t (t.edit spare n vals) := by
  have hfirst := Heap.holds_sub hsound.users_held (Nat.zero_le n)
    (hn.trans hsound.users_held.len_le)
  obtain ⟨hheld, hread, hkeeps, happart⟩ :=
    Heap.append_spec zeroUuid spare hfirst vals
  rw [Heap.read_sub hn, List.drop_zero] at hread
  unfold UserTable.edit
  generalize Heap.append zeroUuid spare t.heap (t.users.sub 0 n) vals = appended
    at hheld hread hkeeps happart ⊢
  have hlist : UserTable.list { t with heap := appended.2, users := appended.1 } =
      t.list.take n ++ vals := hread
  obtain ⟨hsound', hsame, hspares⟩ :=
    rebuildLookup_sound hheld (hlist.symm ▸ hnodup)
  refine ⟨hsound', hsame.trans hlist, Spares.trans ?_ hspares⟩
  intro s hs hapart
  obtain ⟨hs', hkept⟩ := hkeeps s hs hapart
  exact ⟨hs', hkept, happart s hs hapart⟩

/-- What a call leaves behind: a sound table whose list is the given one, and
every other slice as it was. -/
structure LeadsTo (t t' : UserTable) (users : List Uuid) : Prop where
  sound : t'.Sound
  list_eq : t'.list = users
  spares : Spares t t'

theorem LeadsTo.refl (hsound : t.Sound) : LeadsTo t t t.list :=
  ⟨hsound, rfl, fun _ hs hapart => ⟨hs, rfl, hapart⟩⟩

theorem addUser_leadsTo
    {uuidStr : Bytes} (hsound : t.Sound) (hparse : parseUUID uuidStr = .ok u)
    (spare : ℕ) :
    (addUser spare uuidStr t).1 = .ok () ∧
      LeadsTo t (addUser spare uuidStr t).2
        (if u ∈ t.list then t.list else t.list ++ [u]) := by
  unfold addUser
  rw [hparse]
  dsimp only
  by_cases hmem : u ∈ t.list
  · rw [if_pos hmem, if_pos hmem]
    exact ⟨rfl, .refl hsound⟩
  · have hwhole : t.list.take t.users.len = t.list :=
      List.take_of_length_le (Heap.read_length hsound.users_held).le
    have hnodup : (t.list.take t.users.len ++ [u]).Nodup := by
      rw [hwhole, ← List.concat_eq_append, List.nodup_concat]
      exact ⟨hmem, hsound.nodup⟩
    obtain ⟨hsound', hlist, hspares⟩ := @edit_sound t _ spare _ hsound le_rfl hnodup
    rw [if_neg hmem, if_neg hmem]
    rw [hwhole] at hlist
    exact ⟨rfl, hsound', hlist, hspares⟩

theorem removeUser_leadsTo
    {uuidStr : Bytes} (hsound : t.Sound) (hparse : parseUUID uuidStr = .ok u) :
    ((removeUser uuidStr t).1 = true ↔ u ∈ t.list) ∧
      LeadsTo t (removeUser uuidStr t).2 (t.list.erase u) := by
  unfold removeUser
  rw [hparse]
  dsimp only
  cases hfound : t.list.idxOf? u with
  | none =>
      have habsent := List.idxOf?_eq_none_iff.mp hfound
      rw [List.erase_of_not_mem habsent]
      exact ⟨by simp [habsent], .refl hsound⟩
  | some i =>
      obtain ⟨hi, hget, _⟩ := List.idxOf?_eq_some_iff.mp hfound
      have hlen : t.list.length = t.users.len :=
        Heap.read_length hsound.users_held
      have hrest : t.heap.read (t.users.sub (i + 1) t.users.len) =
          t.list.drop (i + 1) := by
        rw [Heap.read_sub le_rfl, ← hlen, ← UserTable.list, List.take_length]
      have herase : t.list.take i ++ t.list.drop (i + 1) = t.list.erase u := by
        rw [List.erase_eq_eraseIdx, hfound]
        exact (List.eraseIdx_eq_take_drop_succ _ _).symm
      obtain ⟨hsound', hlist, hspares⟩ := @edit_sound t i 0
        (t.list.drop (i + 1)) hsound (by omega)
        (herase.symm ▸ hsound.nodup.erase u)
      dsimp only
      rw [hrest]
      refine ⟨?_, hsound', hlist.trans herase, hspares⟩
      simp [← hget]

end Calls

/-! ## Any history of calls -/

theorem newUserTable_sound : newUserTable.Sound ∧ newUserTable.list = [] := by
  obtain ⟨hsound, hlist, _⟩ := @rebuildLookup_sound
    { heap := .empty, users := .nil, lookup := .nil } Heap.holds_nil List.nodup_nil
  exact ⟨hsound, hlist⟩

theorem addUser_error
    {uuidStr : Bytes} {e : UuidError} (hparse : parseUUID uuidStr = .error e)
    (spare : ℕ) (t : UserTable) : addUser spare uuidStr t = (.error e, t) := by
  rw [addUser, hparse]

theorem removeUser_error
    {uuidStr : Bytes} {e : UuidError} (hparse : parseUUID uuidStr = .error e)
    (t : UserTable) : removeUser uuidStr t = (false, t) := by
  rw [removeUser, hparse]

/-- The table after some calls, against the set they make and against every
slice that was there before them. -/
structure AgreesWith (t : UserTable) (calls : List UserCall) (t' : UserTable) :
    Prop where
  sound : t'.Sound
  users_eq : t'.list.toFinset = calls.foldl UserCall.onSet t.list.toFinset
  spares : Spares t t'

theorem UserCall.run_agrees
    {t : UserTable} (hsound : t.Sound) (call : UserCall) :
    AgreesWith t [call] (call.run t) := by
  cases call with
  | addUser uuidStr spare =>
      simp only [UserCall.run]
      cases hparse : parseUUID uuidStr with
      | error e =>
          rw [addUser_error hparse]
          refine ⟨hsound, ?_, fun _ hs hapart => ⟨hs, rfl, hapart⟩⟩
          simp [UserCall.onSet, hparse]
      | ok u =>
          obtain ⟨_, hleads⟩ := addUser_leadsTo hsound hparse spare
          refine ⟨hleads.sound, ?_, hleads.spares⟩
          rw [hleads.list_eq]
          by_cases hmem : u ∈ t.list
          · simp [UserCall.onSet, hparse, hmem]
          · simp [UserCall.onSet, hparse, hmem]
  | removeUser uuidStr =>
      simp only [UserCall.run]
      cases hparse : parseUUID uuidStr with
      | error e =>
          rw [removeUser_error hparse]
          refine ⟨hsound, ?_, fun _ hs hapart => ⟨hs, rfl, hapart⟩⟩
          simp [UserCall.onSet, hparse]
      | ok u =>
          obtain ⟨_, hleads⟩ := removeUser_leadsTo hsound hparse
          refine ⟨hleads.sound, ?_, hleads.spares⟩
          rw [hleads.list_eq]
          ext v
          simp [UserCall.onSet, hparse, hsound.nodup.mem_erase_iff]

theorem run_agrees
    {t : UserTable} (hsound : t.Sound) (calls : List UserCall) :
    AgreesWith t calls (calls.foldl UserCall.run t) := by
  induction calls generalizing t with
  | nil => exact ⟨hsound, rfl, fun _ hs hapart => ⟨hs, rfl, hapart⟩⟩
  | cons call rest ih =>
      have hfirst := call.run_agrees hsound
      have hrest := ih hfirst.sound
      refine ⟨hrest.sound, ?_, hfirst.spares.trans hrest.spares⟩
      rw [List.foldl_cons, List.foldl_cons, hrest.users_eq, hfirst.users_eq]
      rfl

theorem tableAfter_agrees (calls : List UserCall) :
    (tableAfter calls).Sound ∧
      (tableAfter calls).list.toFinset = usersAfter calls := by
  obtain ⟨hsound, hlist⟩ := newUserTable_sound
  have hagrees := run_agrees hsound calls
  refine ⟨hagrees.sound, ?_⟩
  rw [tableAfter, hagrees.users_eq, hlist, usersAfter, List.toFinset_nil]

/-- However many calls come later, the lookup installed by the earlier ones
reads the list they left. -/
theorem read_lookup_later (calls later : List UserCall) :
    (tableAfter (calls ++ later)).heap.read (tableAfter calls).lookup =
      (tableAfter calls).list := by
  have hsound := (tableAfter_agrees calls).1
  have hspares := (run_agrees hsound later).spares
  obtain ⟨_, hread, _⟩ := hspares _ hsound.lookup_held hsound.apart
  rw [tableAfter, List.foldl_append, ← tableAfter, hread, hsound.installed]

section Lookup

variable (P : Primitives) (users : List Uuid) (msg : Bytes)
variable (tag : FixedBytes outerMACLen)

theorem makeUUIDLookup_ok_iff (u : Uuid) :
    makeUUIDLookup P users msg tag = .ok u ↔
      ∃ (i : ℕ) (hi : i < users.length), users[i] = u ∧
        verifyOuterMAC P u msg tag = true ∧
        ∀ (j : ℕ) (hj : j < i), verifyOuterMAC P users[j] msg tag = false := by
  have hfind := @List.find?_eq_some_iff_getElem _ users
    (fun v => verifyOuterMAC P v msg tag) u
  unfold makeUUIDLookup
  constructor
  · intro hlookup
    cases hsome : users.find? (fun v => verifyOuterMAC P v msg tag) with
    | none => simp [hsome] at hlookup
    | some v =>
        simp only [hsome, Except.ok.injEq] at hlookup
        subst hlookup
        obtain ⟨hverify, i, hi, hget, hfirst⟩ := hfind.mp hsome
        exact ⟨i, hi, hget, hverify, fun j hj => by simpa using hfirst j hj⟩
  · rintro ⟨i, hi, hget, hverify, hfirst⟩
    have hsome := hfind.mpr
      ⟨hverify, i, hi, hget, fun j hj => by simp [hfirst j hj]⟩
    rw [hsome]

theorem makeUUIDLookup_error_iff :
    makeUUIDLookup P users msg tag = .error .unknownUUID ↔
      ∀ u ∈ users, verifyOuterMAC P u msg tag = false := by
  unfold makeUUIDLookup
  cases hfind : users.find? (fun v => verifyOuterMAC P v msg tag) with
  | none => simpa using hfind
  | some v =>
      have hverify := List.find?_some hfind
      have hmem := List.mem_of_find?_eq_some hfind
      simp only [reduceCtorEq, false_iff, not_forall]
      exact ⟨v, hmem, by simpa using hverify⟩

end Lookup

/-- The user table over any history of calls: a list without duplicates that is
the set of the parsed identifiers, calls that answer for it, and lookups that
answer for the list they were installed with, during any later calls. -/
theorem user_table_history (P : Primitives) (calls later : List UserCall) :
    (tableAfter calls).list.Nodup ∧
    (tableAfter calls).list.toFinset = usersAfter calls ∧
    (∀ (uuidStr : Bytes) (e : UuidError), parseUUID uuidStr = .error e →
      (∀ spare, addUser spare uuidStr (tableAfter calls) =
        (.error e, tableAfter calls)) ∧
      removeUser uuidStr (tableAfter calls) = (false, tableAfter calls)) ∧
    (∀ (uuidStr : Bytes) (u : Uuid), parseUUID uuidStr = .ok u →
      (∀ spare, (addUser spare uuidStr (tableAfter calls)).1 = .ok ()) ∧
      ((removeUser uuidStr (tableAfter calls)).1 = true ↔
        u ∈ (tableAfter calls).list)) ∧
    (∀ (uuidStr : Bytes) (u : Uuid), parseUUID uuidStr = .ok u ↔ Spells uuidStr u) ∧
    ∀ (msg : Bytes) (tag : FixedBytes outerMACLen),
      (∀ u, lookupIn P (tableAfter (calls ++ later)).heap
          (tableAfter calls).lookup msg tag = .ok u ↔
        ∃ (i : ℕ) (hi : i < (tableAfter calls).list.length),
          (tableAfter calls).list[i] = u ∧ verifyOuterMAC P u msg tag = true ∧
          ∀ (j : ℕ) (hj : j < i),
            verifyOuterMAC P (tableAfter calls).list[j] msg tag = false) ∧
      (lookupIn P (tableAfter (calls ++ later)).heap
          (tableAfter calls).lookup msg tag = .error .unknownUUID ↔
        ∀ u ∈ (tableAfter calls).list, verifyOuterMAC P u msg tag = false) := by
  obtain ⟨hsound, husers⟩ := tableAfter_agrees calls
  refine ⟨hsound.nodup, husers, ?_, ?_, parseUUID_ok_iff, ?_⟩
  · intro uuidStr e hparse
    exact ⟨fun spare => addUser_error hparse spare _, removeUser_error hparse _⟩
  · intro uuidStr u hparse
    exact ⟨fun spare => (addUser_leadsTo hsound hparse spare).1,
      (removeUser_leadsTo hsound hparse).1⟩
  · intro msg tag
    rw [lookupIn, read_lookup_later]
    exact ⟨makeUUIDLookup_ok_iff P _ msg tag, makeUUIDLookup_error_iff P _ msg tag⟩

/-- A user added under one spelling is removed under another. -/
theorem user_table_history_respelled :
    (removeUser (0x2d :: List.replicate 32 0x61)
      (tableAfter [.addUser (List.replicate 32 0x41) 0])).1 = true := by
  have hcalls := (user_table_history Transparent.suite
    [.addUser (List.replicate 32 0x41) 0] []).2.2.2.1
      (0x2d :: List.replicate 32 0x61)
      (FixedBytes.copyFrom uuidLen (List.replicate 16 0xaa)) (by decide)
  exact hcalls.2.mpr (by decide)

end SingEwp
