import SingEwp.ExpiringSet
import SingEwp.Protocol

/-!
# The replay cache

`anti_replay.go`: the set of `(UUID, nonce)` pairs seen lately.  A pair is
admitted unless it is live, an admitted pair lives for the cache's window, and
every `gcInterval`-th admission sweeps the expired entries out.
-/

namespace SingEwp

abbrev ReplayKey := FixedBytes (uuidLen + handshakeNonce)

def makeReplayKey (uuid : Uuid) (nonce : HelloNonce) : ReplayKey :=
  ⟨uuid.val ++ nonce.val, by simp [uuid.property, nonce.property]⟩

/-- `time.Second`, in nanoseconds. -/
def second : ℤ := 1000000000

def replayWindow : ℤ := (handshakeTimestampWindow + 60) * second

def gcInterval : ℕ := 1024

structure ReplayCache where
  entries : ExpiringSet ReplayKey
  /-- A `time.Duration`, in nanoseconds. -/
  window : ℤ
  gcCounter : ℕ

def newReplayCache (window : ℤ) : ReplayCache where
  entries := ∅
  window := window
  gcCounter := 0

namespace ReplayCache

def gcLocked (c : ReplayCache) (now : ℤ) : ReplayCache :=
  { c with entries := c.entries.sweep now }

/-- The part of `MarkSeenOrReject` that runs under the mutex. -/
def admitLocked (c : ReplayCache) (key : ReplayKey) (now expiry : ℤ) :
    Bool × ReplayCache :=
  if c.entries.live now key then (false, c)
  else
    let admitted : ReplayCache :=
      { c with
        entries := c.entries.insert key expiry
        gcCounter := c.gcCounter + 1 }
    if gcInterval ≤ admitted.gcCounter then
      (true, gcLocked { admitted with gcCounter := 0 } now)
    else (true, admitted)

/-- `MarkSeenOrReject` at the clock reading `now`, in whole seconds. -/
def markSeenOrReject (c : ReplayCache) (uuid : Uuid) (nonce : HelloNonce)
    (now : ℤ) : Bool × ReplayCache :=
  let expiry := now + Int.tdiv c.window second
  c.admitLocked (makeReplayKey uuid nonce) now expiry

/-! ## What one call does -/

theorem admitLocked_of_live
    {c : ReplayCache} {key : ReplayKey} {now : ℤ} (expiry : ℤ)
    (hlive : c.entries.live now key = true) :
    c.admitLocked key now expiry = (false, c) := by
  simp [admitLocked, hlive]

theorem admitLocked_of_not_live
    {c : ReplayCache} {key : ReplayKey} {now : ℤ} (expiry : ℤ)
    (hlive : c.entries.live now key = false) :
    (c.admitLocked key now expiry).1 = true ∧
      ((c.admitLocked key now expiry).2.entries =
          c.entries.insert key expiry ∨
        (c.admitLocked key now expiry).2.entries =
          ExpiringSet.sweep (c.entries.insert key expiry) now) := by
  unfold admitLocked
  rw [if_neg (by simp [hlive])]
  dsimp only
  split
  · exact ⟨rfl, Or.inr rfl⟩
  · exact ⟨rfl, Or.inl rfl⟩

theorem admitLocked_fst
    (c : ReplayCache) (key : ReplayKey) (now expiry : ℤ) :
    (c.admitLocked key now expiry).1 = !c.entries.live now key := by
  cases hlive : c.entries.live now key with
  | true => rw [admitLocked_of_live expiry hlive]; rfl
  | false => exact (admitLocked_of_not_live expiry hlive).1

@[simp] theorem admitLocked_window
    (c : ReplayCache) (key : ReplayKey) (now expiry : ℤ) :
    (c.admitLocked key now expiry).2.window = c.window := by
  unfold admitLocked
  split
  · rfl
  · dsimp only
    split <;> rfl

theorem markSeenOrReject_fst
    (c : ReplayCache) (uuid : Uuid) (nonce : HelloNonce) (now : ℤ) :
    (c.markSeenOrReject uuid nonce now).1 =
      !c.entries.live now (makeReplayKey uuid nonce) :=
  admitLocked_fst c _ now _

@[simp] theorem markSeenOrReject_window
    (c : ReplayCache) (uuid : Uuid) (nonce : HelloNonce) (now : ℤ) :
    (c.markSeenOrReject uuid nonce now).2.window = c.window :=
  admitLocked_window c _ now _

/-! ## What the cache remembers -/

theorem admitLocked_remembers
    {c : ReplayCache} {key : ReplayKey} {deadline now : ℤ}
    (hrem : c.entries.Remembers key deadline) (hnow : now < deadline)
    (other : ReplayKey) (expiry : ℤ) :
    (c.admitLocked other now expiry).2.entries.Remembers key deadline := by
  cases hlive : c.entries.live now other with
  | true =>
      rw [admitLocked_of_live expiry hlive]
      exact hrem
  | false =>
      have hinsert := hrem.insert_of_not_live hnow hlive expiry
      rcases (admitLocked_of_not_live expiry hlive).2 with hplain | hswept
      · rw [hplain]
        exact hinsert
      · rw [hswept]
        exact hinsert.sweep hnow

theorem admitLocked_admitted
    {c : ReplayCache} {key : ReplayKey} {now expiry : ℤ}
    (hlive : c.entries.live now key = false) (hexpiry : now < expiry) :
    (c.admitLocked key now expiry).2.entries.Remembers key expiry := by
  have hinsert :=
    ExpiringSet.remembers_insert_self c.entries key (le_refl expiry)
  rcases (admitLocked_of_not_live expiry hlive).2 with hplain | hswept
  · rw [hplain]
    exact hinsert
  · rw [hswept]
    exact hinsert.sweep hexpiry

theorem markSeenOrReject_remembers
    {c : ReplayCache} {key : ReplayKey} {deadline now : ℤ}
    (hrem : c.entries.Remembers key deadline) (hnow : now < deadline)
    (uuid : Uuid) (nonce : HelloNonce) :
    (c.markSeenOrReject uuid nonce now).2.entries.Remembers key deadline :=
  admitLocked_remembers hrem hnow (makeReplayKey uuid nonce) _

theorem markSeenOrReject_admitted
    {c : ReplayCache} {uuid : Uuid} {nonce : HelloNonce} {now : ℤ}
    (hpos : 0 < Int.tdiv c.window second)
    (hfirstSeen : (c.markSeenOrReject uuid nonce now).1 = true) :
    (c.markSeenOrReject uuid nonce now).2.entries.Remembers
      (makeReplayKey uuid nonce) (now + Int.tdiv c.window second) := by
  have hlive : c.entries.live now (makeReplayKey uuid nonce) = false := by
    simpa [markSeenOrReject_fst] using hfirstSeen
  exact admitLocked_admitted hlive (by omega)

theorem markSeenOrReject_rejects
    {c : ReplayCache} {uuid : Uuid} {nonce : HelloNonce} {now deadline : ℤ}
    (hrem : c.entries.Remembers (makeReplayKey uuid nonce) deadline)
    (hnow : now < deadline) :
    c.markSeenOrReject uuid nonce now = (false, c) :=
  admitLocked_of_live _ (hrem.live hnow)

end ReplayCache

end SingEwp
