import SingEwp.Handshake

/-!
# Runs of accept calls against one replay cache

A server keeps one cache and answers any number of ClientHellos with it.  A
message passes the timestamp test while the server's clock is within
`handshakeTimestampWindow` of the client's Timestamp, and the cache remembers an
admitted pair for `replayWindow` from the reading at its admission.  The two
intervals need not end together: a Timestamp ahead of the server's clock is
fresh for up to twice the timestamp window after the admission.  Messages that
fail before the cache is asked leave no trace in a run.
-/

namespace SingEwp

variable {P : Primitives}

structure AcceptCall (P : Primitives) where
  msg : Bytes
  env : AcceptEnv P

def AcceptCall.clockReadings (call : AcceptCall P) : List ℤ :=
  [call.env.checkNow, call.env.markNow, call.env.helloNow]

/-- The results of successive calls, each on the cache the last one left. -/
def acceptRun (lookup : UUIDLookup) :
    Option ReplayCache → List (AcceptCall P) →
      List (Except EwpError (Bytes × HandshakeResult))
  | _, [] => []
  | cache, call :: rest =>
      let step := acceptClientHelloWithReplay P call.msg lookup cache call.env
      step.1 :: acceptRun lookup step.2 rest

def ClockNeverDecreases (calls : List (AcceptCall P)) : Prop :=
  (calls.flatMap AcceptCall.clockReadings).Pairwise (· ≤ ·)

def AcceptedAt (lookup : UUIDLookup) (cache : Option ReplayCache)
    (calls : List (AcceptCall P)) (msg : Bytes) (i : ℕ) : Prop :=
  (∃ call, calls[i]? = some call ∧ call.msg = msg) ∧
    ∃ accepted, (acceptRun lookup cache calls)[i]? = some (.ok accepted)

/-- No byte string makes two different calls of the run succeed. -/
def AcceptsNothingTwice (lookup : UUIDLookup) (cache : Option ReplayCache)
    (calls : List (AcceptCall P)) : Prop :=
  ∀ msg i j, AcceptedAt lookup cache calls msg i →
    AcceptedAt lookup cache calls msg j → i = j

def AcceptCall.Passes (lookup : UUIDLookup) (call : AcceptCall P) : Prop :=
  ∃ uuid ch, authenticateClientHello P call.msg lookup call.env.checkNow =
    .ok (uuid, ch)

/-- Bytes that pass every test before the cache twice meet the cache the second
time within its window of the first. -/
def ReplayCovered (lookup : UUIDLookup) (calls : List (AcceptCall P)) : Prop :=
  calls.Pairwise (fun earlier later =>
    earlier.msg = later.msg → earlier.Passes lookup → later.Passes lookup →
      later.env.markNow < earlier.env.markNow + Int.tdiv replayWindow second)

/-- Every hello that passes is less than a minute ahead of the server's clock,
and the clock does not advance between the test and the cache. -/
def TimestampsNearClock (lookup : UUIDLookup)
    (calls : List (AcceptCall P)) : Prop :=
  ∀ call ∈ calls, call.env.markNow = call.env.checkNow ∧
    ∀ uuid ch,
      authenticateClientHello P call.msg lookup call.env.checkNow =
          .ok (uuid, ch) →
        ch.timestamp.toNat < call.env.markNow + 60

/-! ## Steps -/

/-- A call leaves a cache with the same window that still remembers everything
remembered beyond the call's clock. -/
theorem acceptClientHelloWithReplay_cache
    (lookup : UUIDLookup) (c : ReplayCache) (call : AcceptCall P) :
    ∃ c', (acceptClientHelloWithReplay P call.msg lookup (some c) call.env).2 =
        some c' ∧
      c'.window = c.window ∧
      ∀ key deadline, c.entries.Remembers key deadline →
        call.env.markNow < deadline → c'.entries.Remembers key deadline := by
  unfold acceptClientHelloWithReplay
  split
  · exact ⟨c, rfl, rfl, fun _ _ hrem _ => hrem⟩
  · rename_i uuid ch _
    have hwindow := ReplayCache.markSeenOrReject_window c ch.uuid ch.nonce
      call.env.markNow
    have hkept : ∀ key deadline, c.entries.Remembers key deadline →
        call.env.markNow < deadline →
        (c.markSeenOrReject ch.uuid ch.nonce
          call.env.markNow).2.entries.Remembers key deadline :=
      fun _ _ hrem hnow =>
        ReplayCache.markSeenOrReject_remembers hrem hnow ch.uuid ch.nonce
    dsimp only
    split
    · exact ⟨_, rfl, hwindow, hkept⟩
    · exact ⟨_, rfl, hwindow, hkept⟩

theorem acceptClientHelloWithReplay_rejects
    {lookup : UUIDLookup} {c : ReplayCache} {call : AcceptCall P}
    {uuid : Uuid} {ch : ClientHello} {deadline : ℤ}
    (hauth : authenticateClientHello P call.msg lookup call.env.checkNow =
      .ok (uuid, ch))
    (hrem : c.entries.Remembers (makeReplayKey ch.uuid ch.nonce) deadline)
    (hnow : call.env.markNow < deadline) :
    (acceptClientHelloWithReplay P call.msg lookup (some c) call.env).1 =
      .error .replay := by
  simp [acceptClientHelloWithReplay, hauth,
    ReplayCache.markSeenOrReject_rejects hrem hnow]

theorem authenticateClientHello_same
    {msg : Bytes} {lookup : UUIDLookup} {now now' : ℤ}
    {uuid uuid' : Uuid} {ch ch' : ClientHello}
    (hauth : authenticateClientHello P msg lookup now = .ok (uuid, ch))
    (hauth' : authenticateClientHello P msg lookup now' = .ok (uuid', ch')) :
    ch = ch' := by
  obtain ⟨_, hlookup, hdec, _⟩ := authenticateClientHello_ok hauth
  obtain ⟨_, hlookup', hdec', _⟩ := authenticateClientHello_ok hauth'
  have huuid : uuid = uuid' := Except.ok.inj (hlookup.symm.trans hlookup')
  subst huuid
  exact Except.ok.inj (hdec.symm.trans hdec')

/-! ## Runs -/

theorem ClockNeverDecreases.markNow
    {calls : List (AcceptCall P)} (hclock : ClockNeverDecreases calls) :
    calls.Pairwise (fun a b => a.env.markNow ≤ b.env.markNow) := by
  have hpairs := (List.pairwise_flatMap.mp hclock).2
  refine hpairs.imp ?_
  intro a b hab
  exact hab a.env.markNow (by simp [AcceptCall.clockReadings])
    b.env.markNow (by simp [AcceptCall.clockReadings])

theorem acceptRun_cons
    (lookup : UUIDLookup) (c : ReplayCache) (call : AcceptCall P)
    (rest : List (AcceptCall P)) :
    ∃ c', acceptRun lookup (some c) (call :: rest) =
        (acceptClientHelloWithReplay P call.msg lookup (some c) call.env).1 ::
          acceptRun lookup (some c') rest ∧
      (acceptClientHelloWithReplay P call.msg lookup (some c) call.env).2 =
        some c' ∧
      c'.window = c.window ∧
      ∀ key deadline, c.entries.Remembers key deadline →
        call.env.markNow < deadline → c'.entries.Remembers key deadline := by
  obtain ⟨c', hcache, hwindow, hkept⟩ :=
    acceptClientHelloWithReplay_cache lookup c call
  exact ⟨c', by simp [acceptRun, hcache], hcache, hwindow, hkept⟩

theorem acceptRun_rejects
    {lookup : UUIDLookup} {calls : List (AcceptCall P)} {c : ReplayCache}
    {i : ℕ} {call : AcceptCall P} {uuid : Uuid} {ch : ClientHello}
    {deadline : ℤ}
    (hclock : calls.Pairwise (fun a b => a.env.markNow ≤ b.env.markNow))
    (hcall : calls[i]? = some call)
    (hauth : authenticateClientHello P call.msg lookup call.env.checkNow =
      .ok (uuid, ch))
    (hrem : c.entries.Remembers (makeReplayKey ch.uuid ch.nonce) deadline)
    (hnow : call.env.markNow < deadline) :
    (acceptRun lookup (some c) calls)[i]? = some (.error .replay) := by
  induction calls generalizing c i with
  | nil => simp at hcall
  | cons first rest ih =>
      obtain ⟨c', hrun, _, _, hkept⟩ := acceptRun_cons lookup c first rest
      rw [hrun]
      cases i with
      | zero =>
          have hfirst : first = call := by simpa using hcall
          subst hfirst
          simp [acceptClientHelloWithReplay_rejects hauth hrem hnow]
      | succ i =>
          have hcall' : rest[i]? = some call := by simpa using hcall
          have hle : first.env.markNow ≤ call.env.markNow :=
            List.rel_of_pairwise_cons hclock (List.mem_of_getElem? hcall')
          have hrem' := hkept _ _ hrem (by omega)
          simpa using ih (List.pairwise_cons.mp hclock).2 hcall' hrem'

theorem acceptRun_passes
    {lookup : UUIDLookup} {calls : List (AcceptCall P)}
    {cache : Option ReplayCache} {i : ℕ} {call : AcceptCall P}
    {accepted : Bytes × HandshakeResult}
    (hcall : calls[i]? = some call)
    (hresult : (acceptRun lookup cache calls)[i]? = some (.ok accepted)) :
    call.Passes lookup := by
  induction calls generalizing cache i with
  | nil => simp at hcall
  | cons first rest ih =>
      cases i with
      | zero =>
          have hfirst : first = call := by simpa using hcall
          subst hfirst
          obtain ⟨uuid, ch, hauth, _⟩ :=
            acceptClientHelloWithReplay_ok (by simpa [acceptRun] using hresult)
          exact ⟨uuid, ch, hauth⟩
      | succ i => exact ih (by simpa using hcall) (by simpa [acceptRun] using hresult)

theorem not_acceptedAt_of_lt
    {lookup : UUIDLookup} {calls : List (AcceptCall P)} {c : ReplayCache}
    {msg : Bytes} {i j : ℕ}
    (hwindow : c.window = replayWindow)
    (hclock : calls.Pairwise (fun a b => a.env.markNow ≤ b.env.markNow))
    (hcovered : ReplayCovered lookup calls) (hij : i < j)
    (hi : AcceptedAt lookup (some c) calls msg i)
    (hj : AcceptedAt lookup (some c) calls msg j) : False := by
  induction calls generalizing c i j with
  | nil =>
      obtain ⟨⟨call, hcall, _⟩, _⟩ := hi
      simp at hcall
  | cons first rest ih =>
      obtain ⟨c', hrun, hcache, hwindow', _⟩ := acceptRun_cons lookup c first rest
      obtain ⟨⟨ci, hci, hmsgi⟩, accepted, hresi⟩ := hi
      obtain ⟨⟨cj, hcj, hmsgj⟩, accepted', hresj⟩ := hj
      obtain ⟨j, rfl⟩ : ∃ j', j = j' + 1 := ⟨j - 1, by omega⟩
      rw [hrun] at hresi hresj
      simp only [List.getElem?_cons_succ] at hcj hresj
      obtain ⟨hpairs, hrest⟩ := List.pairwise_cons.mp hcovered
      have hclock' := (List.pairwise_cons.mp hclock).2
      cases i with
      | zero =>
          have hfirst : first = ci := by simpa using hci
          subst hfirst
          obtain ⟨uuid, ch, hauth, _, hfirstSeen⟩ :=
            acceptClientHelloWithReplay_ok (by simpa using hresi)
          obtain ⟨hmark, hleft⟩ := hfirstSeen c rfl
          obtain ⟨uuid', ch', hauth'⟩ := acceptRun_passes hcj hresj
          have hsame : first.msg = cj.msg := hmsgi.trans hmsgj.symm
          have hnow := hpairs cj (List.mem_of_getElem? hcj) hsame
            ⟨uuid, ch, hauth⟩ ⟨uuid', ch', hauth'⟩
          rw [hsame] at hauth
          have hch := authenticateClientHello_same hauth hauth'
          -- the first call leaves the pair remembered for the whole window,
          -- and the later call falls within it
          have hrem := ReplayCache.markSeenOrReject_admitted
            (by rw [hwindow]; decide) hmark
          rw [hwindow, hch] at hrem
          have hc' : (c.markSeenOrReject ch'.uuid ch'.nonce
              first.env.markNow).2 = c' := by
            rw [← hch]
            exact Option.some.inj (hleft.symm.trans hcache)
          rw [hc'] at hrem
          rw [acceptRun_rejects hclock' hcj hauth' hrem hnow] at hresj
          simp at hresj
      | succ i =>
          simp only [List.getElem?_cons_succ] at hci hresi
          exact ih (hwindow'.trans hwindow) hclock' hrest (by omega)
            ⟨⟨ci, hci, hmsgi⟩, accepted, hresi⟩
            ⟨⟨cj, hcj, hmsgj⟩, accepted', hresj⟩

/-- No bytes are accepted twice in a run whose repeated presentations fall
within the cache's window. -/
theorem acceptsNothingTwice_of_replayCovered
    (users : List Uuid) (calls : List (AcceptCall P))
    (hclock : ClockNeverDecreases calls)
    (hcovered : ReplayCovered (makeUUIDLookup P users) calls) :
    AcceptsNothingTwice (makeUUIDLookup P users)
      (some (newReplayCache replayWindow)) calls := by
  intro msg i j hi hj
  by_contra hne
  rcases Nat.lt_or_gt_of_ne hne with hlt | hgt
  · exact not_acceptedAt_of_lt rfl hclock.markNow hcovered hlt hi hj
  · exact not_acceptedAt_of_lt rfl hclock.markNow hcovered hgt hj hi

theorem replayCovered_of_timestampsNearClock
    {lookup : UUIDLookup} {calls : List (AcceptCall P)}
    (hnear : TimestampsNearClock lookup calls) :
    ReplayCovered lookup calls := by
  refine List.Pairwise.imp_of_mem ?_
    (List.pairwise_of_forall (R := fun _ _ => True) (fun _ _ => trivial))
  intro earlier later hearlier hlater _ hsame hpass hpass'
  obtain ⟨uuid, ch, hauth⟩ := hpass
  obtain ⟨uuid', ch', hauth'⟩ := hpass'
  have hahead := (hnear earlier hearlier).2 uuid ch hauth
  have hclock := (hnear later hlater).1
  rw [hsame] at hauth
  have hch := authenticateClientHello_same hauth hauth'
  obtain ⟨_, _, _, _, _, hfresh⟩ := authenticateClientHello_ok hauth'
  rw [← hch] at hfresh
  have hwindow : Int.tdiv replayWindow second = 180 := by decide
  unfold absDiff at hfresh
  simp at hfresh
  split at hfresh <;> omega

theorem hello_repeated_accepted_once :
    ∃ wire, encodeClientHello Transparent.suite (Transparent.hello 1000)
        Transparent.zeroDraws = .ok wire ∧
      AcceptedAt (makeUUIDLookup Transparent.suite [Transparent.user])
        (some (newReplayCache replayWindow))
        [AcceptCall.mk wire (Transparent.acceptEnv 1000),
          AcceptCall.mk wire (Transparent.acceptEnv 1000)] wire 0 ∧
      AcceptsNothingTwice
        (makeUUIDLookup Transparent.suite [Transparent.user])
        (some (newReplayCache replayWindow))
        [AcceptCall.mk wire (Transparent.acceptEnv 1000),
          AcceptCall.mk wire (Transparent.acceptEnv 1000)] := by
  obtain ⟨wire, henc⟩ := Transparent.hello_encodes 1000
  have hauth := Transparent.authenticateClientHello_hello henc
    (show absDiff (1000 : UInt32).toNat 1000 ≤ 120 by decide)
  have hnear : TimestampsNearClock
      (makeUUIDLookup Transparent.suite [Transparent.user])
      [AcceptCall.mk wire (Transparent.acceptEnv 1000),
        AcceptCall.mk wire (Transparent.acceptEnv 1000)] := by
    intro call hcall
    obtain rfl : call = AcceptCall.mk wire (Transparent.acceptEnv 1000) := by
      simpa using hcall
    refine ⟨rfl, ?_⟩
    intro uuid ch hpass
    rw [authenticateClientHello_same hpass hauth]
    change ((1000 : UInt32).toNat : ℤ) < 1000 + 60
    decide
  have hclock : ClockNeverDecreases
      [AcceptCall.mk wire (Transparent.acceptEnv 1000),
        AcceptCall.mk wire (Transparent.acceptEnv 1000)] := by
    simp [ClockNeverDecreases, AcceptCall.clockReadings, Transparent.acceptEnv]
  obtain ⟨accepted, hanswer⟩ :=
    Transparent.answerClientHello_acceptEnv Transparent.user
      (Transparent.hello 1000).wireNorm 1000
  refine ⟨wire, henc, ⟨⟨_, rfl, rfl⟩, accepted, ?_⟩,
    acceptsNothingTwice_of_replayCovered [Transparent.user] _ hclock
      (replayCovered_of_timestampsNearClock hnear)⟩
  have hcheck : (Transparent.acceptEnv 1000).checkNow = 1000 := rfl
  have hfirst : ((newReplayCache replayWindow).markSeenOrReject
      (Transparent.hello 1000).wireNorm.uuid
      (Transparent.hello 1000).wireNorm.nonce
      (Transparent.acceptEnv 1000).markNow).1 = true := rfl
  simp [acceptRun, acceptClientHelloWithReplay, hcheck, hauth, hfirst, hanswer]

/-! ## Replays after the window -/

theorem markSeenOrReject_again
    (uuid : Uuid) (nonce : HelloNonce) {now later : ℤ}
    (hgap : now + Int.tdiv replayWindow second ≤ later) :
    ((newReplayCache replayWindow).markSeenOrReject uuid nonce now).1 = true ∧
      (((newReplayCache replayWindow).markSeenOrReject uuid nonce
        now).2.markSeenOrReject uuid nonce later).1 = true := by
  have hfirst : (newReplayCache replayWindow).markSeenOrReject uuid nonce now =
      (true,
        { entries := AList.insert (makeReplayKey uuid nonce)
            (now + Int.tdiv replayWindow second) ∅
          window := replayWindow
          gcCounter := 1 }) := rfl
  rw [hfirst]
  refine ⟨rfl, ?_⟩
  have hlookup : (AList.insert (makeReplayKey uuid nonce)
      (now + Int.tdiv replayWindow second) (∅ : ExpiringSet ReplayKey)).lookup
        (makeReplayKey uuid nonce) =
      some (now + Int.tdiv replayWindow second) :=
    AList.lookup_insert _
  rw [ReplayCache.markSeenOrReject_fst]
  simp only [ExpiringSet.live, hlookup]
  simpa using hgap

theorem acceptedAt_again
    {lookup : UUIDLookup} (first again : AcceptCall P)
    {uuid uuid' : Uuid} {ch : ClientHello}
    (hsame : again.msg = first.msg)
    (hauth : authenticateClientHello P first.msg lookup first.env.checkNow =
      .ok (uuid, ch))
    (hauth' : authenticateClientHello P again.msg lookup
      again.env.checkNow = .ok (uuid', ch))
    (hanswer : ∃ accepted, answerClientHello P uuid ch first.env = .ok accepted)
    (hanswer' : ∃ accepted,
      answerClientHello P uuid' ch again.env = .ok accepted)
    (hgap : first.env.markNow + Int.tdiv replayWindow second ≤
      again.env.markNow) :
    AcceptedAt lookup (some (newReplayCache replayWindow)) [first, again]
        first.msg 0 ∧
      AcceptedAt lookup (some (newReplayCache replayWindow)) [first, again]
        first.msg 1 := by
  obtain ⟨accepted, hanswer⟩ := hanswer
  obtain ⟨accepted', hanswer'⟩ := hanswer'
  obtain ⟨hmark, hmark'⟩ := markSeenOrReject_again ch.uuid ch.nonce hgap
  have hrun : acceptRun lookup (some (newReplayCache replayWindow))
      [first, again] = [.ok accepted, .ok accepted'] := by
    simp [acceptRun, acceptClientHelloWithReplay, hauth, hauth', hanswer,
      hanswer', hmark, hmark']
  refine ⟨⟨⟨first, rfl, rfl⟩, accepted, ?_⟩,
    ⟨⟨again, rfl, hsame⟩, accepted', ?_⟩⟩
  · rw [hrun]; rfl
  · rw [hrun]; rfl

/-- A client two minutes ahead of the server's clock: the same bytes are
accepted at 1000 and again at 1180. -/
theorem hello_ahead_accepted_twice :
    ∃ wire, encodeClientHello Transparent.suite (Transparent.hello 1120)
        Transparent.zeroDraws = .ok wire ∧
      ClockNeverDecreases [AcceptCall.mk wire (Transparent.acceptEnv 1000),
        AcceptCall.mk wire (Transparent.acceptEnv 1180)] ∧
      ¬AcceptsNothingTwice
        (makeUUIDLookup Transparent.suite [Transparent.user])
        (some (newReplayCache replayWindow))
        [AcceptCall.mk wire (Transparent.acceptEnv 1000),
          AcceptCall.mk wire (Transparent.acceptEnv 1180)] := by
  obtain ⟨wire, henc⟩ := Transparent.hello_encodes 1120
  have hauth := Transparent.authenticateClientHello_hello henc
    (show absDiff (1120 : UInt32).toNat 1000 ≤ 120 by decide)
  have hauth' := Transparent.authenticateClientHello_hello henc
    (show absDiff (1120 : UInt32).toNat 1180 ≤ 120 by decide)
  refine ⟨wire, henc, ?_, ?_⟩
  · simp [ClockNeverDecreases, AcceptCall.clockReadings, Transparent.acceptEnv]
  · intro honce
    have hgap : (1000 : ℤ) + Int.tdiv replayWindow second ≤ 1180 := by decide
    obtain ⟨hfirst, hagain⟩ := acceptedAt_again
      (AcceptCall.mk wire (Transparent.acceptEnv 1000))
      (AcceptCall.mk wire (Transparent.acceptEnv 1180))
      rfl hauth hauth'
      (Transparent.answerClientHello_acceptEnv _ _ _)
      (Transparent.answerClientHello_acceptEnv _ _ _) hgap
    exact absurd (honce _ _ _ hfirst hagain) (by decide)

/-! ## Calls that end before the cache -/

/-- The cache that successive calls leave behind. -/
def acceptRunCache (lookup : UUIDLookup) (cache : Option ReplayCache)
    (calls : List (AcceptCall P)) : Option ReplayCache :=
  calls.foldl
    (fun cache call =>
      (acceptClientHelloWithReplay P call.msg lookup cache call.env).2)
    cache

/-- The elements at the positions that are not marked as deleted. -/
def remaining {α : Type} (deleted : List Bool) (xs : List α) : List α :=
  ((deleted.zip xs).filter (fun x => !x.1)).map Prod.snd

@[simp] theorem remaining_cons_true
    {α : Type} (deleted : List Bool) (x : α) (xs : List α) :
    remaining (true :: deleted) (x :: xs) = remaining deleted xs := rfl

theorem acceptClientHelloWithReplay_of_not_passes
    {lookup : UUIDLookup} {call : AcceptCall P} (hfails : ¬call.Passes lookup)
    (cache : Option ReplayCache) :
    (acceptClientHelloWithReplay P call.msg lookup cache call.env).2 =
      cache := by
  unfold acceptClientHelloWithReplay
  cases hauth : authenticateClientHello P call.msg lookup call.env.checkNow with
  | error e => rfl
  | ok pair => exact absurd ⟨pair.1, pair.2, hauth⟩ hfails

/-- Deleting calls that fail before the replay check changes neither the
outcomes of the other calls nor the cache at the end. -/
theorem acceptRun_remaining
    (P : Primitives) (users : List Uuid) (cache : Option ReplayCache)
    (calls : List (AcceptCall P)) (deleted : List Bool)
    (hlength : deleted.length = calls.length)
    (hfails : ∀ x ∈ deleted.zip calls, x.1 = true →
      ¬x.2.Passes (makeUUIDLookup P users)) :
    remaining deleted (acceptRun (makeUUIDLookup P users) cache calls) =
        acceptRun (makeUUIDLookup P users) cache (remaining deleted calls) ∧
      acceptRunCache (makeUUIDLookup P users) cache calls =
        acceptRunCache (makeUUIDLookup P users) cache
          (remaining deleted calls) := by
  induction calls generalizing cache deleted with
  | nil => simp [remaining, acceptRun]
  | cons call rest ih =>
      cases deleted with
      | nil => simp at hlength
      | cons mark deleted =>
          simp only [List.zip_cons_cons, List.mem_cons, forall_eq_or_imp]
            at hfails
          obtain ⟨hcall, hrest⟩ := hfails
          have hkept := fun cache =>
            ih cache deleted (by simpa using hlength) hrest
          cases mark with
          | true =>
              have hcache := acceptClientHelloWithReplay_of_not_passes
                (hcall rfl) cache
              simpa only [acceptRun, acceptRunCache, List.foldl_cons, hcache,
                remaining_cons_true] using hkept cache
          | false =>
              obtain ⟨hresults, hcache⟩ := hkept
                (acceptClientHelloWithReplay P call.msg
                  (makeUUIDLookup P users) cache call.env).2
              exact ⟨congrArg _ hresults, hcache⟩

/-- Two stray messages around a hello. -/
theorem acceptRun_remaining_hello :
    ∃ wire, encodeClientHello Transparent.suite (Transparent.hello 1000)
        Transparent.zeroDraws = .ok wire ∧
      remaining [true, false, true]
          (acceptRun (makeUUIDLookup Transparent.suite [Transparent.user])
            (some (newReplayCache replayWindow))
            [AcceptCall.mk [1] (Transparent.acceptEnv 1000),
              AcceptCall.mk wire (Transparent.acceptEnv 1000),
              AcceptCall.mk [] (Transparent.acceptEnv 1000)]) =
        acceptRun (makeUUIDLookup Transparent.suite [Transparent.user])
          (some (newReplayCache replayWindow))
          [AcceptCall.mk wire (Transparent.acceptEnv 1000)] := by
  obtain ⟨wire, henc⟩ := Transparent.hello_encodes 1000
  have hshort : ∀ msg : Bytes, msg.length < outerMACLen →
      ¬(AcceptCall.mk msg (Transparent.acceptEnv 1000)).Passes
        (makeUUIDLookup Transparent.suite [Transparent.user]) := by
    rintro msg hmsg ⟨uuid, ch, hauth⟩
    have hlen := (authenticateClientHello_ok hauth).1
    dsimp only at hlen
    omega
  have hkept := acceptRun_remaining Transparent.suite [Transparent.user]
    (some (newReplayCache replayWindow))
    [AcceptCall.mk [1] (Transparent.acceptEnv 1000),
      AcceptCall.mk wire (Transparent.acceptEnv 1000),
      AcceptCall.mk [] (Transparent.acceptEnv 1000)]
    [true, false, true] rfl (by
      simp only [List.zip_cons_cons, List.zip_nil_right, List.mem_cons,
        List.not_mem_nil, or_false, forall_eq_or_imp, forall_eq]
      exact ⟨fun _ => hshort [1] (by decide), by simp,
        fun _ => hshort [] (by decide)⟩)
  exact ⟨wire, henc, hkept.1⟩

end SingEwp
