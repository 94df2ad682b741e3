import SingEwp.ReplayConcurrency
import SingEwp.Service
import SingEwp.ThreadViews
import SingEwp.UserTable

/-!
# A service under concurrent use

`HandleConn` calls next to `AddUser`, `RemoveUser`, `Users` and `SetReplayCache`
calls on one `Service` of `server.go`.  A handshake takes the lookup and the
cache pointer under `usersMu`, lets the mutex go and works with them for as long
as it takes: it scans the lookup entry by entry while the table is edited, and
consults the cache after it may have been replaced.  It still decides as
`handleTransport` does on the list of users at the moment of its snapshot.
-/

namespace SingEwp

/-! ## The service -/

/-- A `ReplayCache`, with a record of its critical sections. -/
structure CacheCell where
  cache : ReplayCache
  marks : List MarkEvent

/-- The fields of a `Service`, the caches by their addresses, and the clock. -/
structure ServiceState where
  table : UserTable
  replay : Option ℕ
  caches : ℕ → CacheCell
  clock : ℤ

/-- `NewService` with its own cache at address 0. -/
def newService (caches : ℕ → ReplayCache) (clock : ℤ) : ServiceState where
  table := newUserTable
  replay := some 0
  caches := Function.update (fun k => ⟨caches k, []⟩) 0
    ⟨newReplayCache replayWindow, []⟩
  clock := clock

inductive ServiceLabel where
  | snapshot
  | entry
  | checkTime
  | mark (label : MarkLabel)
  | answer
  | usersMu
  deriving DecidableEq

/-- An action of a service thread; before it any time may pass. -/
abbrev ServiceProc := Proc ServiceLabel ℕ ServiceState

namespace ServiceState

def tick (s : ServiceState) (elapsed : ℕ) : ServiceState :=
  { s with clock := s.clock + elapsed }

/-- A cache as the calls of `MarkSeenOrReject` on it see it. -/
def markState (k : ℕ) (s : ServiceState) : MarkState where
  cache := (s.caches k).cache
  clock := s.clock
  marks := (s.caches k).marks

def putMark (k : ℕ) (m : MarkState) (s : ServiceState) : ServiceState :=
  { s with
    clock := m.clock
    caches := Function.update s.caches k ⟨m.cache, m.marks⟩ }

end ServiceState

variable {P : Primitives}

def timed {α : Type} (label : ServiceLabel)
    (body : ServiceState → α × ServiceState) : ServiceProc α :=
  Proc.atomic label (fun elapsed s => body (s.tick elapsed))

/-! ## A handshake -/

/-- The loop of a lookup over its slice, from entry `i` on with `n` left. -/
def scanUsers (P : Primitives) (msg : Bytes) (tag : FixedBytes outerMACLen)
    (snapshot : SliceRef) : ℕ → ℕ → ServiceProc (Except EwpError Uuid)
  | _, 0 => .ret (.error .unknownUUID)
  | i, n + 1 =>
      (timed .entry (fun s => ((s.table.heap.read snapshot).getD i zeroUuid, s))).bind
        fun u =>
          if verifyOuterMAC P u msg tag then .ret (.ok u)
          else scanUsers P msg tag snapshot (i + 1) n

/-- The checks before the cache is consulted.  What `authenticateClientHello`
does with the result of the lookup is the source's; here the lookup has been
scanned already. -/
def authenticateCall (P : Primitives) (snapshot : SliceRef) (msg : Bytes) :
    ServiceProc (Except EwpError (Uuid × ClientHello)) :=
  if msg.length < outerMACLen then .ret (.error .handshakeShort)
  else
    let macStart := msg.length - outerMACLen
    (scanUsers P (msg.take macStart)
      (FixedBytes.copyFrom outerMACLen (msg.drop macStart)) snapshot 0
      snapshot.len).bind fun found =>
        timed .checkTime (fun s =>
          (authenticateClientHello P msg (fun _ _ => found) (unixSeconds s.clock),
            s))

/-- `MarkSeenOrReject` on the cache at address `k`. -/
def markAt (call k : ℕ) (uuid : Uuid) (nonce : HelloNonce) : ServiceProc Bool :=
  (markCall call uuid nonce).embed .mark (fun elapsed _ => elapsed)
    (ServiceState.markState k) (fun _ => ServiceState.putMark k)

def markReplay (call : ℕ) (replay : Option ℕ) (ch : ClientHello) :
    ServiceProc Bool :=
  match replay with
  | none => .ret true
  | some k => markAt call k ch.uuid ch.nonce

def answerAt (P : Primitives) (uuid : Uuid) (ch : ClientHello) (env : AcceptEnv P) :
    ServiceProc (Except EwpError (Bytes × HandshakeResult)) :=
  timed .answer (fun s =>
    (answerClientHello P uuid ch { env with helloNow := unixSeconds s.clock }, s))

/-- `AcceptClientHelloWithReplay` with the lookup and the cache of a snapshot. -/
def acceptCall (P : Primitives) (call : ℕ) (snapshot : SliceRef)
    (replay : Option ℕ) (msg : Bytes) (env : AcceptEnv P) :
    ServiceProc (Except EwpError (Bytes × HandshakeResult)) :=
  (authenticateCall P snapshot msg).bind fun checked =>
    match checked with
    | .error e => .ret (.error e)
    | .ok (uuid, ch) =>
        (markReplay call replay ch).bind fun admitted =>
          if admitted then answerAt P uuid ch env
          else .ret (.error .replay)

/-- The part of `handleTransport` after `AcceptClientHelloWithReplay`. -/
def serveAccepted (P : Primitives) (env : ServeEnv P)
    (accepted : Except EwpError (Bytes × HandshakeResult)) : ServeRun :=
  match accepted with
  | .error e =>
      { calls := [.readMessage, .close]
        err := some (.acceptClientHello e), replay := none }
  | .ok (helloOut, res) =>
      match env.send helloOut with
      | some e =>
          { calls := [.readMessage, .sendMessage helloOut false, .close]
            err := some (.sendServerHello e), replay := none }
      | none =>
          match res.clientHello with
          | none =>
              { calls := [.readMessage, .sendMessage helloOut true]
                panicked := true, replay := none }
          | some ch =>
              dispatch P res.keys ch env.inbox env.lost
                { calls := [.readMessage, .sendMessage helloOut true]
                  replay := none }

/-- `handleTransport` as the `call`-th thread.  A lookup is there from
`NewService` on; the cache is shared, so the run itself carries none. -/
def handleCall (P : Primitives) (call : ℕ) (env : ServeEnv P) :
    ServiceProc ServeRun :=
  (timed .snapshot (fun s => ((s.table.lookup, s.replay), s))).bind fun snap =>
    match env.hello with
    | .error e =>
        .ret
          { calls := [.readMessage, .close]
            err := some (.readClientHello e), replay := none }
    | .ok helloIn =>
        (acceptCall P call snap.1 snap.2 helloIn env.accept).bind fun accepted =>
          .ret (serveAccepted P env accepted)

/-! ## The calls on a service -/

inductive ServiceCall (P : Primitives) where
  | handle (env : ServeEnv P)
  | addUser (uuidStr : Bytes) (spare : ℕ)
  | removeUser (uuidStr : Bytes)
  | users
  | setReplayCache (replay : Option ℕ)

inductive ServiceResult where
  | handled (run : ServeRun)
  | added (result : Except UuidError Unit)
  | removed (found : Bool)
  | users (list : List Uuid)
  | cacheSet

def serviceThread (P : Primitives) (i : ℕ) :
    ServiceCall P → ServiceProc ServiceResult
  | .handle env => (handleCall P i env).bind fun run => .ret (.handled run)
  | .addUser uuidStr spare =>
      timed .usersMu (fun s =>
        (.added (addUser spare uuidStr s.table).1,
          { s with table := (addUser spare uuidStr s.table).2 }))
  | .removeUser uuidStr =>
      timed .usersMu (fun s =>
        (.removed (removeUser uuidStr s.table).1,
          { s with table := (removeUser uuidStr s.table).2 }))
  | .users => timed .usersMu (fun s => (.users s.table.list, s))
  | .setReplayCache replay =>
      timed .usersMu (fun s => (.cacheSet, { s with replay := replay }))

/-- Any number of calls on a new service. -/
def servicePool (P : Primitives) (caches : ℕ → ReplayCache) (clock : ℤ)
    (calls : List (ServiceCall P)) :
    Pool ServiceLabel ℕ ServiceState ServiceResult where
  shared := newService caches clock
  threads := calls.mapIdx (serviceThread P)

theorem servicePool_thread
    {caches : ℕ → ReplayCache} {clock : ℤ} {calls : List (ServiceCall P)} {i : ℕ}
    {p : ServiceProc ServiceResult}
    (hp : (servicePool P caches clock calls).threads[i]? = some p) :
    ∃ call, calls[i]? = some call ∧ p = serviceThread P i call := by
  simp only [servicePool, List.getElem?_mapIdx, Option.map_eq_some_iff] at hp
  obtain ⟨call, hcall, rfl⟩ := hp
  exact ⟨call, hcall, rfl⟩

/-! ## What an action does to the table and the caches -/

namespace ServiceState

@[simp] theorem tick_table (s : ServiceState) (elapsed : ℕ) :
    (s.tick elapsed).table = s.table := rfl

@[simp] theorem putMark_table (k : ℕ) (m : MarkState) (s : ServiceState) :
    (s.putMark k m).table = s.table := rfl

@[simp] theorem markState_putMark (k : ℕ) (m : MarkState) (s : ServiceState) :
    (s.putMark k m).markState k = m := by
  simp [markState, putMark]

theorem markState_putMark_of_ne
    {k l : ℕ} (hne : l ≠ k) (m : MarkState) (s : ServiceState) :
    (s.putMark k m).markState l = { s.markState l with clock := m.clock } := by
  simp [markState, putMark, Function.update_of_ne hne]

/-- Snapshots stay readable, time passes, the records of the caches get longer
and their windows stay. -/
structure Grows (s s' : ServiceState) : Prop where
  spares : Spares s.table s'.table
  marks : ∀ k, (s.markState k).Grows (s'.markState k)
  window : ∀ k, (s'.markState k).cache.window = (s.markState k).cache.window

theorem Grows.clock {s s' : ServiceState} (hgrows : s.Grows s') :
    s.clock ≤ s'.clock :=
  (hgrows.marks 0).1

theorem Grows.refl (s : ServiceState) : s.Grows s where
  spares := fun _ hs hapart => ⟨hs, rfl, hapart⟩
  marks := fun _ => .refl _
  window := fun _ => rfl

theorem Grows.trans
    {a b c : ServiceState} (hab : a.Grows b) (hbc : b.Grows c) : a.Grows c where
  spares := hab.spares.trans hbc.spares
  marks := fun k => (hab.marks k).trans (hbc.marks k)
  window := fun k => (hbc.window k).trans (hab.window k)

theorem grows_putMark
    {k : ℕ} {m : MarkState} {s : ServiceState} (hgrows : (s.markState k).Grows m)
    (hwindow : m.cache.window = (s.markState k).cache.window) :
    s.Grows (s.putMark k m) where
  spares := fun _ hs hapart => ⟨hs, rfl, hapart⟩
  marks := by
    intro l
    by_cases heq : l = k
    · subst heq
      rwa [markState_putMark]
    · rw [markState_putMark_of_ne heq]
      exact ⟨hgrows.1, List.prefix_rfl⟩
  window := by
    intro l
    by_cases heq : l = k
    · subst heq
      rwa [markState_putMark]
    · rw [markState_putMark_of_ne heq]

end ServiceState

/-- What a call may bring into a service. -/
structure Brings where
  user : Uuid → Prop
  cache : Option ℕ → Prop

def ServiceCall.brings : ServiceCall P → Brings
  | .addUser uuidStr _ =>
      { user := fun u => parseUUID uuidStr = .ok u, cache := fun _ => False }
  | .setReplayCache replay =>
      { user := fun _ => False, cache := fun installed => installed = replay }
  | _ => { user := fun _ => False, cache := fun _ => False }

namespace ServiceState

/-- One action on a sound table: it leaves a sound table, the state grows, and
nothing enters but what the call brings. -/
structure Advances (brings : Brings) (s s' : ServiceState) : Prop where
  sound : s'.table.Sound
  grows : s.Grows s'
  enters : ∀ u ∈ s'.table.list, u ∈ s.table.list ∨ brings.user u
  installs : s'.replay = s.replay ∨ brings.cache s'.replay

theorem Advances.of_table_eq
    {brings : Brings} {s s' : ServiceState} (hsound : s.table.Sound)
    (htable : s'.table = s.table) (hreplay : s'.replay = s.replay)
    (hgrows : s.Grows s') : s.Advances brings s' where
  sound := htable ▸ hsound
  grows := hgrows
  enters := fun _ hu => Or.inl (htable ▸ hu)
  installs := Or.inl hreplay

theorem Advances.mono
    {brings brings' : Brings} {s s' : ServiceState}
    (hadvances : s.Advances brings s') (huser : ∀ u, brings.user u → brings'.user u)
    (hcache : ∀ replay, brings.cache replay → brings'.cache replay) :
    s.Advances brings' s' where
  sound := hadvances.sound
  grows := hadvances.grows
  enters := fun u hu => (hadvances.enters u hu).imp_right (huser u)
  installs := hadvances.installs.imp_right (hcache _)

end ServiceState

def ServiceAction (brings : Brings) (_ : ServiceLabel)
    (update : ℕ → ServiceState → ServiceState) : Prop :=
  ∀ (elapsed : ℕ) (s : ServiceState), s.table.Sound →
    s.Advances brings (update elapsed s)

/-- An action that leaves the caches alone. -/
def QuietAction (brings : Brings) (label : ServiceLabel)
    (update : ℕ → ServiceState → ServiceState) : Prop :=
  ServiceAction brings label update ∧ ∀ (elapsed : ℕ) (s : ServiceState) (k : ℕ),
    (update elapsed s).markState k = (s.markState k).tick elapsed

theorem QuietAction.caches
    {brings : Brings} {label : ServiceLabel}
    {update : ℕ → ServiceState → ServiceState}
    (hquiet : QuietAction brings label update) (elapsed : ℕ) (s : ServiceState) :
    (update elapsed s).caches = s.caches := by
  funext k
  have hmark := hquiet.2 elapsed s k
  have hcache : ((update elapsed s).caches k).cache = (s.caches k).cache :=
    congrArg MarkState.cache hmark
  have hmarks : ((update elapsed s).caches k).marks = (s.caches k).marks :=
    congrArg MarkState.marks hmark
  generalize (update elapsed s).caches k = cell at hcache hmarks
  obtain ⟨cache, marks⟩ := cell
  subst hcache hmarks
  rfl

theorem ServiceAction.mono
    {brings brings' : Brings} (huser : ∀ u, brings.user u → brings'.user u)
    (hcache : ∀ replay, brings.cache replay → brings'.cache replay)
    {label : ServiceLabel} {update : ℕ → ServiceState → ServiceState}
    (haction : ServiceAction brings label update) :
    ServiceAction brings' label update :=
  fun elapsed s hsound => (haction elapsed s hsound).mono huser hcache

section Acts

variable {brings : Brings}

/-- Under the mutex: only the table and the pointer change. -/
theorem timed_quiet
    {α : Type} {label : ServiceLabel} {body : ServiceState → α × ServiceState}
    (hmarks : ∀ s k, (body s).2.markState k = s.markState k)
    (hspares : ∀ s : ServiceState, s.table.Sound →
      Spares s.table (body s).2.table ∧ (body s).2.table.Sound)
    (henters : ∀ s : ServiceState, s.table.Sound → ∀ u ∈ (body s).2.table.list,
      u ∈ s.table.list ∨ brings.user u)
    (hinstalls : ∀ s, (body s).2.replay = s.replay ∨
      brings.cache (body s).2.replay) :
    Proc.Acts (QuietAction brings) (timed label body) := by
  refine .atomic ⟨fun elapsed s hsound => ?_, fun elapsed s k => hmarks _ k⟩
  have hmarks' : ∀ k, (body (s.tick elapsed)).2.markState k =
      (s.markState k).tick elapsed := hmarks _
  refine ⟨(hspares (s.tick elapsed) hsound).2,
    ⟨(hspares (s.tick elapsed) hsound).1, fun k => ?_, fun k => ?_⟩,
    henters (s.tick elapsed) hsound, hinstalls (s.tick elapsed)⟩
  · rw [hmarks' k]
    exact MarkState.grows_tick _ elapsed
  · rw [hmarks' k]
    rfl

theorem timed_read_quiet
    {α : Type} {label : ServiceLabel} (read : ServiceState → α) :
    Proc.Acts (QuietAction brings) (timed label (fun s => (read s, s))) :=
  timed_quiet (fun _ _ => rfl)
    (fun _ hsound => ⟨fun _ hs hapart => ⟨hs, rfl, hapart⟩, hsound⟩)
    (fun _ _ _ hu => Or.inl hu) (fun _ => Or.inl rfl)

theorem scanUsers_quiet
    (msg : Bytes) (tag : FixedBytes outerMACLen) (snapshot : SliceRef) (i n : ℕ) :
    Proc.Acts (QuietAction brings) (scanUsers P msg tag snapshot i n) := by
  induction n generalizing i with
  | zero => trivial
  | succ n ih =>
      refine (timed_read_quiet _).bind fun u => ?_
      split
      · trivial
      · exact ih (i + 1)

theorem authenticateCall_quiet (snapshot : SliceRef) (msg : Bytes) :
    Proc.Acts (QuietAction brings) (authenticateCall P snapshot msg) := by
  unfold authenticateCall
  split
  · trivial
  · exact (scanUsers_quiet _ _ _ _ _).bind fun found => timed_read_quiet _

theorem markAt_acts (call k : ℕ) (uuid : Uuid) (nonce : HelloNonce) :
    Proc.Acts (ServiceAction brings) (markAt call k uuid nonce) := by
  unfold markAt markCall
  rw [Proc.bind_eq, Proc.embed_bind, Proc.embed_atomic]
  refine Proc.Acts.bind (.atomic ?_) fun times => ?_
  · intro elapsed s hsound
    exact .of_table_eq hsound rfl rfl
      (s.grows_putMark ((s.markState k).grows_tick elapsed) rfl)
  · rw [Proc.embed_atomic]
    refine .atomic fun elapsed s hsound => .of_table_eq hsound rfl rfl ?_
    refine s.grows_putMark (((s.markState k).grows_tick elapsed).trans
      (MarkState.grows_enter _ _ _ _ _)) ?_
    exact ReplayCache.admitLocked_window _ _ _ _

theorem acceptCall_acts
    (call : ℕ) (snapshot : SliceRef) (replay : Option ℕ) (msg : Bytes)
    (env : AcceptEnv P) :
    Proc.Acts (ServiceAction brings)
      (acceptCall P call snapshot replay msg env) := by
  refine Proc.Acts.bind ((authenticateCall_quiet _ _).mono fun _ _ => And.left)
    fun checked => ?_
  cases checked with
  | error e => trivial
  | ok pair =>
      refine Proc.Acts.bind ?_ fun admitted => ?_
      · cases replay with
        | none => trivial
        | some k => exact markAt_acts call k _ _
      · split
        · exact (timed_read_quiet _).mono fun _ _ => And.left
        · trivial

theorem handleCall_acts (call : ℕ) (env : ServeEnv P) :
    Proc.Acts (ServiceAction brings) (handleCall P call env) := by
  refine ((timed_read_quiet _).mono fun _ _ => And.left).bind fun snap => ?_
  cases env.hello with
  | error e => trivial
  | ok helloIn => exact (acceptCall_acts _ _ _ _ _).bind fun _ => trivial

end Acts

theorem addUser_spares
    {t : UserTable} (hsound : t.Sound) (uuidStr : Bytes) (spare : ℕ) :
    (Spares t (addUser spare uuidStr t).2 ∧ (addUser spare uuidStr t).2.Sound) ∧
      ∀ u ∈ (addUser spare uuidStr t).2.list,
        u ∈ t.list ∨ parseUUID uuidStr = .ok u := by
  cases hparse : parseUUID uuidStr with
  | error e =>
      rw [addUser_error hparse]
      exact ⟨⟨fun _ hs hapart => ⟨hs, rfl, hapart⟩, hsound⟩, fun u hu => Or.inl hu⟩
  | ok added =>
      obtain ⟨-, hleads⟩ := addUser_leadsTo hsound hparse spare
      refine ⟨⟨hleads.spares, hleads.sound⟩, fun u hu => ?_⟩
      rw [hleads.list_eq] at hu
      split at hu
      · exact Or.inl hu
      · refine (List.mem_append.mp hu).imp_right fun hnew => ?_
        rw [List.mem_singleton.mp hnew]

theorem removeUser_spares
    {t : UserTable} (hsound : t.Sound) (uuidStr : Bytes) :
    (Spares t (removeUser uuidStr t).2 ∧ (removeUser uuidStr t).2.Sound) ∧
      ∀ u ∈ (removeUser uuidStr t).2.list, u ∈ t.list := by
  cases hparse : parseUUID uuidStr with
  | error e =>
      rw [removeUser_error hparse]
      exact ⟨⟨fun _ hs hapart => ⟨hs, rfl, hapart⟩, hsound⟩, fun u hu => hu⟩
  | ok removed =>
      obtain ⟨-, hleads⟩ := removeUser_leadsTo hsound hparse
      refine ⟨⟨hleads.spares, hleads.sound⟩, fun u hu => ?_⟩
      rw [hleads.list_eq] at hu
      exact List.mem_of_mem_erase hu

/-- The calls other than `HandleConn` are one action under `usersMu`. -/
theorem serviceThread_quiet
    (i : ℕ) {call : ServiceCall P} (hother : ∀ env, call ≠ .handle env) :
    Proc.Acts (QuietAction call.brings) (serviceThread P i call) := by
  cases call with
  | handle env => exact absurd rfl (hother env)
  | addUser uuidStr spare =>
      rw [serviceThread]
      exact timed_quiet (fun _ _ => rfl)
        (fun _ hsound => (addUser_spares hsound uuidStr spare).1)
        (fun _ hsound => (addUser_spares hsound uuidStr spare).2)
        (fun _ => Or.inl rfl)
  | removeUser uuidStr =>
      rw [serviceThread]
      exact timed_quiet (fun _ _ => rfl)
        (fun _ hsound => (removeUser_spares hsound uuidStr).1)
        (fun _ hsound u hu => Or.inl ((removeUser_spares hsound uuidStr).2 u hu))
        (fun _ => Or.inl rfl)
  | users =>
      rw [serviceThread]
      exact timed_read_quiet _
  | setReplayCache replay =>
      rw [serviceThread]
      exact timed_quiet (fun _ _ => rfl)
        (fun _ hsound => ⟨fun _ hs hapart => ⟨hs, rfl, hapart⟩, hsound⟩)
        (fun _ _ _ hu => Or.inl hu) (fun _ => Or.inr rfl)

theorem serviceThread_acts (i : ℕ) (call : ServiceCall P) :
    Proc.Acts (ServiceAction call.brings) (serviceThread P i call) := by
  by_cases hhandle : ∃ env, call = .handle env
  · obtain ⟨env, rfl⟩ := hhandle
    exact (handleCall_acts i env).bind fun _ => trivial
  · exact (serviceThread_quiet i (not_exists.mp hhandle)).mono fun _ _ => And.left

end SingEwp
