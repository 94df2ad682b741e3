import SingEwp.ServiceRuns

/-!
# Handshakes against a table that changes

A handshake reads nothing of the table but the slice its lookup closes over, and
nobody writes to that slice.  Its outcome is therefore the one `handleTransport`
has on the users of one moment, the turn at which the handshake took its
snapshot, with the cache it found there as it was when it was consulted.  A user
who has been removed cannot be served by a handshake that starts afterwards.
-/

namespace SingEwp

variable {P : Primitives}

/-- The run without the cache it carries along. -/
def ServeRun.withoutCache (run : ServeRun) : ServeRun := { run with replay := none }

/-- The outcome of a run, and the cache it leaves. -/
def ServeRun.split (run : ServeRun) : ServeRun × Option ReplayCache :=
  (run.withoutCache, run.replay)

/-- The readings of the clock a handshake makes. -/
def ServeEnv.atTimes (env : ServeEnv P) (checkNow markNow helloNow : ℤ) :
    ServeEnv P :=
  { env with
    accept := { env.accept with
      checkNow := checkNow, markNow := markNow, helloNow := helloNow } }

def HandlerCall.metadata : HandlerCall → Metadata
  | .newConnection _ metadata => metadata
  | .newPacketConnection _ metadata => metadata

def ServiceResult.handlerCall? : ServiceResult → Option HandlerCall
  | .handled run => run.handled
  | _ => none

/-- The user for whom a handshake has called the handler, if it has. -/
def servedUser (pool : Pool ServiceLabel ℕ ServiceState ServiceResult) (i : ℕ) :
    Option Uuid :=
  ((pool.threads[i]?.bind Proc.result?).bind ServiceResult.handlerCall?).map
    fun call => call.metadata.userUUID

theorem servedUser_eq_some
    {pool : Pool ServiceLabel ℕ ServiceState ServiceResult} {i : ℕ} {u : Uuid}
    (hserved : servedUser pool i = some u) :
    ∃ run call, pool.threads[i]? = some (.ret (.handled run)) ∧
      run.handled = some call ∧ call.metadata.userUUID = u := by
  obtain ⟨call, hcall, huser⟩ := Option.map_eq_some_iff.mp hserved
  obtain ⟨result, hresult, hhandled⟩ := Option.bind_eq_some_iff.mp hcall
  have hdone := Pool.finished_of_result? hresult
  cases result with
  | handled run => exact ⟨run, call, hdone, hhandled, huser⟩
  | added result => cases hhandled
  | removed found => cases hhandled
  | users list => cases hhandled
  | cacheSet => cases hhandled

/-! ## The sequential driver, in the pieces of the threads -/

theorem dispatch_split
    (keys : SessionKeys) (ch : ClientHello) (inbox : List Bytes)
    (lost : Option EwpError) (run : ServeRun) :
    (dispatch P keys ch inbox lost run).split =
      (dispatch P keys ch inbox lost run.withoutCache, run.replay) := by
  unfold dispatch serveUDP
  dsimp only
  repeat' split
  all_goals rfl

theorem handleTransport_accepted
    {env : ServeEnv P} {helloIn : Bytes} (hhello : env.hello = .ok helloIn)
    (lookup : UUIDLookup) (cache : Option ReplayCache) :
    (handleTransport P (some lookup) cache env).split =
      (serveAccepted P env
        (acceptClientHelloWithReplay P helloIn lookup cache env.accept).1,
        (acceptClientHelloWithReplay P helloIn lookup cache env.accept).2) := by
  unfold handleTransport serveAccepted
  rw [hhello]
  dsimp only
  cases acceptClientHelloWithReplay P helloIn lookup cache env.accept with
  | mk accepted replay =>
      cases accepted with
      | error e => rfl
      | ok answer =>
          obtain ⟨helloOut, res⟩ := answer
          dsimp only
          cases env.send helloOut with
          | some e => rfl
          | none =>
              cases res.clientHello with
              | none => rfl
              | some ch => exact dispatch_split _ _ _ _ _

theorem makeUUIDLookup_cons
    (u : Uuid) (users : List Uuid) (msg : Bytes) (tag : FixedBytes outerMACLen) :
    makeUUIDLookup P (u :: users) msg tag =
      if verifyOuterMAC P u msg tag then .ok u
      else makeUUIDLookup P users msg tag := by
  unfold makeUUIDLookup
  rw [List.find?_cons]
  cases verifyOuterMAC P u msg tag <;> rfl

/-- The lookup is called once, so only its answer matters. -/
theorem authenticateClientHello_found
    {msg : Bytes} {lookup : UUIDLookup} {found : Except EwpError Uuid}
    (hfound : lookup (msg.take (msg.length - outerMACLen))
      (FixedBytes.copyFrom outerMACLen (msg.drop (msg.length - outerMACLen))) =
        found) (now : ℤ) :
    authenticateClientHello P msg (fun _ _ => found) now =
      authenticateClientHello P msg lookup now := by
  simp only [authenticateClientHello, hfound]

/-- What `AcceptClientHelloWithReplay` does with the cache, if it is given one. -/
def consultCache (ch : ClientHello) (now : ℤ) :
    Option ReplayCache → Bool × Option ReplayCache
  | none => (true, none)
  | some c =>
      ((c.markSeenOrReject ch.uuid ch.nonce now).1,
        some (c.markSeenOrReject ch.uuid ch.nonce now).2)

def afterMark (P : Primitives) (uuid : Uuid) (ch : ClientHello) (env : AcceptEnv P)
    (admitted : Bool) : Except EwpError (Bytes × HandshakeResult) :=
  if admitted then answerClientHello P uuid ch env else .error .replay

theorem acceptClientHelloWithReplay_consults
    {msg : Bytes} {lookup : UUIDLookup} {env : AcceptEnv P} {uuid : Uuid}
    {ch : ClientHello}
    (hauth : authenticateClientHello P msg lookup env.checkNow = .ok (uuid, ch))
    (cache : Option ReplayCache) :
    acceptClientHelloWithReplay P msg lookup cache env =
      (afterMark P uuid ch env (consultCache ch env.markNow cache).1,
        (consultCache ch env.markNow cache).2) := by
  unfold acceptClientHelloWithReplay consultCache afterMark
  rw [hauth]
  cases cache with
  | none => rfl
  | some c =>
      dsimp only
      split
      · rfl
      · rfl

/-! ## The turns of a handshake and the caches -/

def View.KeepsCaches (view : View ℕ ServiceState) : Prop :=
  view.after.caches = view.before.caches

/-- The turns of a call that is given the cache pointer `replay`.  At most one of
them touches a cache.  There the call does with the cache what `serve` does, and
has the result of `serve`; if there is no such turn, `serve` has that result
whatever is in the cache, and leaves it alone. -/
inductive Consults {ρ : Type} (call : ℕ)
    (serve : Option ReplayCache → ρ × Option ReplayCache) (replay : Option ℕ)
    (result : ρ) : List (View ℕ ServiceState) → Prop where
  | never {views : List (View ℕ ServiceState)}
      (hserve : ∀ contents : ℕ → ReplayCache,
        serve (replay.map contents) = (result, replay.map contents))
      (hkeeps : ∀ view ∈ views, view.KeepsCaches) :
      Consults call serve replay result views
  | once {early late : List (View ℕ ServiceState)} {locked : View ℕ ServiceState}
      {k : ℕ} (hreplay : replay = some k)
      (hserve : serve (some (locked.before.caches k).cache) =
        (result, some (locked.after.caches k).cache))
      (hmark : ∃ e : MarkEvent, e.call = call ∧
        (locked.after.caches k).marks = (locked.before.caches k).marks ++ [e])
      (hothers : ∀ l ≠ k, locked.after.caches l = locked.before.caches l)
      (hkeeps : ∀ view ∈ early ++ late, view.KeepsCaches) :
      Consults call serve replay result (early ++ locked :: late)

namespace Consults

variable {ρ τ : Type} {call : ℕ} {replay : Option ℕ} {result : ρ}
variable {serve : Option ReplayCache → ρ × Option ReplayCache}
variable {views : List (View ℕ ServiceState)}

theorem after
    (hconsults : Consults call serve replay result views)
    {first : List (View ℕ ServiceState)}
    (hfirst : ∀ view ∈ first, view.KeepsCaches) :
    Consults call serve replay result (first ++ views) := by
  cases hconsults with
  | never hserve hkeeps =>
      exact .never hserve fun view hview =>
        (List.mem_append.mp hview).elim (hfirst view) (hkeeps view)
  | once hreplay hserve hmark hothers hkeeps =>
      rw [← List.append_assoc]
      refine .once hreplay hserve hmark hothers fun view hview => ?_
      rw [List.append_assoc] at hview
      exact (List.mem_append.mp hview).elim (hfirst view) (hkeeps view)

theorem before
    (hconsults : Consults call serve replay result views)
    {last : List (View ℕ ServiceState)}
    (hlast : ∀ view ∈ last, view.KeepsCaches) :
    Consults call serve replay result (views ++ last) := by
  cases hconsults with
  | never hserve hkeeps =>
      exact .never hserve fun view hview =>
        (List.mem_append.mp hview).elim (hkeeps view) (hlast view)
  | once hreplay hserve hmark hothers hkeeps =>
      rw [List.append_assoc, List.cons_append]
      refine .once hreplay hserve hmark hothers fun view hview => ?_
      rw [← List.append_assoc] at hview
      exact (List.mem_append.mp hview).elim (hkeeps view) (hlast view)

/-- The result is made into another one, and the cache is left as it is. -/
theorem map
    (hconsults : Consults call serve replay result views) {f : ρ → τ}
    {serve' : Option ReplayCache → τ × Option ReplayCache}
    (hmap : ∀ cache, serve' cache = (f (serve cache).1, (serve cache).2)) :
    Consults call serve' replay (f result) views := by
  cases hconsults with
  | never hserve hkeeps =>
      exact .never (fun contents => by rw [hmap, hserve]) hkeeps
  | once hreplay hserve hmark hothers hkeeps =>
      exact .once hreplay (by rw [hmap, hserve]) hmark hothers hkeeps

theorem served (hconsults : Consults call serve replay result views) :
    ∃ cache, (serve cache).1 = result := by
  cases hconsults with
  | never hserve hkeeps =>
      exact ⟨_, congrArg Prod.fst (hserve fun _ => newReplayCache 0)⟩
  | once hreplay hserve hmark hothers hkeeps => exact ⟨_, congrArg Prod.fst hserve⟩

end Consults

theorem Proc.Traces.keepsCaches
    {α : Type} {brings : Brings} {p : ServiceProc α}
    {views : List (View ℕ ServiceState)} {result : α}
    (hacts : Proc.Acts (QuietAction brings) p) (htraces : p.Traces views result) :
    ∀ view ∈ views, view.KeepsCaches :=
  Proc.Traces.keeps (K := fun s s' : ServiceState => s'.caches = s.caches)
    (fun _ => rfl)
    (fun _ _ hquiet elapsed s => hquiet.caches elapsed s) hacts htraces

/-! ## One handshake in a growing state -/

/-- Turns of a handshake between two states of the service. -/
abbrev Turns := View.Chain (ε := ℕ) ServiceState.Grows (fun s => s.table.Sound)

theorem scanUsers_traces
    {users : List Uuid} {snapshot : SliceRef} {msg : Bytes}
    {tag : FixedBytes outerMACLen} {views : List (View ℕ ServiceState)}
    {found : Except EwpError Uuid} {i n : ℕ}
    (hread : ∀ view ∈ views, view.before.table.heap.read snapshot = users)
    (hlen : users.length = i + n)
    (htraces : (scanUsers P msg tag snapshot i n).Traces views found) :
    makeUUIDLookup P (users.drop i) msg tag = found := by
  induction n generalizing i views with
  | zero =>
      rw [List.drop_of_length_le (by omega)]
      exact htraces.ret_eq
  | succ n ih =>
      obtain ⟨view, later, rfl, -, hrest⟩ := htraces.atomic_bind
      have hi : i < users.length := by omega
      have hentry : (view.before.table.heap.read snapshot).getD i zeroUuid =
          users[i] := by
        rw [hread view List.mem_cons_self, List.getD_eq_getElem _ _ hi]
      rw [List.drop_eq_getElem_cons hi, makeUUIDLookup_cons]
      simp only [ServiceState.tick_table, hentry] at hrest
      split at hrest
      · next hverify =>
          rw [if_pos hverify]
          exact hrest.ret_eq
      · next hverify =>
          rw [if_neg hverify]
          exact ih (fun view hview => hread view (List.mem_cons_of_mem _ hview))
            (by omega) hrest

theorem authenticateCall_traces
    {users : List Uuid} {snapshot : SliceRef} {msg : Bytes}
    {views : List (View ℕ ServiceState)} {s t : ServiceState}
    {checked : Except EwpError (Uuid × ClientHello)}
    (hturns : Turns s views t)
    (hread : ∀ view ∈ views, view.before.table.heap.read snapshot = users)
    (hlen : users.length = snapshot.len)
    (htraces : (authenticateCall P snapshot msg).Traces views checked) :
    ∃ now, s.clock ≤ now ∧ now ≤ t.clock ∧
      checked = authenticateClientHello P msg (makeUUIDLookup P users)
        (unixSeconds now) := by
  unfold authenticateCall at htraces
  split at htraces
  · next hshort =>
      refine ⟨s.clock, le_rfl, (hturns.leads .trans).clock, ?_⟩
      rw [← htraces.ret_eq, authenticateClientHello, if_pos hshort]
  · obtain ⟨first, later, found, rfl, hscan, hcheck⟩ := htraces.bind
    obtain ⟨view, rest, rfl, hbody⟩ := hcheck.atomic
    obtain ⟨mid, hfirst, hbefore, -, hover, hrest⟩ := hturns.split .refl
    have hfound := scanUsers_traces
      (fun view hview => hread view (List.mem_append_left _ hview))
      (by rw [hlen, Nat.zero_add]) hscan
    rw [List.drop_zero] at hfound
    have hafter : view.after = view.before.tick view.env :=
      (congrArg Prod.snd hbody).symm
    refine ⟨view.after.clock, ?_, (hrest.leads .trans).clock, ?_⟩
    · exact (hfirst.leads .trans).clock.trans (hbefore.trans hover).clock
    · rw [← authenticateClientHello_found hfound, hafter]
      exact (congrArg Prod.fst hbody).symm

theorem authenticateCall_decodes
    {snapshot : SliceRef} {msg : Bytes} {views : List (View ℕ ServiceState)}
    {uuid : Uuid} {ch : ClientHello}
    (htraces : (authenticateCall P snapshot msg).Traces views (.ok (uuid, ch))) :
    decodeClientHello P msg ch.uuid = .ok ch := by
  unfold authenticateCall at htraces
  split at htraces
  · cases htraces.ret_eq
  · obtain ⟨_, _, found, _, _, hcheck⟩ := htraces.bind
    obtain ⟨view, rest, -, hbody⟩ := hcheck.atomic
    obtain ⟨hauth, -⟩ := Prod.mk.inj hbody
    obtain ⟨-, -, hdecode, huuid, -⟩ := authenticateClientHello_ok hauth
    rwa [huuid]

/-- The two turns of `MarkSeenOrReject`: the reading of the clock and the
critical section. -/
theorem markAt_turns
    {call k : ℕ} {uuid : Uuid} {nonce : HelloNonce}
    {views : List (View ℕ ServiceState)} {admitted : Bool}
    (htraces : (markAt call k uuid nonce).Traces views admitted) :
    ∃ reading locked rest, views = reading :: locked :: rest ∧
      reading.after.clock = reading.before.clock + reading.env ∧
      ((locked.before.markState k).tick locked.env).enter call
        (makeReplayKey uuid nonce) (unixSeconds reading.after.clock)
        (unixSeconds reading.after.clock +
          Int.tdiv (reading.before.markState k).cache.window second) =
        (admitted, locked.after.markState k) ∧
      (∀ l ≠ k, locked.after.caches l = locked.before.caches l) ∧
      ∀ view ∈ reading :: rest, view.KeepsCaches := by
  unfold markAt markCall at htraces
  rw [Proc.bind_eq, Proc.embed_bind, Proc.embed_atomic] at htraces
  obtain ⟨reading, later, rfl, hafter, hrest⟩ := htraces.atomic_bind
  rw [Proc.embed_atomic] at hrest
  obtain ⟨locked, rest, rfl, hbody⟩ := hrest.atomic
  have hidle := (Proc.traces_ret.mp hrest.2).2
  have hclock : reading.after.clock = reading.before.clock + reading.env := by
    rw [hafter]
    rfl
  obtain ⟨hadmitted, hlocked⟩ := Prod.mk.inj hbody
  refine ⟨reading, locked, rest, rfl, hclock, ?_, ?_, ?_⟩
  · rw [hclock, ← hlocked, ServiceState.markState_putMark, ← hadmitted]
    rfl
  · intro l hne
    rw [← hlocked]
    exact Function.update_of_ne hne _ _
  · intro view hview
    rcases List.mem_cons.mp hview with rfl | hmem
    · rw [View.KeepsCaches, hafter]
      exact Function.update_eq_self k _
    · exact congrArg ServiceState.caches (hidle view hmem)

theorem markReplay_traces
    {call : ℕ} {replay : Option ℕ} {ch : ClientHello}
    {views : List (View ℕ ServiceState)} {s t : ServiceState} {admitted : Bool}
    (hturns : Turns s views t)
    (htraces : (markReplay call replay ch).Traces views admitted) :
    ∃ now, s.clock ≤ now ∧ now ≤ t.clock ∧
      Consults call (consultCache ch (unixSeconds now)) replay admitted views := by
  cases replay with
  | none =>
      obtain ⟨rfl, hidle⟩ := Proc.traces_ret.mp htraces
      refine ⟨s.clock, le_rfl, (hturns.leads .trans).clock, ?_⟩
      exact .never (fun _ => rfl) fun view hview =>
        congrArg ServiceState.caches (hidle view hview)
  | some k =>
      obtain ⟨reading, locked, rest, rfl, -, henter, hothers, hkeeps⟩ :=
        markAt_turns htraces
      obtain ⟨hbefore, -, hover, hfrom, -, hlocked, hend⟩ := hturns
      refine ⟨reading.after.clock, (hbefore.trans hover).clock, ?_, ?_⟩
      · exact hfrom.clock.trans (hlocked.clock.trans (hend.leads .trans).clock)
      · -- the window was read with the clock, before the critical section
        have hwindow : (locked.before.caches k).cache.window =
            (reading.before.markState k).cache.window := (hover.trans hfrom).window k
        obtain ⟨hadmitted, hafter⟩ := Prod.mk.inj henter
        have hmarked := (congrArg MarkState.marks hafter).symm
        rw [← List.singleton_append]
        refine .once rfl ?_ ⟨_, ?_, hmarked⟩ hothers hkeeps
        · rw [consultCache, ReplayCache.markSeenOrReject, hwindow]
          exact Prod.ext hadmitted
            (congrArg (fun m : MarkState => some m.cache) hafter)
        · rfl

/-- What remains of a handshake once the hello is checked and, where there is a
cache, marked. -/
theorem answer_traces
    {uuid : Uuid} {ch : ClientHello} {env : AcceptEnv P}
    {views : List (View ℕ ServiceState)} {s t : ServiceState}
    {admitted : Bool} {accepted : Except EwpError (Bytes × HandshakeResult)}
    (hturns : Turns s views t)
    (htraces : Proc.Traces
      (if admitted then answerAt P uuid ch env
        else .ret (.error .replay)) views accepted) (checkNow markNow : ℤ) :
    (∃ now, s.clock ≤ now ∧ now ≤ t.clock ∧
      accepted = afterMark P uuid ch
        { env with
          checkNow := checkNow, markNow := markNow, helloNow := unixSeconds now }
        admitted) ∧
      ∀ view ∈ views, view.KeepsCaches := by
  have hquiet : Proc.Acts (QuietAction ⟨fun _ => False, fun _ => False⟩)
      (if admitted then answerAt P uuid ch env else .ret (.error .replay)) := by
    split
    · exact timed_read_quiet _
    · trivial
  refine ⟨?_, htraces.keepsCaches hquiet⟩
  cases admitted with
  | false =>
      exact ⟨s.clock, le_rfl, (hturns.leads .trans).clock,
        htraces.ret_eq.symm⟩
  | true =>
      obtain ⟨view, rest, rfl, hbody⟩ := htraces.atomic
      obtain ⟨hbefore, -, hover, hrest⟩ := hturns
      have hafter : view.after = view.before.tick view.env :=
        (congrArg Prod.snd hbody).symm
      refine ⟨view.after.clock, (hbefore.trans hover).clock,
        (hrest.leads .trans).clock, ?_⟩
      rw [afterMark, if_pos rfl, hafter]
      exact (congrArg Prod.fst hbody).symm

/-- The whole of `AcceptClientHelloWithReplay`. -/
theorem acceptCall_traces
    {users : List Uuid} {snapshot : SliceRef} {replay : Option ℕ} {msg : Bytes}
    {call : ℕ} {env : AcceptEnv P} {views : List (View ℕ ServiceState)}
    {s t : ServiceState} {accepted : Except EwpError (Bytes × HandshakeResult)}
    (hturns : Turns s views t)
    (hread : ∀ view ∈ views, view.before.table.heap.read snapshot = users)
    (hlen : users.length = snapshot.len)
    (htraces : (acceptCall P call snapshot replay msg env).Traces views accepted) :
    ∃ checkNow markNow helloNow,
      (s.clock ≤ checkNow ∧ checkNow ≤ markNow ∧ markNow ≤ helloNow ∧
        helloNow ≤ t.clock) ∧
      Consults call
        (fun cache => acceptClientHelloWithReplay P msg (makeUUIDLookup P users) cache
          { env with
            checkNow := unixSeconds checkNow
            markNow := unixSeconds markNow
            helloNow := unixSeconds helloNow }) replay accepted views := by
  obtain ⟨first, later, checked, rfl, hauth, hrest⟩ := htraces.bind
  obtain ⟨mid, hfirst, hlater⟩ := hturns.split .refl
  obtain ⟨checkNow, hlo, hhi, hchecked⟩ := authenticateCall_traces hfirst
    (fun view hview => hread view (List.mem_append_left _ hview)) hlen hauth
  have hacts : Proc.Acts (QuietAction ⟨fun _ => False, fun _ => False⟩)
      (authenticateCall P snapshot msg) := authenticateCall_quiet _ _
  have hquiet := hauth.keepsCaches hacts
  cases checked with
  | error e =>
      obtain ⟨rfl, hidle⟩ := Proc.traces_ret.mp hrest
      refine ⟨checkNow, checkNow, checkNow,
        ⟨hlo, le_rfl, le_rfl, hhi.trans (hlater.leads .trans).clock⟩,
        Consults.after (.never (fun contents => ?_) ?_) hquiet⟩
      · rw [acceptClientHelloWithReplay, ← hchecked]
      · exact fun view hview => congrArg ServiceState.caches (hidle view hview)
  | ok pair =>
      obtain ⟨uuid, ch⟩ := pair
      obtain ⟨marking, answering, admitted, rfl, hmark, hanswer⟩ := hrest.bind
      obtain ⟨marked, hmarking, hanswering⟩ := hlater.split .refl
      obtain ⟨markNow, hlo', hhi', hconsults⟩ := markReplay_traces hmarking hmark
      obtain ⟨⟨helloNow, hlo'', hhi'', rfl⟩, hlast⟩ := answer_traces hanswering
        hanswer (unixSeconds checkNow) (unixSeconds markNow)
      refine ⟨checkNow, markNow, helloNow,
        ⟨hlo, hhi.trans hlo', hhi'.trans hlo'', hhi''⟩, ?_⟩
      have hserve := @acceptClientHelloWithReplay_consults P msg
        (makeUUIDLookup P users)
        { env with
          checkNow := unixSeconds checkNow
          markNow := unixSeconds markNow
          helloNow := unixSeconds helloNow } uuid ch hchecked.symm
      exact ((hconsults.map hserve).before hlast).after hquiet

/-! ## A handshake among other calls -/

theorem servicePool_acts
    (caches : ℕ → ReplayCache) (clock : ℤ) (calls : List (ServiceCall P)) :
    ∀ p ∈ (servicePool P caches clock calls).threads,
      Proc.Acts (ServiceAction ⟨fun _ => True, fun _ => True⟩) p := by
  intro p hp
  obtain ⟨i, hi⟩ := List.mem_iff_getElem?.mp hp
  obtain ⟨call, -, rfl⟩ := servicePool_thread hi
  exact (serviceThread_acts i call).mono fun _ _ =>
    .mono (fun _ _ => trivial) (fun _ _ => trivial)

theorem servicePool_turns
    (caches : ℕ → ReplayCache) (clock : ℤ) (calls : List (ServiceCall P)) (i : ℕ)
    (schedule : List (ℕ × ℕ)) :
    Turns (servicePool P caches clock calls).shared
      ((servicePool P caches clock calls).seen i schedule)
      ((servicePool P caches clock calls).run schedule).shared :=
  Pool.seen_chain i schedule .refl .trans (servicePool_acts caches clock calls)
    (fun _ _ haction elapsed s hsound =>
      ⟨(haction elapsed s hsound).sound, (haction elapsed s hsound).grows⟩)
    newUserTable_sound.1

/-- A handshake that has returned, from its own turns. -/
theorem handleCall_traces
    {call : ℕ} {env : ServeEnv P} {views : List (View ℕ ServiceState)}
    {s t : ServiceState} {run : ServeRun} (hturns : Turns s views t)
    (htraces : (handleCall P call env).Traces views run) :
    ∃ view later checkNow markNow helloNow, views = view :: later ∧
      view.KeepsCaches ∧
      (view.before.clock ≤ checkNow ∧ checkNow ≤ markNow ∧ markNow ≤ helloNow ∧
        helloNow ≤ t.clock) ∧
      Consults call
        (fun cache => (handleTransport P
          (some (makeUUIDLookup P view.before.table.list)) cache
          (env.atTimes (unixSeconds checkNow) (unixSeconds markNow)
            (unixSeconds helloNow))).split) view.before.replay run later := by
  obtain ⟨view, later, rfl, hafter, hrest⟩ := htraces.atomic_bind
  obtain ⟨-, hsound, hover, hlater⟩ := hturns
  have hkeeps : view.KeepsCaches := by rw [View.KeepsCaches, hafter]; rfl
  refine ⟨view, later, ?_⟩
  cases hhello : env.hello with
  | error e =>
      have hstays := (hover.trans (hlater.leads .trans)).clock
      rw [hhello] at hrest
      obtain ⟨rfl, hidle⟩ := Proc.traces_ret.mp hrest
      refine ⟨view.before.clock, view.before.clock, view.before.clock,
        rfl, hkeeps, ⟨le_rfl, le_rfl, le_rfl, hstays⟩, .never (fun contents => ?_) ?_⟩
      · rw [handleTransport, ServeEnv.atTimes, hhello]
        rfl
      · exact fun view hview => congrArg ServiceState.caches (hidle view hview)
  | ok helloIn =>
      rw [hhello] at hrest
      obtain ⟨accepting, rest, accepted, rfl, haccept, hserve⟩ := hrest.bind
      obtain ⟨mid, haccepting, hend⟩ := hlater.split .refl
      -- the slice of the lookup reads the same at every later turn
      have hread : ∀ later ∈ accepting,
          later.before.table.heap.read view.before.table.lookup =
            view.before.table.list := by
        intro later hmem
        have hgrows := hover.trans (haccepting.reaches .trans hmem)
        obtain ⟨-, hsame, -⟩ :=
          hgrows.spares _ hsound.lookup_held hsound.apart
        rw [hsame, hsound.installed]
      have hlen : view.before.table.list.length = view.before.table.lookup.len := by
        rw [← hsound.installed, Heap.read_length hsound.lookup_held]
      obtain ⟨checkNow, markNow, helloNow, ⟨hlo, hmark, hhello', hhi⟩, hconsults⟩ :=
        acceptCall_traces haccepting hread hlen haccept
      obtain ⟨rfl, hidle⟩ := Proc.traces_ret.mp hserve
      refine ⟨checkNow, markNow, helloNow, rfl, hkeeps,
        ⟨hover.clock.trans hlo, hmark, hhello', hhi.trans (hend.leads .trans).clock⟩,
        ?_⟩
      refine (hconsults.map fun cache => ?_).before
        fun view hview => congrArg ServiceState.caches (hidle view hview)
      have htimes : (env.atTimes (unixSeconds checkNow) (unixSeconds markNow)
          (unixSeconds helloNow)).hello = .ok helloIn := hhello
      exact handleTransport_accepted htimes _ cache

section Handled

variable {caches : ℕ → ReplayCache} {clock : ℤ} {calls : List (ServiceCall P)}
variable {schedule : List (ℕ × ℕ)} {i : ℕ} {env : ServeEnv P} {run : ServeRun}

theorem handled_traces
    (hcall : calls[i]? = some (.handle env))
    (hdone : ((servicePool P caches clock calls).run schedule).threads[i]? =
      some (.ret (.handled run))) :
    ∃ view later checkNow markNow helloNow,
      (servicePool P caches clock calls).seen i schedule = view :: later ∧
      view.KeepsCaches ∧
      (view.before.clock ≤ checkNow ∧ checkNow ≤ markNow ∧ markNow ≤ helloNow ∧
        helloNow ≤
          ((servicePool P caches clock calls).run schedule).shared.clock) ∧
      Consults i
        (fun cache => (handleTransport P
          (some (makeUUIDLookup P view.before.table.list)) cache
          (env.atTimes (unixSeconds checkNow) (unixSeconds markNow)
            (unixSeconds helloNow))).split) view.before.replay run later := by
  have hthread : (servicePool P caches clock calls).threads[i]? =
      some (serviceThread P i (.handle env)) := by
    simp [servicePool, List.getElem?_mapIdx, hcall]
  have hturns := servicePool_turns caches clock calls i schedule
  obtain ⟨handling, rest, run', hviews, hhandle, hresult⟩ :=
    (Pool.run_traces hthread hdone).bind
  obtain ⟨hsame, hidle⟩ := Proc.traces_ret.mp hresult
  obtain rfl := ServiceResult.handled.inj hsame
  rw [hviews] at hturns ⊢
  obtain ⟨mid, hhandling, hend⟩ := hturns.split .refl
  obtain ⟨view, later, checkNow, markNow, helloNow, rfl, hkeeps,
    ⟨hlo, hmark, hhello, hhi⟩, hconsults⟩ := handleCall_traces hhandling hhandle
  exact ⟨view, later ++ rest, checkNow, markNow, helloNow, rfl, hkeeps,
    ⟨hlo, hmark, hhello, hhi.trans (hend.leads .trans).clock⟩,
    hconsults.before fun view hview => congrArg ServiceState.caches (hidle view hview)⟩

end Handled

/-- A handshake does as a whole what `handleTransport` does on the users of one
moment, its own first turn, with the cache installed at that moment as it is at
the turn at which the handshake consults it: it returns what `handleTransport`
returns, at that turn it leaves the cache `handleTransport` leaves, and at no
other turn does it touch a cache. -/
theorem handshake_decides_on_snapshot
    (P : Primitives) (caches : ℕ → ReplayCache) (clock : ℤ)
    (calls : List (ServiceCall P)) (schedule : List (ℕ × ℕ)) (i : ℕ)
    (env : ServeEnv P) (hcall : calls[i]? = some (.handle env)) (run : ServeRun)
    (hdone : ((servicePool P caches clock calls).run schedule).threads[i]? =
      some (.ret (.handled run))) :
    ∃ (first rest : List (ℕ × ℕ)) (elapsed : ℕ) (s : ServiceState)
      (checkNow markNow helloNow : ℤ),
      schedule = first ++ (i, elapsed) :: rest ∧
      (∀ turn ∈ first, turn.1 ≠ i) ∧
      s = ((servicePool P caches clock calls).run first).shared ∧
      ((servicePool P caches clock calls).run
        (first ++ [(i, elapsed)])).shared.caches = s.caches ∧
      s.clock ≤ checkNow ∧ checkNow ≤ markNow ∧ markNow ≤ helloNow ∧
      helloNow ≤ ((servicePool P caches clock calls).run schedule).shared.clock ∧
      Consults i
        (fun cache => (handleTransport P (some (makeUUIDLookup P s.table.list)) cache
          (env.atTimes (unixSeconds checkNow) (unixSeconds markNow)
            (unixSeconds helloNow))).split) s.replay run
        (((servicePool P caches clock calls).run
          (first ++ [(i, elapsed)])).seen i rest) := by
  obtain ⟨view, later, checkNow, markNow, helloNow, hviews, hkeeps,
    ⟨hlo, hmark, hhello, hhi⟩, hconsults⟩ := handled_traces hcall hdone
  obtain ⟨first, rest, rfl, hidle, hbefore, hafter, hlater⟩ :=
    Pool.seen_eq_cons hviews
  rw [hlater] at hconsults
  rw [View.KeepsCaches, hafter] at hkeeps
  exact ⟨first, rest, view.env, view.before, checkNow, markNow, helloNow, rfl, hidle,
    hbefore, hkeeps, hlo, hmark, hhello, hhi, hconsults⟩

namespace Transparent

def helloWire : Bytes :=
  match encodeClientHello suite (hello 1000) zeroDraws with
  | .ok wire => wire
  | .error _ => []

def helloEnv : ServeEnv suite where
  hello := .ok helloWire
  accept := acceptEnv 0
  send := fun _ => none
  inbox := []
  lost := none

/-- The digits of `user`. -/
def spelledUser : Bytes := 0x30 :: 0x37 :: List.replicate 30 0x30

def removalCalls : List (ServiceCall suite) :=
  [.addUser spelledUser 0, .handle helloEnv, .removeUser spelledUser,
    .handle helloEnv, .users]

/-- The user is added, a handshake takes its snapshot, and the user is removed. -/
def untilRemoval : List (ℕ × ℕ) := [(0, 1000000000000), (1, 0), (2, 0)]

/-- The handshake goes on, and other calls begin. -/
def sinceRemoval : List (ℕ × ℕ) :=
  [(1, 0), (1, 0), (3, 0), (1, 0), (3, 0), (1, 0), (4, 0), (1, 0)]

end Transparent

open Transparent in
/-- A handshake that has taken its snapshot is served though its user has been
removed in the meantime. -/
theorem handshake_decides_on_snapshot_removed :
    ∃ run call,
      ((servicePool suite (fun _ => newReplayCache second) 0 removalCalls).run
        (untilRemoval ++ sinceRemoval)).threads[1]? = some (.ret (.handled run)) ∧
      run.handled = some call ∧ call.metadata.userUUID = user ∧
      ∃ (first rest : List (ℕ × ℕ)) (elapsed : ℕ) (s : ServiceState)
        (env : ServeEnv suite),
        untilRemoval ++ sinceRemoval = first ++ (1, elapsed) :: rest ∧
        (∀ turn ∈ first, turn.1 ≠ 1) ∧
        s = ((servicePool suite (fun _ => newReplayCache second) 0
          removalCalls).run first).shared ∧
        Consults 1
          (fun cache => (handleTransport suite
            (some (makeUUIDLookup suite s.table.list)) cache env).split) s.replay run
          (((servicePool suite (fun _ => newReplayCache second) 0 removalCalls).run
            (first ++ [(1, elapsed)])).seen 1 rest) := by
  have hserved : servedUser ((servicePool suite (fun _ => newReplayCache second) 0
      removalCalls).run (untilRemoval ++ sinceRemoval)) 1 = some user := by
    decide +kernel
  obtain ⟨run, call, hdone, hhandled, huser⟩ := servedUser_eq_some hserved
  obtain ⟨first, rest, elapsed, s, _, _, _, hschedule, hidle, hs, _, _, _, _, _,
    hconsults⟩ :=
      handshake_decides_on_snapshot suite (fun _ => newReplayCache second) 0
        removalCalls (untilRemoval ++ sinceRemoval) 1 helloEnv rfl run hdone
  exact ⟨run, call, hdone, hhandled, huser, first, rest, elapsed, s, _, hschedule,
    hidle, hs, hconsults⟩

/-! ## Removed users -/

theorem dispatch_user
    {keys : SessionKeys} {ch : ClientHello} {inbox : List Bytes}
    {lost : Option EwpError} {run : ServeRun} {call : HandlerCall}
    (hnone : run.handled = none)
    (hhandled : (dispatch P keys ch inbox lost run).handled = some call) :
    call.metadata.userUUID = ch.uuid := by
  unfold dispatch serveUDP at hhandled
  dsimp only at hhandled
  repeat' split at hhandled
  all_goals first
    | (cases hhandled; rfl)
    | (rw [hnone] at hhandled; cases hhandled)

theorem serveAccepted_user
    {env : ServeEnv P} {out : Bytes} {res : HandshakeResult} {ch : ClientHello}
    {call : HandlerCall} (hch : res.clientHello = some ch)
    (hhandled : (serveAccepted P env (.ok (out, res))).handled = some call) :
    call.metadata.userUUID = ch.uuid := by
  unfold serveAccepted at hhandled
  dsimp only at hhandled
  rw [hch] at hhandled
  split at hhandled
  · cases hhandled
  · exact dispatch_user rfl hhandled

/-- The handler is called for users of the list only. -/
theorem handleTransport_user
    {users : List Uuid} {cache : Option ReplayCache} {env : ServeEnv P}
    {call : HandlerCall}
    (hhandled : (handleTransport P (some (makeUUIDLookup P users)) cache
      env).split.1.handled = some call) :
    call.metadata.userUUID ∈ users := by
  cases hhello : env.hello with
  | error e =>
      rw [handleTransport, hhello] at hhandled
      cases hhandled
  | ok helloIn =>
      rw [handleTransport_accepted hhello] at hhandled
      cases haccept : (acceptClientHelloWithReplay P helloIn
          (makeUUIDLookup P users) cache env.accept).1 with
      | error e =>
          rw [haccept] at hhandled
          cases hhandled
      | ok answer =>
          obtain ⟨uuid, ch, hauth, hanswer, -⟩ :=
            acceptClientHelloWithReplay_ok haccept
          obtain ⟨-, hlookup, -, huuid, -⟩ := authenticateClientHello_ok hauth
          obtain ⟨_, _, _, _, _, _, _, _, hres⟩ := answerClientHello_ok hanswer
          rw [haccept] at hhandled
          rw [serveAccepted_user (by rw [hres]) hhandled, huuid]
          exact (makeUUIDLookup_ok hlookup).1

/-- The result shows a user as one of the table. -/
def ServiceResult.Shows (u : Uuid) : ServiceResult → Prop
  | .handled run => ∃ call, run.handled = some call ∧ call.metadata.userUUID = u
  | .users list => u ∈ list
  | _ => False

section Removed

variable {caches : ℕ → ReplayCache} {clock : ℤ} {calls : List (ServiceCall P)}
variable {before after : List (ℕ × ℕ)} {u : Uuid}

/-- Once every call that adds a user has returned, a user who is not in the table
stays out of it. -/
theorem servicePool_keeps_out
    (hgone : u ∉ ((servicePool P caches clock calls).run before).shared.table.list)
    (hadded : ∀ (k : ℕ) (call : ServiceCall P), calls[k]? = some call →
      call.brings.user u →
      ∃ result, ((servicePool P caches clock calls).run before).threads[k]? =
        some (.ret result)) (later : List (ℕ × ℕ)) :
    u ∉ (((servicePool P caches clock calls).run before).run
      later).shared.table.list := by
  have hsound : ((servicePool P caches clock calls).run before).shared.table.Sound :=
    (Pool.run_leads before ServiceState.Grows.refl .trans
      (servicePool_acts caches clock calls)
      (fun _ _ haction elapsed s hsound =>
        ⟨(haction elapsed s hsound).sound, (haction elapsed s hsound).grows⟩)
      newUserTable_sound.1).1
  have hacts : ∀ k p,
      ((servicePool P caches clock calls).run before).threads[k]? = some p →
        ∃ call : ServiceCall P, calls[k]? = some call ∧
          Proc.Acts (ServiceAction call.brings) p :=
    Pool.run_each
      (fun _ _ _ _ hnow env s =>
        hnow.imp fun _ => And.imp_right fun hacts => hacts.2 env s)
      (fun k p hp => by
        obtain ⟨call, hcall, rfl⟩ := servicePool_thread hp
        exact ⟨call, hcall, serviceThread_acts k call⟩) before
  have hthreads : ∀ p ∈ ((servicePool P caches clock calls).run before).threads,
      Proc.Acts (ServiceAction ⟨(· ≠ u), fun _ => True⟩) p := by
    intro p hp
    obtain ⟨k, hk⟩ := List.mem_iff_getElem?.mp hp
    obtain ⟨call, hcall, hacts⟩ := hacts k p hk
    by_cases hadds : call.brings.user u
    · obtain ⟨result, hresult⟩ := hadded k call hcall hadds
      obtain rfl := Option.some.inj (hk.symm.trans hresult)
      trivial
    · refine hacts.mono fun _ _ => .mono ?_ (fun _ _ => trivial)
      rintro v hv rfl
      exact hadds hv
  refine (Pool.run_invariant (I := fun s => s.table.Sound ∧ u ∉ s.table.list)
    hthreads ?_ (Pool.admits_of_forall (fun _ _ _ => trivial) _ later)
    ⟨hsound, hgone⟩).2
  rintro label update haction elapsed s ⟨hsound, hout⟩ -
  obtain ⟨hsound', -, henters, -⟩ := haction elapsed s hsound
  exact ⟨hsound', fun hin => (henters u hin).elim hout (fun hne => hne rfl)⟩

end Removed

/-- Once a user is out of the table and no call that adds the user is under way,
no call that starts later shows the user: no handshake passes such a user to the
handler, and `Users` does not list one. -/
theorem removed_user_shut_out
    (P : Primitives) (caches : ℕ → ReplayCache) (clock : ℤ)
    (calls : List (ServiceCall P)) (before after : List (ℕ × ℕ)) (u : Uuid)
    (hgone : u ∉ ((servicePool P caches clock calls).run before).shared.table.list)
    (hadded : ∀ (k : ℕ) (call : ServiceCall P), calls[k]? = some call →
      call.brings.user u →
      ∃ result, ((servicePool P caches clock calls).run before).threads[k]? =
        some (.ret result))
    (i : ℕ) (hstarts : ∀ turn ∈ before, turn.1 ≠ i) (result : ServiceResult)
    (hdone : ((servicePool P caches clock calls).run
      (before ++ after)).threads[i]? = some (.ret result)) :
    ¬result.Shows u := by
  have hseen : (servicePool P caches clock calls).seen i (before ++ after) =
      ((servicePool P caches clock calls).run before).seen i after := by
    rw [Pool.seen_append, Pool.seen_idle hstarts, List.nil_append]
  -- whatever the thread sees of the table, the user is not in it
  have hout : ∀ view ∈ (servicePool P caches clock calls).seen i (before ++ after),
      u ∉ view.before.table.list := by
    intro view hview
    rw [hseen] at hview
    obtain ⟨first, -, -, hbefore⟩ := Pool.mem_seen hview
    rw [hbefore]
    exact servicePool_keeps_out hgone hadded first
  have hlength : i < (servicePool P caches clock calls).threads.length := by
    have hbound := (List.getElem?_eq_some_iff.mp hdone).1
    rwa [Pool.run_threads_length] at hbound
  have hthread := List.getElem?_eq_getElem hlength
  obtain ⟨call, hcall, hcallThread⟩ := servicePool_thread hthread
  rw [hcallThread] at hthread
  have htraces := Pool.run_traces hthread hdone
  cases call with
  | handle env =>
      obtain ⟨_, _, run, _, _, hresult⟩ := htraces.bind
      obtain rfl := hresult.ret_eq
      obtain ⟨view, later, _, _, _, hviews, -, -, hconsults⟩ :=
        handled_traces hcall hdone
      obtain ⟨cache, rfl⟩ := hconsults.served
      rintro ⟨call, hhandled, huser⟩
      apply hout view (hviews ▸ List.mem_cons_self)
      rw [← huser]
      exact handleTransport_user hhandled
  | users =>
      obtain ⟨view, later, hviews, hbody⟩ := htraces.atomic
      obtain rfl := congrArg Prod.fst hbody
      exact hout view (hviews ▸ List.mem_cons_self)
  | addUser uuidStr spare =>
      obtain ⟨view, later, hviews, hbody⟩ := htraces.atomic
      obtain rfl := congrArg Prod.fst hbody
      exact id
  | removeUser uuidStr =>
      obtain ⟨view, later, hviews, hbody⟩ := htraces.atomic
      obtain rfl := congrArg Prod.fst hbody
      exact id
  | setReplayCache replay =>
      obtain ⟨view, later, hviews, hbody⟩ := htraces.atomic
      obtain rfl := congrArg Prod.fst hbody
      exact id

open Transparent in
/-- A handshake with the same hello that begins after the removal. -/
theorem removed_user_shut_out_later :
    ∃ result,
      ((servicePool suite (fun _ => newReplayCache second) 0 removalCalls).run
        (untilRemoval ++ sinceRemoval)).threads[3]? = some (.ret result) ∧
      ¬result.Shows user := by
  have hdone : (((servicePool suite (fun _ => newReplayCache second) 0
      removalCalls).run (untilRemoval ++ sinceRemoval)).threads[3]?.bind
      Proc.result?).isSome = true := by
    decide +kernel
  obtain ⟨result, hresult⟩ := Option.isSome_iff_exists.mp hdone
  have hfinished := Pool.finished_of_result? hresult
  refine ⟨result, hfinished, removed_user_shut_out suite _ 0 removalCalls untilRemoval
    sinceRemoval user (by decide +kernel) ?_ 3 (by decide) result hfinished⟩
  intro k call hcall hadds
  obtain ⟨hk, rfl⟩ := List.getElem?_eq_some_iff.mp hcall
  have hcount : k < 5 := hk
  interval_cases k
  · exact ⟨.added (.ok ()), rfl⟩
  all_goals exact hadds.elim

end SingEwp
