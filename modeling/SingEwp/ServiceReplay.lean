import SingEwp.ServiceSnapshots

/-!
# Replayed hellos at a busy service

`HandleConn` runs any number of handshakes at once, and the replay cache is all
that stands between a recorded ClientHello and the handler.  As long as nobody
replaces the cache of `NewService`, two handshakes with the same first message
both reach the handler, for the same user, only if the whole window passes
between the first turn of one of them, rounded down to the second as the cache
reads its clock, and the moment at which both are done.
-/

namespace SingEwp

variable {P : Primitives}

/-! ## The cache keeps what it owes -/

section Owes

variable {W : ℤ}

theorem MarkState.Owes.later
    {s : MarkState} (howes : s.Owes W) {clock : ℤ} (hle : s.clock ≤ clock) :
    ({ s with clock := clock } : MarkState).Owes W where
  window := howes.window
  kept := fun e he hadmitted =>
    (howes.kept e he hadmitted).imp_left fun hold => hold.trans hle
  apart := howes.apart

/-- The state of the service between actions, as far as the cache at address 0
goes. -/
structure ServiceState.Owing (W : ℤ) (s : ServiceState) : Prop where
  sound : s.table.Sound
  owes : (s.markState 0).Owes W

theorem ServiceState.Owing.putMark
    {s : ServiceState} (howing : s.Owing W) {k : ℕ} {m : MarkState}
    (hclock : s.clock ≤ m.clock) (hmark : k = 0 → m.Owes W) :
    (s.putMark k m).Owing W where
  sound := howing.sound
  owes := by
    by_cases hk : k = 0
    · subst hk
      rw [ServiceState.markState_putMark]
      exact hmark rfl
    · rw [ServiceState.markState_putMark_of_ne (Ne.symm hk)]
      exact howing.owes.later hclock

theorem QuietAction.keeps
    {brings : Brings} {label : ServiceLabel}
    {update : ℕ → ServiceState → ServiceState}
    (hquiet : QuietAction brings label update) (elapsed : ℕ) (s : ServiceState)
    (howing : s.Owing W) :
    (update elapsed s).Owing W ∧ s.Grows (update elapsed s) := by
  have hadvances := hquiet.1 elapsed s howing.sound
  refine ⟨⟨hadvances.sound, ?_⟩, hadvances.grows⟩
  rw [hquiet.2 elapsed s 0]
  exact howing.owes.tick elapsed

/-- What a call knows of its reading when it waits for the cache at `k`. -/
def ReadAt (W : ℤ) (k : ℕ) (times : ℤ × ℤ) (s : ServiceState) : Prop :=
  times.1 ≤ unixSeconds s.clock ∧ (k = 0 → times.2 = times.1 + W)

theorem markAt_grants
    (hW : 1 ≤ W) (s : ServiceState) (call k : ℕ) (uuid : Uuid)
    (nonce : HelloNonce) :
    Proc.Grants ServiceState.Grows (fun _ => ServiceState.Grows)
      (ServiceState.Owing W) (fun _ _ => True) s (markAt call k uuid nonce) := by
  have hgrows : ∀ (elapsed : ℕ) (s' : ServiceState) (now expiry : ℤ),
      (s'.markState k).Grows
        (((s'.markState k).tick elapsed).enter call (makeReplayKey uuid nonce) now
          expiry).2 := fun elapsed s' now expiry =>
    ((s'.markState k).grows_tick elapsed).trans (MarkState.grows_enter _ _ _ _ _)
  unfold markAt markCall
  rw [Proc.bind_eq, Proc.embed_bind, Proc.embed_atomic]
  refine Proc.Grants.bind (?_ : Proc.Grants _ _ _ (ReadAt W k) s _) ?_
  · apply Proc.Grants.atomic
    intro elapsed s' _ howing
    refine ⟨howing.putMark ((s'.markState k).grows_tick elapsed).1 ?_,
      s'.grows_putMark ((s'.markState k).grows_tick elapsed) rfl, le_rfl, ?_⟩
    · rintro rfl
      exact howing.owes.tick elapsed
    · rintro rfl
      exact congrArg (unixSeconds ((s'.markState 0).tick elapsed).clock + ·)
        howing.owes.window
  · rintro ⟨now, expiry⟩ s ⟨hclock, hexpiry⟩
    rw [Proc.embed_atomic]
    apply Proc.Grants.atomic
    intro elapsed s' hgrown howing
    refine ⟨howing.putMark (hgrows elapsed s' now expiry).1 ?_,
      s'.grows_putMark (hgrows elapsed s' now expiry)
        (ReplayCache.admitLocked_window _ _ _ _), trivial⟩
    rintro rfl
    obtain rfl : expiry = now + W := hexpiry rfl
    have hbehind : now ≤ unixSeconds ((s'.markState 0).tick elapsed).clock :=
      hclock.trans (unixSeconds_mono
        (hgrown.clock.trans ((s'.markState 0).grows_tick elapsed).1))
    exact (howing.owes.tick elapsed).enter hW hbehind call _

theorem handleCall_grants
    (hW : 1 ≤ W) (s : ServiceState) (call : ℕ) (env : ServeEnv P) :
    Proc.Grants ServiceState.Grows (fun _ => ServiceState.Grows)
      (ServiceState.Owing W) (fun _ _ => True) s (handleCall P call env) := by
  have hquiet : ∀ {α : Type} {p : ServiceProc α} (s : ServiceState),
      Proc.Acts (QuietAction ⟨fun _ => False, fun _ => False⟩) p →
      Proc.Grants ServiceState.Grows (fun _ => ServiceState.Grows)
        (ServiceState.Owing W) (fun _ _ => True) s p := fun s hacts =>
    .of_acts (fun _ _ hquiet elapsed s => hquiet.keeps elapsed s) hacts s
  refine Proc.Grants.bind (hquiet s (timed_read_quiet _)) fun snap s _ => ?_
  cases env.hello with
  | error e => trivial
  | ok helloIn =>
      refine Proc.Grants.bind (?_ : Proc.Grants _ _ _ (fun _ _ => True) s _)
        fun _ _ _ => trivial
      refine Proc.Grants.bind (hquiet s (authenticateCall_quiet _ _))
        fun checked s _ => ?_
      cases checked with
      | error e => trivial
      | ok pair =>
          refine Proc.Grants.bind (?_ : Proc.Grants _ _ _ (fun _ _ => True) s _)
            fun admitted s _ => ?_
          · cases snap.2 with
            | none => trivial
            | some k => exact markAt_grants hW s call k _ _
          · split
            · exact hquiet s (timed_read_quiet _)
            · trivial

theorem serviceThread_grants
    (hW : 1 ≤ W) (s : ServiceState) (i : ℕ) (call : ServiceCall P) :
    Proc.Grants ServiceState.Grows (fun _ => ServiceState.Grows)
      (ServiceState.Owing W) (fun _ _ => True) s (serviceThread P i call) := by
  by_cases hhandle : ∃ env, call = .handle env
  · obtain ⟨env, rfl⟩ := hhandle
    exact Proc.Grants.bind (handleCall_grants hW s i env) fun _ _ _ => trivial
  · exact .of_acts (fun _ _ hquiet elapsed s => hquiet.keeps elapsed s)
      (serviceThread_quiet i (not_exists.mp hhandle)) s

end Owes

theorem servicePool_owing
    (caches : ℕ → ReplayCache) (clock : ℤ) (calls : List (ServiceCall P))
    (schedule : List (ℕ × ℕ)) :
    ((servicePool P caches clock calls).run schedule).shared.Owing
      (handshakeTimestampWindow + 60) := by
  have hinit : (newService caches clock).Owing (handshakeTimestampWindow + 60) :=
    { sound := newUserTable_sound.1
      owes :=
        { window := rfl
          kept := fun _ he => absurd he List.not_mem_nil
          apart := List.Pairwise.nil } }
  exact (Pool.run_grants schedule
    (G := fun _ _ => ServiceState.Grows) .refl .trans
    (fun _ _ _ _ hgrows => hgrows) (fun _ _ _ _ _ _ => trivial)
    (fun i p hp => by
      obtain ⟨call, -, rfl⟩ := servicePool_thread hp
      exact serviceThread_grants (by decide) _ i call) hinit).1

/-! ## What a handshake leaves in the cache -/

/-- Between the two states the call has been admitted by the cache at `k`. -/
def AdmittedBetween (s t : ServiceState) (call k : ℕ) (ch : ClientHello) : Prop :=
  ∃ e ∈ (t.markState k).marks, e.call = call ∧
    e.key = makeReplayKey ch.uuid ch.nonce ∧ e.admitted = true ∧
    unixSeconds s.clock ≤ e.reading ∧ e.clock ≤ t.clock

theorem AdmittedBetween.widen
    {s s' t t' : ServiceState} {call k : ℕ} {ch : ClientHello}
    (hadmitted : AdmittedBetween s t call k ch) (hs : s'.clock ≤ s.clock)
    (ht : t.Grows t') : AdmittedBetween s' t' call k ch := by
  obtain ⟨e, he, hcall, hkey, hyes, hreading, hclock⟩ := hadmitted
  exact ⟨e, (ht.marks k).2.subset he, hcall, hkey, hyes,
    (unixSeconds_mono hs).trans hreading, hclock.trans ht.clock⟩

theorem MarkState.enter_recorded
    {s s' : MarkState} {call : ℕ} {key : ReplayKey} {now expiry : ℤ}
    {admitted : Bool} (henter : s.enter call key now expiry = (admitted, s')) :
    { call := call, key := key, reading := now, clock := s.clock,
      admitted := admitted } ∈ s'.marks ∧ s'.clock = s.clock := by
  obtain ⟨rfl, rfl⟩ := Prod.mk.inj henter
  exact ⟨List.mem_append_right _ (List.mem_singleton.mpr rfl), rfl⟩

theorem markAt_admitted
    {call k : ℕ} {ch : ClientHello} {views : List (View ℕ ServiceState)}
    {s t : ServiceState} (hturns : Turns s views t)
    (htraces : (markAt call k ch.uuid ch.nonce).Traces views true) :
    AdmittedBetween s t call k ch := by
  obtain ⟨reading, locked, rest, rfl, hclock, henter, -⟩ := markAt_turns htraces
  obtain ⟨hbefore, -, hover, -, -, -, hend⟩ := hturns
  obtain ⟨hmem, hlast⟩ := MarkState.enter_recorded henter
  have hmarked : AdmittedBetween s locked.after call k ch :=
    ⟨_, hmem, rfl, rfl, rfl, unixSeconds_mono (hbefore.trans hover).clock, hlast.ge⟩
  exact hmarked.widen le_rfl (hend.leads .trans)

/-- An accepted hello has been admitted by the cache, if there is one. -/
theorem acceptCall_admitted
    {call : ℕ} {replay : Option ℕ} {snapshot : SliceRef} {msg : Bytes}
    {env : AcceptEnv P} {views : List (View ℕ ServiceState)} {s t : ServiceState}
    {out : Bytes} {res : HandshakeResult} (hturns : Turns s views t)
    (htraces : (acceptCall P call snapshot replay msg env).Traces views
      (.ok (out, res))) :
    ∃ ch, res.clientHello = some ch ∧ decodeClientHello P msg ch.uuid = .ok ch ∧
      ∀ k, replay = some k → AdmittedBetween s t call k ch := by
  obtain ⟨first, later, checked, rfl, hauth, hrest⟩ := htraces.bind
  obtain ⟨mid, hfirst, hlater⟩ := hturns.split .refl
  cases checked with
  | error e => cases hrest.ret_eq
  | ok pair =>
      obtain ⟨uuid, ch⟩ := pair
      obtain ⟨marking, answering, admitted, rfl, hmark, hanswer⟩ := hrest.bind
      obtain ⟨marked, hmarking, hanswering⟩ := hlater.split .refl
      cases admitted with
      | false => cases hanswer.ret_eq
      | true =>
          obtain ⟨view, rest, rfl, hbody⟩ := hanswer.atomic
          obtain ⟨hanswered, -⟩ := Prod.mk.inj hbody
          obtain ⟨_, _, _, _, _, _, _, _, hres⟩ := answerClientHello_ok hanswered
          refine ⟨ch, by rw [hres], authenticateCall_decodes hauth, ?_⟩
          rintro k rfl
          exact (markAt_admitted hmarking hmark).widen
            (hfirst.leads .trans).clock (hanswering.leads .trans)

/-- A handshake that has reached the handler: the hello it got, and the mark it
has left in the cache of its snapshot. -/
theorem handleCall_admitted
    {call : ℕ} {env : ServeEnv P} {views : List (View ℕ ServiceState)}
    {s t : ServiceState} {run : ServeRun} {handled : HandlerCall}
    (hturns : Turns s views t)
    (htraces : (handleCall P call env).Traces views run)
    (hhandled : run.handled = some handled) :
    ∃ view later msg ch, views = view :: later ∧ env.hello = .ok msg ∧
      handled.metadata.userUUID = ch.uuid ∧
      decodeClientHello P msg ch.uuid = .ok ch ∧
      ∀ k, view.before.replay = some k →
        AdmittedBetween view.after t call k ch := by
  obtain ⟨view, later, rfl, -, hrest⟩ := htraces.atomic_bind
  obtain ⟨-, -, -, hlater⟩ := hturns
  cases hhello : env.hello with
  | error e =>
      rw [hhello] at hrest
      rw [← hrest.ret_eq] at hhandled
      cases hhandled
  | ok msg =>
      rw [hhello] at hrest
      obtain ⟨accepting, rest, accepted, rfl, haccept, hserve⟩ := hrest.bind
      obtain ⟨mid, haccepting, hend⟩ := hlater.split .refl
      rw [← hserve.ret_eq] at hhandled
      cases accepted with
      | error e => cases hhandled
      | ok answer =>
          obtain ⟨out, res⟩ := answer
          obtain ⟨ch, hch, hdecode, hadmitted⟩ :=
            acceptCall_admitted haccepting haccept
          refine ⟨view, _, msg, ch, rfl, rfl, serveAccepted_user hch hhandled,
            hdecode, fun k hreplay => ?_⟩
          exact (hadmitted k hreplay).widen le_rfl (hend.leads .trans)

/-! ## Two handshakes with one hello -/

section Replayed

variable {caches : ℕ → ReplayCache} {clock : ℤ} {calls : List (ServiceCall P)}
variable {schedule : List (ℕ × ℕ)}

theorem servicePool_replay
    (hinstalls : ∀ call ∈ calls, ∀ replay, call.brings.cache replay →
      replay = some 0) (schedule : List (ℕ × ℕ)) :
    ((servicePool P caches clock calls).run schedule).shared.replay = some 0 := by
  have hthreads : ∀ p ∈ (servicePool P caches clock calls).threads,
      Proc.Acts (ServiceAction ⟨fun _ => True, (· = some 0)⟩) p := by
    intro p hp
    obtain ⟨i, hi⟩ := List.mem_iff_getElem?.mp hp
    obtain ⟨call, hcall, rfl⟩ := servicePool_thread hi
    exact (serviceThread_acts i call).mono fun _ _ =>
      .mono (fun _ _ => trivial) (hinstalls call (List.mem_of_getElem? hcall))
  refine (Pool.run_invariant (I := fun s => s.table.Sound ∧ s.replay = some 0)
    hthreads ?_ (Pool.admits_of_forall (fun _ _ _ => trivial) _ schedule)
    ⟨newUserTable_sound.1, rfl⟩).2
  rintro label update haction elapsed s ⟨hsound, hreplay⟩ -
  obtain ⟨hsound', -, -, hinstalled⟩ := haction elapsed s hsound
  exact ⟨hsound', hinstalled.elim (fun hsame => hsame.trans hreplay) id⟩

/-- A handshake that has reached the handler has been admitted by the cache at
address 0 after its first turn. -/
theorem handled_admitted
    (hinstalls : ∀ call ∈ calls, ∀ replay, call.brings.cache replay →
      replay = some 0) {i : ℕ} {env : ServeEnv P} {run : ServeRun}
    {handled : HandlerCall} (hcall : calls[i]? = some (.handle env))
    (hdone : ((servicePool P caches clock calls).run schedule).threads[i]? =
      some (.ret (.handled run))) (hhandled : run.handled = some handled) :
    ∃ first elapsed rest msg ch, schedule = first ++ (i, elapsed) :: rest ∧
      (∀ turn ∈ first, turn.1 ≠ i) ∧
      env.hello = .ok msg ∧ handled.metadata.userUUID = ch.uuid ∧
      decodeClientHello P msg ch.uuid = .ok ch ∧
      AdmittedBetween
        ((servicePool P caches clock calls).run (first ++ [(i, elapsed)])).shared
        ((servicePool P caches clock calls).run schedule).shared i 0 ch := by
  have hthread : (servicePool P caches clock calls).threads[i]? =
      some (serviceThread P i (.handle env)) := by
    simp [servicePool, List.getElem?_mapIdx, hcall]
  have hturns := servicePool_turns caches clock calls i schedule
  obtain ⟨handling, rest, run', hviews, hhandle, hresult⟩ :=
    (Pool.run_traces hthread hdone).bind
  obtain rfl := ServiceResult.handled.inj hresult.ret_eq
  rw [hviews] at hturns
  obtain ⟨mid, hhandling, hend⟩ := hturns.split .refl
  obtain ⟨view, later, msg, ch, rfl, hhello, huser, hdecode, hadmitted⟩ :=
    handleCall_admitted hhandling hhandle hhandled
  obtain ⟨first, tail, rfl, hidle, hbefore, hafter, -⟩ := Pool.seen_eq_cons hviews
  refine ⟨first, view.env, tail, msg, ch, rfl, hidle, hhello, huser, hdecode, ?_⟩
  have hreplay : view.before.replay = some 0 := by
    rw [hbefore]
    exact servicePool_replay hinstalls first
  rw [← hafter]
  exact (hadmitted 0 hreplay).widen le_rfl (hend.leads .trans)

end Replayed

/-- If two handshakes with the same first message are both passed to the handler,
for the same user, then a whole replay window has gone by since the full second
in which one of them took its first turn. -/
theorem replayed_hello_a_window_apart
    (P : Primitives) (caches : ℕ → ReplayCache) (clock : ℤ)
    (calls : List (ServiceCall P))
    (hinstalls : ∀ call ∈ calls, ∀ replay, call.brings.cache replay →
      replay = some 0)
    (schedule : List (ℕ × ℕ)) (i j : ℕ) (hij : i ≠ j) (env env' : ServeEnv P)
    (hi : calls[i]? = some (.handle env)) (hj : calls[j]? = some (.handle env'))
    (hreplayed : env.hello = env'.hello) (run run' : ServeRun)
    (hdone : ((servicePool P caches clock calls).run schedule).threads[i]? =
      some (.ret (.handled run)))
    (hdone' : ((servicePool P caches clock calls).run schedule).threads[j]? =
      some (.ret (.handled run')))
    (handled handled' : HandlerCall) (hhandled : run.handled = some handled)
    (hhandled' : run'.handled = some handled')
    (huser : handled.metadata.userUUID = handled'.metadata.userUUID) :
    ∃ thread first elapsed rest, (thread = i ∨ thread = j) ∧
      schedule = first ++ (thread, elapsed) :: rest ∧
      (∀ turn ∈ first, turn.1 ≠ thread) ∧
      (unixSeconds ((servicePool P caches clock calls).run
        (first ++ [(thread, elapsed)])).shared.clock +
          (handshakeTimestampWindow + 60)) * second ≤
        ((servicePool P caches clock calls).run schedule).shared.clock := by
  obtain ⟨first, elapsed, rest, msg, ch, hschedule, hidle, hhello, huuid, hdecode,
    e, he, hcall, hkey, hyes, hreading, hclock⟩ :=
      handled_admitted hinstalls hi hdone hhandled
  obtain ⟨first', elapsed', rest', msg', ch', hschedule', hidle', hhello', huuid',
    hdecode', e', he', hcall', hkey', hyes', hreading', hclock'⟩ :=
      handled_admitted hinstalls hj hdone' hhandled'
  -- the same message under the same user is the same hello
  have hsame : ch = ch' := by
    obtain rfl : msg = msg' := Except.ok.inj
      (hhello.symm.trans (hreplayed.trans hhello'))
    rw [← huuid, huser, huuid'] at hdecode
    exact Except.ok.inj (hdecode.symm.trans hdecode')
  have hkeys : e.key = e'.key := by rw [hkey, hkey', hsame]
  have hlater : ∀ {a b t : ℤ} {x : MarkEvent},
      unixSeconds a ≤ x.reading → (x.reading + (handshakeTimestampWindow + 60)) *
        second ≤ b → b ≤ t →
      (unixSeconds a + (handshakeTimestampWindow + 60)) * second ≤ t := by
    intro a b t x hstart hapart hend
    have hpos : (0 : ℤ) ≤ second := by decide
    exact (mul_le_mul_of_nonneg_right (by omega) hpos).trans (hapart.trans hend)
  have hne : e ≠ e' := by
    rintro rfl
    exact hij (hcall.symm.trans hcall')
  have hpair : e.Apart (handshakeTimestampWindow + 60) e' ∨
      e'.Apart (handshakeTimestampWindow + 60) e := by
    have howing := servicePool_owing (P := P) caches clock calls schedule
    obtain ⟨m, hm, rfl⟩ := List.mem_iff_getElem.mp he
    obtain ⟨n, hn, rfl⟩ := List.mem_iff_getElem.mp he'
    have hapart := List.pairwise_iff_getElem.mp howing.owes.apart
    rcases lt_trichotomy m n with hlt | heq | hgt
    · exact Or.inl (hapart m n hm hn hlt)
    · subst heq
      exact absurd rfl hne
    · exact Or.inr (hapart n m hn hm hgt)
  rcases hpair with hapart | hapart
  · exact ⟨i, first, elapsed, rest, Or.inl rfl, hschedule, hidle,
      hlater hreading (hapart hkeys hyes hyes') hclock'⟩
  · exact ⟨j, first', elapsed', rest', Or.inr rfl, hschedule', hidle',
      hlater hreading' (hapart hkeys.symm hyes' hyes) hclock⟩

namespace Transparent

def recordedCalls : List (ServiceCall suite) :=
  [.addUser spelledUser 0, .handle helloEnv, .handle helloEnv]

/-- A hello dated 1000 arrives at 890 and is played back at 1075. -/
def recordedSchedule : List (ℕ × ℕ) :=
  (0, 890000000000) :: List.replicate 6 (1, 0) ++
    (2, 185000000000) :: List.replicate 5 (2, 0)

end Transparent

open Transparent in
/-- The clock of the client is ahead, and the hello is served a second time. -/
theorem replayed_hello_a_window_apart_recorded :
    ∃ thread first elapsed rest, (thread = 1 ∨ thread = 2) ∧
      recordedSchedule = first ++ (thread, elapsed) :: rest ∧
      (∀ turn ∈ first, turn.1 ≠ thread) ∧
      (unixSeconds ((servicePool suite (fun _ => newReplayCache second) 0
        recordedCalls).run (first ++ [(thread, elapsed)])).shared.clock +
          (handshakeTimestampWindow + 60)) * second ≤
        ((servicePool suite (fun _ => newReplayCache second) 0 recordedCalls).run
          recordedSchedule).shared.clock := by
  have hserved : ∀ i ∈ [1, 2], servedUser ((servicePool suite
      (fun _ => newReplayCache second) 0 recordedCalls).run recordedSchedule) i =
        some user := by
    decide +kernel
  obtain ⟨run, call, hdone, hhandled, huser⟩ :=
    servedUser_eq_some (hserved 1 (by simp))
  obtain ⟨run', call', hdone', hhandled', huser'⟩ :=
    servedUser_eq_some (hserved 2 (by simp))
  refine replayed_hello_a_window_apart suite (fun _ => newReplayCache second) 0
    recordedCalls ?_ recordedSchedule 1 2 (by decide) helloEnv helloEnv rfl rfl rfl
    run run' hdone hdone' call call' hhandled hhandled' (huser.trans huser'.symm)
  intro call hcall replay hbrings
  rcases List.mem_cons.mp hcall with rfl | hrest
  · exact hbrings.elim
  · rcases List.mem_cons.mp hrest with rfl | hlast
    · exact hbrings.elim
    · rw [List.mem_singleton.mp hlast] at hbrings
      exact hbrings.elim

end SingEwp
