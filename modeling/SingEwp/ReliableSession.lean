import SingEwp.SessionLink
import SingEwp.SizeLeakage
import SingEwp.TunnelReader
import SingEwp.UdpEvents

/-!
# A session over a reliable transport

Callers on both sides of a session send, receive and close in any interleaving.
The session never ends by itself.  A side that does not call `Close` stays open
until the other side has called it, and by then it has received every frame that
a send was successful with.
-/

namespace SingEwp

variable {P : Primitives}

/-! ## Calls -/

theorem frameParses_tunnel
    {t : FrameType} (htype : t ∈ tunnelTypes) (metaBytes : Bytes) :
    FrameParses t metaBytes := by
  rintro fr counter rfl _
  exact ⟨_, eventOf_tunnel htype⟩

theorem frameParses_addressed
    {t : FrameType} (htype : t ∈ [frameUDPNew, frameUDPData, frameUDPProbeResp])
    {globalID : GlobalID} {target : Address} {metaBytes : Bytes}
    (hbuild : buildUDPMeta globalID target = .ok metaBytes) :
    FrameParses t metaBytes := by
  rintro fr counter rfl rfl
  exact ⟨_, eventOf_addressed htype hbuild counter⟩

theorem frameParses_bare
    {t : FrameType} (htype : t ∈ [frameUDPEnd, frameUDPProbeReq])
    (globalID : GlobalID) : FrameParses t globalID.val := by
  rintro fr counter rfl hmeta
  exact ⟨_, eventOf_bare htype hmeta counter⟩

/-- The peer parses the meta that any of the methods builds. -/
theorem SendCall.request_parses
    {call : SendCall} {r : SendRequest} (hrequest : call.request? = some r) :
    FrameParses r.type r.metaBytes := by
  have haddressed : ∀ (t : FrameType) (globalID : GlobalID) (target : Address)
      (payload : Bytes), t ∈ [frameUDPNew, frameUDPData, frameUDPProbeResp] →
      (buildUDPMeta globalID target).toOption.map
          (fun metaBytes => SendRequest.mk t metaBytes payload (-1)) = some r →
      FrameParses r.type r.metaBytes := by
    intro t globalID target payload htype hmap
    cases hbuild : buildUDPMeta globalID target with
    | error e => simp [hbuild, Except.toOption] at hmap
    | ok metaBytes =>
        simp only [hbuild, Except.toOption, Option.map_some, Option.some.injEq]
          at hmap
        subst hmap
        exact frameParses_addressed htype hbuild
  cases call with
  | tcpData payload =>
      rw [SendCall.request?] at hrequest
      split at hrequest
      · cases hrequest
        exact frameParses_tunnel (by simp [tunnelTypes]) _
      · cases hrequest
  | udpNew globalID target initial => exact haddressed _ _ _ _ (by simp) hrequest
  | udpData globalID target payload => exact haddressed _ _ _ _ (by simp) hrequest
  | probeResp globalID observed => exact haddressed _ _ _ _ (by simp) hrequest
  | udpEnd globalID =>
      cases hrequest
      exact frameParses_bare (by simp) globalID
  | probeReq globalID =>
      cases hrequest
      exact frameParses_bare (by simp) globalID
  | ping cookie =>
      cases hrequest
      exact frameParses_tunnel (by simp [tunnelTypes]) _
  | pong cookie =>
      cases hrequest
      exact frameParses_tunnel (by simp [tunnelTypes]) _
  | coverPad padLen =>
      cases hrequest
      exact frameParses_tunnel (by simp [tunnelTypes]) _

/-- The frames of a call: one, or the pieces that a long payload is cut into. -/
inductive SendCall.Hands : SendCall → List SentFrame → Prop where
  | frame {call : SendCall} {r : SendRequest} {e : SentFrame}
      (hrequest : call.request? = some r)
      (hcontent : e.content = (r.type, r.metaBytes, r.payload)) :
      Hands call [e]
  | pieces {payload : Bytes} {frames : List SentFrame}
      (hdata : ∀ e ∈ frames, e.type = frameTCPData ∧ e.metaBytes = [])
      (hpayload : frames.flatMap SentFrame.payload = payload) :
      Hands (.tcpData payload) frames

section Contracts

variable {keys : SessionKeys} {quits : Side → Prop} {dir side : Side}
variable {ok : DuplexLabel → StreamEnv → LinkedPair → Prop}

/-- A thread's contract on what the transport takes from the side `dir`. -/
abbrev SessionMeets {α : Type} (P : Primitives) (keys : SessionKeys)
    (quits : Side → Prop) (ok : DuplexLabel → StreamEnv → LinkedPair → Prop)
    (dir : Side) (Post : List SentFrame → α → Prop) (so : List SentFrame)
    (p : Proc DuplexLabel StreamEnv LinkedPair α) : Prop :=
  Proc.Meets (SessionOk P keys quits) ok (fun st => st.taken dir)
    (fun _ => True) Post so p

/-- An action that does not touch the stream. -/
theorem idle_sessionMeets
    {α : Type} {label : StreamLabel} {read : StreamEnv → SecureStream → α}
    {Post : List SentFrame → α → Prop} {so : List SentFrame}
    (hread : ∀ env s, Post so (read env s)) :
    SessionMeets P keys quits ok dir Post so
      (inSession side (Proc.atomic label (fun env s => (read env s, s)))) := by
  rw [inSession, Proc.embed_atomic]
  apply Proc.Meets.atomic trivial
  intro env st hst _
  obtain ⟨hnext, htaken⟩ := hst.put_self side
  refine ⟨hnext, [], ?_, trivial, ?_⟩
  · rw [List.append_nil]
    exact htaken dir
  · rw [List.append_nil]
    exact hread _ _

theorem sendFrame_sessionMeets
    (so : List SentFrame) {t : FrameType} {metaBytes : Bytes}
    (hparses : FrameParses t metaBytes) (payload : Bytes) (padLen : ℤ) :
    SessionMeets P keys quits ok dir
      (fun all outcome => dir = side → outcome = .ok () →
        ∃ wire, all = so ++ [⟨t, metaBytes, payload, wire⟩]) so
      (inSession side (sendFrame P t metaBytes payload padLen)) := by
  rw [inSession, sendFrame, Proc.bind_eq, Proc.embed_bind]
  have htest : SessionMeets P keys quits ok dir (fun all _ => all = so) so
      (inSession side (Proc.observe .closedTest SecureStream.closed)) :=
    idle_sessionMeets (fun _ _ => rfl)
  refine Proc.Meets.bind htest ?_
  rintro all closed _ rfl
  split
  · exact ⟨trivial, fun _ hok => by cases hok⟩
  · rw [Proc.embed_atomic]
    apply Proc.Meets.atomic trivial
    intro env st hst _
    have hanswer : ∀ msg, (st.transport side env).sendMessage msg =
        if (st.stream side).closed then some (.io .closedPipe) else none :=
      fun _ => rfl
    obtain ⟨new, hnext, htaken, hsent⟩ :=
      hst.sendLocked hparses payload padLen hanswer
    refine ⟨hnext, _, htaken dir, trivial, ?_⟩
    intro hdir hdone
    obtain ⟨wire, rfl⟩ := hsent hdone
    exact ⟨wire, by rw [if_pos hdir]⟩

/-- The pieces that have gone out make up what is no longer to be sent. -/
theorem sendChunks_sessionMeets
    (so : List SentFrame) (fuel : ℕ) (payload : Bytes)
    (hfuel : payload.length ≤ fuel) :
    SessionMeets P keys quits ok dir
      (fun all outcome => dir = side → outcome = .ok () →
        ∃ pieces, all = so ++ pieces ∧
          (∀ e ∈ pieces, e.type = frameTCPData ∧ e.metaBytes = []) ∧
          pieces.flatMap SentFrame.payload = payload) so
      (inSession side (sendChunks P fuel payload)) := by
  induction fuel generalizing so payload with
  | zero =>
      have hnil : payload = [] := by simpa using hfuel
      exact ⟨trivial, fun _ _ => ⟨[], by simp, by simp, by simp [hnil]⟩⟩
  | succ fuel ih =>
      unfold sendChunks
      by_cases hnil : payload = []
      · rw [if_pos hnil]
        exact ⟨trivial, fun _ _ => ⟨[], by simp, by simp, by simp [hnil]⟩⟩
      · rw [if_neg hnil, inSession, Proc.bind_eq, Proc.embed_bind]
        have hdraw : SessionMeets P keys quits ok dir
            (fun all chunk => all = so ∧ 0 < chunk) so
            (inSession side (Proc.atomic .chunkDraw (fun env s =>
              (nextChunk payload.length env.chunk, s)))) :=
          idle_sessionMeets (fun env _ =>
            ⟨rfl, nextChunk_pos (List.length_pos_iff.mpr hnil) env.chunk⟩)
        refine Proc.Meets.bind hdraw ?_
        rintro all chunk _ ⟨rfl, hchunk⟩
        rw [Proc.bind_eq, Proc.embed_bind]
        refine Proc.Meets.bind (sendFrame_sessionMeets all
          (frameParses_tunnel (by simp [tunnelTypes]) _) _ _) ?_
        intro mid outcome _ hsent
        cases outcome with
        | ok value =>
            refine (ih mid (payload.drop chunk) ?_).mono ?_
            · rw [List.length_drop]
              omega
            · intro last result _ hrest hdir hdone
              obtain ⟨wire, rfl⟩ := hsent hdir rfl
              obtain ⟨pieces, rfl, hdata, hpayload⟩ := hrest hdir hdone
              refine ⟨⟨frameTCPData, [], payload.take chunk, wire⟩ :: pieces,
                by simp, ?_, ?_⟩
              · rintro e (_ | ⟨_, he⟩)
                · exact ⟨rfl, rfl⟩
                · exact hdata e he
              · rw [List.flatMap_cons, hpayload]
                exact List.take_append_drop _ _
        | error e => exact ⟨trivial, fun _ hok => by cases hok⟩
        | panic => exact ⟨trivial, fun _ hok => by cases hok⟩

theorem SendCall.request_none
    {call : SendCall} (hrequest : call.request? = none) :
    (∃ payload, call = .tcpData payload ∧
      call.proc P = sendChunks P payload.length payload) ∨
    ∃ e, call.proc P = .ret (.error e) := by
  have haddressed : ∀ (t : FrameType) (globalID : GlobalID) (target : Address)
      (payload : Bytes) (make : Bytes → SendRequest),
      (buildUDPMeta globalID target).toOption.map make = none →
      ∃ e, sendAddressed P t globalID target payload = .ret (.error e) := by
    intro t globalID target payload make hmap
    unfold sendAddressed
    cases hbuild : buildUDPMeta globalID target with
    | error e => exact ⟨e, rfl⟩
    | ok metaBytes => simp [hbuild, Except.toOption] at hmap
  cases call with
  | tcpData payload =>
      rw [SendCall.request?] at hrequest
      split at hrequest
      · cases hrequest
      · rename_i hlong
        exact Or.inl ⟨payload, rfl, if_neg hlong⟩
  | udpNew globalID target initial =>
      exact Or.inr (haddressed _ _ _ _ _ hrequest)
  | udpData globalID target payload =>
      exact Or.inr (haddressed _ _ _ _ _ hrequest)
  | probeResp globalID observed =>
      exact Or.inr (haddressed _ _ _ _ _ hrequest)
  | udpEnd globalID => cases hrequest
  | probeReq globalID => cases hrequest
  | ping cookie => cases hrequest
  | pong cookie => cases hrequest
  | coverPad padLen => cases hrequest

theorem SendCall.sessionMeets (call : SendCall) :
    SessionMeets P keys quits ok dir
      (fun all outcome => dir = side → outcome = .ok () → call.Hands all) []
      (inSession side (call.proc P)) := by
  cases hrequest : call.request? with
  | some r =>
      rw [(SendCall.proc_of_request hrequest).1]
      refine (sendFrame_sessionMeets [] (SendCall.request_parses hrequest) _ _).mono
        ?_
      intro all outcome _ hsent hdir hdone
      obtain ⟨wire, rfl⟩ := hsent hdir hdone
      exact .frame hrequest rfl
  | none =>
      rcases SendCall.request_none (P := P) hrequest with
        ⟨payload, rfl, hproc⟩ | ⟨e, hproc⟩
      · rw [hproc]
        refine (sendChunks_sessionMeets [] _ _ le_rfl).mono ?_
        intro all outcome _ hsent hdir hdone
        obtain ⟨pieces, rfl, hdata, hpayload⟩ := hsent hdir hdone
        exact .pieces hdata hpayload
      · rw [hproc]
        exact ⟨trivial, fun _ hok => by cases hok⟩

/-- What a call leaves behind in one direction. -/
def CallPost (dir side : Side) (call : StreamCall) (all : List SentFrame)
    (result : StreamResult) : Prop :=
  ∀ send, call = .send send → dir = side → result = .sent (.ok ()) →
    send.Hands all

theorem StreamCall.sessionMeets
    (call : StreamCall) (hquits : call = .close → quits side) :
    SessionMeets P keys quits LinkedPair.Ready dir (CallPost dir side call) []
      (inSession side (call.proc P)) := by
  cases call with
  | send call =>
      rw [inSession, StreamCall.proc, Proc.bind_eq, Proc.embed_bind]
      refine Proc.Meets.bind call.sessionMeets ?_
      rintro all outcome _ hsent
      refine ⟨trivial, ?_⟩
      rintro _ ⟨⟩ hdir hdone
      cases hdone
      exact hsent hdir rfl
  | recv =>
      rw [inSession, StreamCall.proc, Proc.bind_eq, Proc.embed_bind]
      have htest : SessionMeets P keys quits LinkedPair.Ready dir
          (fun all _ => all = []) []
          (inSession side (Proc.observe .closedTest SecureStream.closed)) :=
        idle_sessionMeets (fun _ _ => rfl)
      refine Proc.Meets.bind htest ?_
      rintro all closed _ rfl
      split
      · exact ⟨trivial, by rintro _ ⟨⟩⟩
      · rw [Proc.embed_atomic]
        apply Proc.Meets.atomic trivial
        intro env st hst hready
        obtain ⟨hnext, htaken⟩ := hst.recvOpened env hready
        refine ⟨hnext, [], ?_, trivial, by rintro _ ⟨⟩⟩
        rw [List.append_nil]
        exact htaken dir
  | close =>
      rw [inSession, StreamCall.proc, Proc.embed_atomic]
      apply Proc.Meets.atomic trivial
      intro env st hst _
      obtain ⟨hnext, htaken⟩ := hst.close (hquits rfl)
      refine ⟨hnext, [], ?_, trivial, by rintro _ ⟨⟩⟩
      rw [List.append_nil]
      exact htaken dir

end Contracts

/-! ## Runs -/

section Runs

variable {keys : SessionKeys} {calls : List (Side × StreamCall)}

/-- The side has a caller of `Close`. -/
def Quits (calls : List (Side × StreamCall)) (side : Side) : Prop :=
  (side, StreamCall.close) ∈ calls

theorem sessionPool_meets
    (dir : Side) (thread : ℕ) (p : Proc DuplexLabel StreamEnv LinkedPair StreamResult)
    (hp : (sessionPool P keys calls).threads[thread]? = some p) :
    SessionMeets P keys (Quits calls) LinkedPair.Ready dir
      (fun all result => ∀ side call, calls[thread]? = some (side, call) →
        CallPost dir side call all result) [] p := by
  simp only [sessionPool, List.getElem?_map, Option.map_eq_some_iff] at hp
  obtain ⟨⟨side, call⟩, hcall, rfl⟩ := hp
  refine (call.sessionMeets ?_).mono ?_
  · rintro rfl
    exact List.mem_of_getElem? hcall
  · intro all result _ hpost side' call' hcall'
    rw [hcall] at hcall'
    cases hcall'
    exact hpost

/-- Streams stay closed on both sides. -/
def LinkedPair.StaysClosed (st st' : LinkedPair) : Prop :=
  ∀ side, SingEwp.StaysClosed (st.stream side) (st'.stream side)

theorem LinkedPair.staysClosed_put
    {side : Side} {s : SecureStream} {st : LinkedPair}
    (hstays : SingEwp.StaysClosed (st.stream side) s) :
    st.StaysClosed (st.put side s) := by
  intro dir
  rcases Side.eq_or_eq_peer side dir with rfl | rfl
  · rw [LinkedPair.put_stream_self]
    exact hstays
  · rw [LinkedPair.put_stream_peer]
    exact id

theorem inSession_grants
    {side : Side} {call : StreamCall} (st : LinkedPair) :
    Proc.Grants LinkedPair.StaysClosed (fun _ => LinkedPair.StaysClosed)
      (fun st => ∀ side, ClosedOnce (st.stream side))
      (fun result st => ClosedIfFatal result (st.stream side)) st
      (inSession side (call.proc P)) := by
  refine Proc.Grants.embed (fun _ s st => LinkedPair.put_stream_self side s st)
    (fun hgrown => hgrown side) (fun hinv => hinv side) ?_
    (call.grants (st.stream side))
  intro label env s st' hinv honce hstays
  refine ⟨?_, LinkedPair.staysClosed_put hstays⟩
  intro dir
  rcases Side.eq_or_eq_peer side dir with rfl | rfl
  · rw [LinkedPair.put_stream_self]
    exact honce
  · rw [LinkedPair.put_stream_peer]
    exact hinv _

theorem sessionPool_fatal
    {schedule : List (ℕ × StreamEnv)} {thread : ℕ} {side : Side}
    {call : StreamCall} {result : StreamResult}
    (hcall : calls[thread]? = some (side, call))
    (hresult : ((sessionPool P keys calls).run schedule).threads[thread]?.bind
      Proc.result? = some result) (hfatal : result.Fatal) :
    (((sessionPool P keys calls).run schedule).shared.stream side).closed =
      true := by
  have hthreads : ∀ (i : ℕ) p, (sessionPool P keys calls).threads[i]? = some p →
      Proc.Grants LinkedPair.StaysClosed (fun _ => LinkedPair.StaysClosed)
        (fun st => ∀ side, ClosedOnce (st.stream side))
        (fun result st => ∀ side call, calls[i]? = some (side, call) →
          ClosedIfFatal result (st.stream side))
        (sessionPool P keys calls).shared p := by
    intro i p hp
    simp only [sessionPool, List.getElem?_map, Option.map_eq_some_iff] at hp
    obtain ⟨⟨side, call⟩, hcall, rfl⟩ := hp
    refine (inSession_grants _).mono ?_
    intro result st hpost side' call' hcall'
    rw [hcall] at hcall'
    cases hcall'
    exact hpost
  have hinit : ∀ side,
      ClosedOnce ((sessionPool P keys calls).shared.stream side) := by
    rintro (_ | _) <;> rfl
  have hstable : ∀ (i : ℕ) (result : StreamResult) {a b : LinkedPair},
      a.StaysClosed b →
      (∀ side call, calls[i]? = some (side, call) →
        ClosedIfFatal result (a.stream side)) →
      ∀ side call, calls[i]? = some (side, call) →
        ClosedIfFatal result (b.stream side) := by
    intro i result a b hgrown hpost side call hcall
    exact (hpost side call hcall).grown (hgrown side)
  obtain ⟨_, _, _, hrun⟩ := Pool.run_grants schedule
    (R := LinkedPair.StaysClosed) (G := fun _ _ => LinkedPair.StaysClosed)
    (fun _ _ => id) (fun hab hbc side => (hab side).trans (hbc side))
    (fun _ _ => id) hstable hthreads hinit
  exact hrun thread _ (Pool.finished_of_result? hresult) side call hcall hfatal

/-- What a side can count on that no caller of its own closes. -/
structure Served (calls : List (Side × StreamCall)) (side : Side)
    (final : Pool DuplexLabel StreamEnv LinkedPair StreamResult) : Prop where
  received : (final.shared.stream side).received.map (fun r => r.frame.content) <+:
    (final.shared.taken side.peer).map SentFrame.content
  events : ∀ r ∈ (final.shared.stream side).received,
    eventOf r.frame = .ok r.event
  /-- The peer's successful sends have all been taken. -/
  sent : ∀ (thread : ℕ) (send : SendCall),
    calls[thread]? = some (side.peer, .send send) →
    final.threads[thread]?.bind Proc.result? = some (.sent (.ok ())) →
    ∃ frames, send.Hands frames ∧
      frames.Sublist (final.shared.taken side.peer)
  /-- No call fails for good while the stream is open. -/
  fatal : ∀ (thread : ℕ) (call : StreamCall) (result : StreamResult),
    calls[thread]? = some (side, call) →
    final.threads[thread]?.bind Proc.result? = some result → result.Fatal →
    (final.shared.stream side).closed = true
  /-- The stream is over only when the peer has been closed by a caller of its own
  and everything that was taken has been received. -/
  ended : (final.shared.stream side).closed = true →
    (side.peer, StreamCall.close) ∈ calls ∧
      (final.shared.stream side.peer).closed = true ∧
      (final.shared.stream side).received.map (fun r => r.frame.content) =
        (final.shared.taken side.peer).map SentFrame.content ∧
      (final.shared.stream side).frmIn = (final.shared.stream side.peer).frmOut ∧
      (final.shared.stream side).bytesIn = (final.shared.stream side.peer).bytesOut

/-- Over a reliable transport a session never ends by itself, and closing one end
loses nothing of what was sent. -/
theorem reliable_session
    (P : Primitives) (keys : SessionKeys) (calls : List (Side × StreamCall))
    (schedule : List (ℕ × StreamEnv))
    (hready : (sessionPool P keys calls).Admits LinkedPair.Ready schedule)
    (side : Side) (hstays : (side, StreamCall.close) ∉ calls) :
    Served calls side ((sessionPool P keys calls).run schedule) := by
  have hinit := newLinkedPair_ok P keys (Quits calls)
  obtain ⟨hfinal, hthreads⟩ :=
    Pool.run_meets (sessionPool_meets side.peer) hready hinit
  have hlink := hfinal.receiver side
  exact
    { received := hlink.delivered
      events := hlink.events
      sent := by
        intro thread send hcall hresult
        have hsub := Pool.contribution_sublist (fun _ => [])
          (sessionPool_meets side.peer) hready hinit thread
        have hpost := (hthreads thread _ (Pool.finished_of_result? hresult)).2
        exact ⟨_, hpost _ _ hcall send rfl rfl rfl, hsub⟩
      fatal := fun thread call result hcall hresult hfatal =>
        sessionPool_fatal hcall hresult hfatal
      ended := by
        intro hclosed
        obtain ⟨hover, hall⟩ := (hlink.ended hclosed).resolve_left hstays
        refine ⟨?_, hover, ?_, ?_, ?_⟩
        · obtain ⟨quitter, hquits, _⟩ := hfinal.started side hclosed
          rcases Side.eq_or_eq_peer side quitter with rfl | rfl
          · exact absurd hquits hstays
          · exact hquits
        · exact hlink.delivered.eq_of_length (by simpa using hall)
        · rw [hlink.frmIn, hlink.frmOut, hall]
        · rw [hlink.bytesIn, hlink.bytesOut, hall, List.take_length] }

end Runs

namespace Transparent

/-- The client pings and hangs up before the server has read anything. -/
def hangUpCalls : List (Side × StreamCall) :=
  [(.client, .send (.ping [1])), (.client, .close), (.server, .recv),
    (.server, .recv)]

def hangUpSchedule : List (ℕ × StreamEnv) :=
  [0, 0, 2, 1, 2, 3, 3].map fun thread => (thread, streamEnv (.ok []))

end Transparent

theorem reliable_session_hangUp :
    (((sessionPool Transparent.suite Transparent.keys Transparent.hangUpCalls).run
        Transparent.hangUpSchedule).shared.stream .server).closed = true ∧
      (((sessionPool Transparent.suite Transparent.keys
          Transparent.hangUpCalls).run Transparent.hangUpSchedule).shared.stream
          .server).received.length = 1 ∧
      Served Transparent.hangUpCalls .server
        ((sessionPool Transparent.suite Transparent.keys
          Transparent.hangUpCalls).run Transparent.hangUpSchedule) := by
  refine ⟨by decide +kernel, by decide +kernel,
    reliable_session _ _ _ _ (by decide +kernel) .server ?_⟩
  simp [Transparent.hangUpCalls]

end SingEwp
