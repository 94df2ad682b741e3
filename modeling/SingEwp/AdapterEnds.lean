import SingEwp.Inbound
import SingEwp.ReadSession
import SingEwp.TunnelReader
import SingEwp.PacketDelivery

/-!
# Reading after an error

`streamConn.Read` and `packetConn.ReadFrom` as sessions.  An error of `Recv` has
closed the stream, and no later call gets past it.  The errors that the adapters
make themselves, for a frame type they do not expect and for the end of the
sub-session, leave the stream as it is: the next call goes on reading.
-/

namespace SingEwp

variable {P : Primitives}

/-- What `Recv` has returned between two states of a stream. -/
def receivedSince (s s' : SecureStream) : List Event :=
  (s'.received.drop s.received.length).map ReceivedFrame.event

/-- What becomes of an event in `streamConn.Read`. -/
def Event.tcpVerdict (ev : Event) : Verdict :=
  if ev.type = frameTCPData then
    if ev.payload.bytes = [] then .skip else .deliver
  else if ev.type ∈ [framePaddingOnly, framePing, framePong] then .skip
  else .refuse

/-- What becomes of an event in `packetConn.ReadFrom`. -/
def Event.packetVerdict (globalID : GlobalID) (ev : Event) : Verdict :=
  if ev.type ∈ [frameUDPData, frameUDPNew] then
    if ev.globalID ≠ globalID then .skip else .deliver
  else if ev.type = frameUDPEnd then
    if ev.globalID = globalID then .refuse else .skip
  else if ev.type ∈ [framePing, framePong, framePaddingOnly,
      frameUDPProbeReq, frameUDPProbeResp] then .skip
  else .refuse

/-! ## Receiving -/

/-- What a `Recv` on an open stream comes to. -/
inductive Received (s : SecureStream) :
    Except EwpError Event × SecureStream → Prop where
  | failed (e : EwpError) (s' : SecureStream) (hclosed : s'.closed = true)
      (hreceived : s'.received = s.received) : Received s (.error e, s')
  | event (fr : ReceivedFrame) (s' : SecureStream) (hopen : s'.closed = false)
      (hreceived : s'.received = s.received ++ [fr]) :
      Received s (.ok fr.event, s')

theorem recv_received
    {s : SecureStream} (hopen : s.closed = false) (env : StreamEnv) :
    Received s (recv P env s) := by
  have hstep := recv_step P env s
  generalize recv P env s = r at hstep ⊢
  cases hstep with
  | refused hclosed => simp [hopen] at hclosed
  | failed e hclosed => exact .failed e _ (by simp) (by simp)
  | malformed e hclosed wire recv =>
      exact .failed e _ (by simp) (by simp [SecureStream.countReceived])
  | received hclosed wire rest df ev recv hread hdec hev =>
      exact .event ⟨df, ev⟩ _ hclosed rfl

/-! ## The TCP adapter -/

def StreamConn.phase (c : StreamConn) : ReadPhase :=
  if c.readBuf ≠ [] then .buffered
  else if c.stream.closed then .ended
  else .ready

theorem StreamConn.phase_ready
    {c : StreamConn} (hempty : c.readBuf = []) (hopen : c.stream.closed = false) :
    c.phase = .ready := by
  simp [StreamConn.phase, hempty, hopen]

theorem StreamConn.phase_ended
    {c : StreamConn} (hempty : c.readBuf = []) (hclosed : c.stream.closed = true) :
    c.phase = .ended := by
  simp [StreamConn.phase, hempty, hclosed]

theorem recvFramed_received
    {c : StreamConn} (hopen : c.stream.closed = false) :
    recvFramed P c = none ∨
      ∃ result c', recvFramed P c = some (result, c') ∧
        Received c.stream (result, c'.stream) ∧ c'.readBuf = c.readBuf ∧
        ∀ ev, result = .ok ev →
          c'.conn.pending.length < c.conn.pending.length := by
  unfold recvFramed
  rw [hopen]
  simp only [Bool.false_eq_true, if_false]
  cases hread : framerRead c.conn with
  | none => exact Or.inl rfl
  | some r =>
      obtain ⟨msg, conn⟩ := r
      refine Or.inr ⟨_, _, rfl, recv_received hopen _, rfl, ?_⟩
      intro ev hok
      cases msg with
      | error e => simp [recv, readingEnv, hopen] at hok
      | ok wire => exact framerRead_length hread

/-- What a piece of reading from a stream is as a call. -/
def CallFrom {α : Type} (verdict : Event → Verdict) (phase : ReadPhase)
    (s : SecureStream) (result : Option (Except EwpError α))
    (s' : SecureStream) (next : ReadPhase) : Prop :=
  ∃ frames : List ReceivedFrame, s'.received = s.received ++ frames ∧
    ReadCall.Step verdict phase
      ⟨frames.map ReceivedFrame.event, result⟩ next

theorem CallFrom.skip
    {α : Type} {verdict : Event → Verdict} {s s' s'' : SecureStream}
    {fr : ReceivedFrame} {result : Option (Except EwpError α)}
    {next : ReadPhase} (hskip : verdict fr.event = .skip)
    (hreceived : s'.received = s.received ++ [fr])
    (hcall : CallFrom verdict .ready s' result s'' next) :
    CallFrom verdict .ready s result s'' next := by
  obtain ⟨frames, hframes, hstep⟩ := hcall
  refine ⟨fr :: frames, ?_, hstep.skip hskip⟩
  rw [hframes, hreceived, List.append_assoc, List.singleton_append]

theorem fillReadBuf_call
    {fuel : ℕ} {c : StreamConn} (hempty : c.readBuf = [])
    (hopen : c.stream.closed = false)
    (hfuel : c.conn.pending.length + 1 < fuel) :
    CallFrom Event.tcpVerdict .ready c.stream (fillReadBuf P fuel c).1
      (fillReadBuf P fuel c).2.stream (fillReadBuf P fuel c).2.phase := by
  induction fuel generalizing c with
  | zero => omega
  | succ fuel ih =>
      unfold fillReadBuf
      rw [if_neg (not_not.mpr hempty)]
      rcases recvFramed_received (P := P) hopen with
        hnone | ⟨result, c', hrecv, hreceived, hbuf, hless⟩
      · rw [hnone]
        refine ⟨[], by simp, ?_⟩
        rw [StreamConn.phase_ready hempty hopen]
        exact .waits [] (by simp)
      · rw [hrecv]
        rw [hempty] at hbuf
        generalize hs : c'.stream = s' at hreceived
        cases hreceived with
        | failed e s' hclosed hsame =>
            subst hs
            refine ⟨[], by simpa using hsame, ?_⟩
            rw [StreamConn.phase_ended hbuf hclosed]
            exact .fails [] (by simp) e
        | event fr s' hstill hmore =>
            subst hs
            have hless := hless _ rfl
            have hnext := fun hskip : fr.event.tcpVerdict = .skip =>
              CallFrom.skip hskip hmore (ih hbuf hstill (by omega))
            dsimp only
            by_cases htcp : fr.event.type = frameTCPData
            · rw [if_pos htcp]
              by_cases hpayload : fr.event.payload.bytes = []
              · rw [if_pos hpayload]
                exact hnext (by simp [Event.tcpVerdict, htcp, hpayload])
              · rw [if_neg hpayload]
                obtain ⟨fuel, rfl⟩ : ∃ m, fuel = m + 1 := ⟨fuel - 1, by omega⟩
                refine ⟨[fr], by simpa [fillReadBuf, hpayload] using hmore, ?_⟩
                simp only [fillReadBuf, ne_eq, hpayload, not_false_eq_true,
                  if_true]
                exact .delivers [] (by simp) fr.event
                  (by simp [Event.tcpVerdict, htcp, hpayload]) () _
            · rw [if_neg htcp]
              by_cases hcover : fr.event.type ∈
                  [framePaddingOnly, framePing, framePong]
              · rw [if_pos hcover]
                exact hnext (by rw [Event.tcpVerdict, if_neg htcp, if_pos hcover])
              · rw [if_neg hcover]
                refine ⟨[fr], hmore, ?_⟩
                rw [StreamConn.phase_ready hbuf hstill]
                exact .refuses [] (by simp) fr.event
                  (by rw [Event.tcpVerdict, if_neg htcp, if_neg hcover]) _

theorem streamRead_call (n : ℕ) (c : StreamConn) :
    CallFrom Event.tcpVerdict c.phase c.stream (streamRead P n c).1
      (streamRead P n c).2.stream (streamRead P n c).2.phase := by
  by_cases hempty : c.readBuf = []
  · cases hclosed : c.stream.closed with
    | true =>
        have hread : streamRead P n c = (some (.error (.io .closedPipe)), c) := by
          simp [streamRead, fillReadBuf, recvFramed, hempty, hclosed]
        rw [hread, StreamConn.phase_ended hempty hclosed]
        exact ⟨[], by simp, .ended _⟩
    | false =>
        obtain ⟨frames, hframes, hstep⟩ := fillReadBuf_call (P := P) hempty
          hclosed (Nat.lt_succ_self (c.conn.pending.length + 1))
        rw [StreamConn.phase_ready hempty hclosed]
        unfold streamRead
        generalize fillReadBuf P (c.conn.pending.length + 2) c = r at hframes hstep
        obtain ⟨result, c'⟩ := r
        refine ⟨frames, ?_, hstep.returns ?_ ?_ ?_⟩
        · rcases result with _ | _ | _ <;> exact hframes
        · rintro rfl
          exact ⟨rfl, rfl⟩
        · rintro e rfl
          exact ⟨rfl, rfl⟩
        · rintro a rfl
          exact ⟨_, rfl⟩
  · have hread : streamRead P n c =
        (some (.ok (c.readBuf.take n)), { c with readBuf := c.readBuf.drop n }) := by
      simp [streamRead, fillReadBuf, hempty]
    have hphase : c.phase = .buffered := by simp [StreamConn.phase, hempty]
    rw [hread, hphase]
    exact ⟨[], by simp, .buffered _ _⟩

/-- Calls on an adapter between two states of its stream. -/
def SessionFrom {α : Type} (verdict : Event → Verdict) (phase : ReadPhase)
    (s : SecureStream) (results : List (Option (Except EwpError α)))
    (s' : SecureStream) : Prop :=
  ∃ (calls : List (ReadCall Event EwpError α)) (frames : List ReceivedFrame),
    Session verdict phase calls ∧ calls.map ReadCall.result = results ∧
    s'.received = s.received ++ frames ∧
    calls.flatMap ReadCall.items = frames.map ReceivedFrame.event

theorem SessionFrom.nil
    {α : Type} (verdict : Event → Verdict) (phase : ReadPhase)
    (s : SecureStream) :
    SessionFrom verdict phase s ([] : List (Option (Except EwpError α))) s :=
  ⟨[], [], .nil phase, rfl, by simp, rfl⟩

theorem SessionFrom.cons
    {α : Type} {verdict : Event → Verdict} {phase next : ReadPhase}
    {s s' s'' : SecureStream} {result : Option (Except EwpError α)}
    {results : List (Option (Except EwpError α))}
    (hcall : CallFrom verdict phase s result s' next)
    (hcalls : SessionFrom verdict next s' results s'') :
    SessionFrom verdict phase s (result :: results) s'' := by
  obtain ⟨frames, hframes, hstep⟩ := hcall
  obtain ⟨calls, more, hsession, hresults, hmore, hitems⟩ := hcalls
  refine ⟨⟨frames.map ReceivedFrame.event, result⟩ :: calls, frames ++ more,
    .cons hstep hsession, by simp [hresults], ?_, by simp [hitems]⟩
  rw [hmore, hframes, List.append_assoc]

theorem SessionFrom.staysEnded_iff
    {α : Type} {verdict : Event → Verdict} {phase : ReadPhase}
    {s s' : SecureStream} {results : List (Option (Except EwpError α))}
    (hcalls : SessionFrom verdict phase s results s') :
    StaysEnded results ↔ EndsAtRefusal verdict (receivedSince s s') := by
  obtain ⟨calls, frames, hsession, rfl, hframes, hitems⟩ := hcalls
  rw [hsession.staysEnded_iff, hitems, receivedSince, hframes, List.drop_left]

/-- What is received in between was there to be received. -/
theorem SessionFrom.outlook
    {α : Type} {verdict : Event → Verdict} {phase : ReadPhase}
    {s s' : SecureStream} {results : List (Option (Except EwpError α))}
    (hcalls : SessionFrom verdict phase s results s') (rest : List Bytes) :
    s'.outlook P rest = s.received.map ReceivedFrame.event ++
      (receivedSince s s' ++ s'.inbound P rest) := by
  obtain ⟨_, frames, _, _, hframes, _⟩ := hcalls
  rw [SecureStream.outlook, receivedSince, hframes, List.drop_left, List.map_append,
    List.append_assoc]

theorem SessionFrom.staysEnded
    {α : Type} {verdict : Event → Verdict} {phase : ReadPhase}
    {s s' : SecureStream} {results : List (Option (Except EwpError α))}
    {msgs rest : List Bytes} (hcalls : SessionFrom verdict phase s results s')
    (hkeeps : s'.outlook P rest <+: s.outlook P msgs)
    (hends : EndsAtRefusal verdict (s.inbound P msgs)) : StaysEnded results := by
  rw [hcalls.outlook, SecureStream.outlook, List.prefix_append_right_inj] at hkeeps
  have hfront := (List.prefix_append _ _).trans hkeeps
  exact hcalls.staysEnded_iff.mpr (List.Pairwise.sublist hfront.sublist hends)

/-- A run that leaves nothing to receive shows every frame. -/
theorem SessionFrom.endsAtRefusal
    {α : Type} {verdict : Event → Verdict} {phase : ReadPhase}
    {s s' : SecureStream} {results : List (Option (Except EwpError α))}
    {msgs rest : List Bytes} (hcalls : SessionFrom verdict phase s results s')
    (hkeeps : s'.outlook P rest = s.outlook P msgs)
    (hdone : s'.inbound P rest = []) (hstays : StaysEnded results) :
    EndsAtRefusal verdict (s.inbound P msgs) := by
  rw [hcalls.outlook, SecureStream.outlook, hdone, List.append_nil] at hkeeps
  rw [← List.append_cancel_left hkeeps]
  exact hcalls.staysEnded_iff.mp hstays

/-- A call on an open stream leaves less to receive, if something is there. -/
theorem CallFrom.inbound_length
    {α : Type} {verdict : Event → Verdict} {next : ReadPhase}
    {s s' : SecureStream} {result : Option (Except EwpError α)}
    {msgs rest : List Bytes} (hcall : CallFrom verdict .ready s result s' next)
    (hkeeps : s'.outlook P rest = s.outlook P msgs)
    (hmore : s.inbound P msgs ≠ [])
    (hwaits : result = none → s'.inbound P rest = [])
    (hended : next = .ended → s'.inbound P rest = []) :
    (s'.inbound P rest).length < (s.inbound P msgs).length := by
  obtain ⟨frames, hframes, hstep⟩ := hcall
  have hsplit : frames.map ReceivedFrame.event ++ s'.inbound P rest =
      s.inbound P msgs := by
    rw [SecureStream.outlook, hframes, List.map_append, List.append_assoc] at hkeeps
    exact List.append_cancel_left hkeeps
  have hsome : frames ≠ [] := by
    rintro rfl
    rw [← hsplit] at hmore
    exact hmore (hstep.of_nil.elim hwaits hended)
  rw [← hsplit, List.length_append, List.length_map]
  have := List.length_pos_iff.mpr hsome
  omega

theorem readerRun_session (ops : List ReaderOp) (c : StreamConn) :
    SessionFrom Event.tcpVerdict c.phase c.stream (readerRun P ops c).1
      (readerRun P ops c).2.stream := by
  induction ops generalizing c with
  | nil => exact .nil _ _ _
  | cons op ops ih =>
      cases op with
      | arrive frag => exact ih { c with conn := c.conn.arrive frag }
      | read n => exact .cons (streamRead_call n c) (ih _)

theorem outlook_readerRun (ops : List ReaderOp) (c : StreamConn) (later : Bytes) :
    StreamConn.outlook P later (readerRun P ops c).2 <+:
      c.outlook P (arrivals ops ++ later) := by
  induction ops generalizing c with
  | nil => exact List.prefix_rfl
  | cons op ops ih =>
      cases op with
      | arrive frag =>
          have hrest := ih { c with conn := c.conn.arrive frag }
          rwa [StreamConn.outlook_arrive, ← List.append_assoc] at hrest
      | read n =>
          exact (ih _).trans (StreamConn.outlook_streamRead n c _).1

theorem outlook_reads (reads : List ℕ) (c : StreamConn) :
    StreamConn.outlook P [] (readerRun P (reads.map .read) c).2 =
      c.outlook P [] := by
  induction reads generalizing c with
  | nil => rfl
  | cons n reads ih =>
      exact (ih _).trans (StreamConn.outlook_streamRead n c []).2

/-- What is left to do for calls of `Read`: each frame is received and handed
out. -/
def StreamConn.work (P : Primitives) (c : StreamConn) : ℕ :=
  2 * (c.inbound P []).length + if c.readBuf = [] then 0 else 1

theorem streamRead_waits
    {n : ℕ} {c c' : StreamConn} (hwaits : streamRead P n c = (none, c')) :
    c'.inbound P [] = [] := by
  apply StreamConn.inbound_of_waits (Nat.lt_succ_self (c.conn.pending.length + 1))
  unfold streamRead at hwaits
  split at hwaits
  · rename_i hfill
    cases hwaits
    exact hfill
  · cases hwaits
  · cases hwaits

theorem StreamConn.phase_ended_closed
    {c : StreamConn} (hended : c.phase = .ended) : c.stream.closed = true := by
  unfold StreamConn.phase at hended
  split_ifs at hended with hbuf hclosed
  exact hclosed

theorem StreamConn.work_streamRead
    {c : StreamConn} (hmore : c.inbound P [] ≠ []) :
    (streamRead P c.readBuf.length c).2.work P < c.work P := by
  by_cases hempty : c.readBuf = []
  · have hopen : c.stream.closed = false := by
      by_contra hclosed
      exact hmore (SecureStream.inbound_of_closed (by simpa using hclosed) _)
    have hcall := streamRead_call (P := P) c.readBuf.length c
    rw [StreamConn.phase_ready hempty hopen] at hcall
    have hless := hcall.inbound_length
      (StreamConn.outlook_streamRead c.readBuf.length c []).2 hmore
      (fun hnone => streamRead_waits (Prod.ext hnone rfl))
      (fun hended =>
        SecureStream.inbound_of_closed (StreamConn.phase_ended_closed hended) _)
    rw [StreamConn.work, StreamConn.work, if_pos hempty]
    change (StreamConn.inbound P [] _).length < (StreamConn.inbound P [] c).length
      at hless
    split <;> omega
  · have hread : (streamRead P c.readBuf.length c).2 = { c with readBuf := [] } := by
      simp [streamRead, fillReadBuf, hempty]
    rw [hread, StreamConn.work, StreamConn.work, if_neg hempty, if_pos rfl]
    exact Nat.lt_succ_self _

/-- Enough reads receive everything that is there. -/
theorem exists_reads (P : Primitives) (c : StreamConn) :
    ∃ reads : List ℕ,
      StreamConn.inbound P [] (readerRun P (reads.map .read) c).2 = [] := by
  induction hwork : c.work P using Nat.strong_induction_on generalizing c with
  | _ work ih =>
      by_cases hdone : c.inbound P [] = []
      · exact ⟨[], hdone⟩
      · obtain ⟨reads, hreads⟩ := ih _
          (hwork ▸ StreamConn.work_streamRead hdone) _ rfl
        exact ⟨c.readBuf.length :: reads, hreads⟩

theorem readerRun_staysEnded_iff (c : StreamConn) (later : Bytes) :
    (∀ ops, arrivals ops = later → StaysEnded (readerRun P ops c).1) ↔
      EndsAtRefusal Event.tcpVerdict (c.inbound P later) := by
  constructor
  · intro hall
    -- everything arrives, and then everything is read
    obtain ⟨reads, hdone⟩ : ∃ reads : List ℕ, StreamConn.inbound P []
        (readerRun P (.arrive later :: reads.map .read) c).2 = [] :=
      exists_reads P _
    have hkeeps : StreamConn.outlook P []
        (readerRun P (.arrive later :: reads.map .read) c).2 = c.outlook P later := by
      have harrive := StreamConn.outlook_arrive (P := P) c later []
      rw [List.append_nil] at harrive
      exact (outlook_reads reads _).trans harrive
    refine (readerRun_session _ c).endsAtRefusal hkeeps hdone (hall _ ?_)
    rw [arrivals, arrivals_reads (by simp), List.append_nil]
  · intro hends ops harrivals
    have hkeeps := outlook_readerRun (P := P) ops c []
    rw [List.append_nil, harrivals] at hkeeps
    exact (readerRun_session ops c).staysEnded hkeeps hends

/-! ## The UDP adapter -/

/-- `ReadFrom` over a transport that fails with `lost`, if it does, once its
messages are used up. -/
def readFromUntil (P : Primitives) (n : ℕ) (lost : Option EwpError)
    (c : PacketEnd) : Option (Except EwpError Datagram) × PacketEnd :=
  match readFrom P n c, lost with
  | (none, c), some e =>
      (some (.error e),
        { c with
          conn := c.conn.setStream
            (recv P (readingEnv (.error e)) c.conn.stream).2 })
  | r, _ => r

inductive PacketOp where
  | arrive (msg : Bytes)
  | read (n : ℕ) (lost : Option EwpError)

/-- The results of the calls of `ReadFrom`, whatever the earlier ones returned,
and the end state. -/
def packetRun (P : Primitives) :
    List PacketOp → PacketEnd →
      List (Option (Except EwpError Datagram)) × PacketEnd
  | [], c => ([], c)
  | .arrive msg :: rest, c =>
      packetRun P rest { c with inbox := c.inbox ++ [msg] }
  | .read n lost :: rest, c =>
      ((readFromUntil P n lost c).1 ::
          (packetRun P rest (readFromUntil P n lost c).2).1,
        (packetRun P rest (readFromUntil P n lost c).2).2)

def PacketConn.phase (conn : PacketConn) : ReadPhase :=
  if conn.pendingFirst ≠ none then .buffered
  else if conn.stream.closed then .ended
  else .ready

theorem PacketConn.phase_ready
    {conn : PacketConn} (hnone : conn.pendingFirst = none)
    (hopen : conn.stream.closed = false) : conn.phase = .ready := by
  simp [PacketConn.phase, hnone, hopen]

theorem PacketConn.phase_ended
    {conn : PacketConn} (hnone : conn.pendingFirst = none)
    (hclosed : conn.stream.closed = true) : conn.phase = .ended := by
  simp [PacketConn.phase, hnone, hclosed]

theorem recvQueued_received
    {s : SecureStream} (hopen : s.closed = false) (inbox : List Bytes) :
    recvQueued P s inbox = none ∨
      ∃ result s' inbox', recvQueued P s inbox = some (result, s', inbox') ∧
        Received s (result, s') := by
  unfold recvQueued
  rw [hopen]
  simp only [Bool.false_eq_true, if_false]
  cases inbox with
  | nil => exact Or.inl rfl
  | cons msg rest =>
      exact Or.inr ⟨_, _, _, rfl, recv_received hopen (readingEnv (.ok msg))⟩

/-- What `ReadFrom` returns on an event, `none` if it goes on to the next. -/
def PacketConn.answer (n : ℕ) (conn : PacketConn) (ev : Event) :
    Option (Except EwpError Datagram) :=
  match ev.packetVerdict conn.globalID with
  | .skip => none
  | .deliver =>
      some (.ok (ev.payload.bytes.take n,
        ewpToNetAddr (ev.address.getD conn.defaultDst)))
  | .refuse =>
      some (.error
        (if ev.type = frameUDPEnd then .io .eof else .unexpectedFrame ev.type.code))

theorem readFromLoop_ok
    {n fuel : ℕ} {c : PacketEnd} {ev : Event} {s : SecureStream}
    {inbox : List Bytes}
    (hrecv : recvQueued P c.conn.stream c.inbox = some (.ok ev, s, inbox)) :
    readFromLoop P n (fuel + 1) c =
      (c.conn.answer n ev).elim
        (readFromLoop P n fuel ⟨c.conn.setStream s, inbox⟩)
        (fun result => (some result, ⟨c.conn.setStream s, inbox⟩)) := by
  have hid : (c.conn.setStream s).globalID = c.conn.globalID := rfl
  have hdst : (c.conn.setStream s).defaultDst = c.conn.defaultDst := rfl
  simp only [readFromLoop, hrecv, hid, hdst, PacketConn.answer,
    Event.packetVerdict]
  by_cases hdata : ev.type ∈ [frameUDPData, frameUDPNew]
  · simp only [if_pos hdata]
    by_cases hforeign : ev.globalID ≠ c.conn.globalID
    · simp [hforeign]
    · simp [hforeign]
  · simp only [if_neg hdata]
    by_cases hend : ev.type = frameUDPEnd
    · by_cases hown : ev.globalID = c.conn.globalID
      · simp [hend, hown]
      · simp [hend, hown]
    · simp only [if_neg hend]
      by_cases hcover : ev.type ∈ [framePing, framePong, framePaddingOnly,
          frameUDPProbeReq, frameUDPProbeResp]
      · simp only [if_pos hcover, Option.elim_none]
      · simp only [if_neg hcover, Option.elim_some]

/-- A pass of `ReadFrom` keeps what is not the stream, and waits on an open
stream. -/
structure ReadsPackets (P : Primitives) (c c' : PacketEnd)
    (result : Option (Except EwpError Datagram)) : Prop where
  globalID : c'.conn.globalID = c.conn.globalID
  pendingFirst : c'.conn.pendingFirst = none
  waits : result = none → c'.conn.stream.closed = false
  call : CallFrom (Event.packetVerdict c.conn.globalID) .ready c.conn.stream
    result c'.conn.stream c'.conn.phase

theorem readFromLoop_call
    (n fuel : ℕ) {c : PacketEnd} (hnone : c.conn.pendingFirst = none)
    (hopen : c.conn.stream.closed = false) :
    ReadsPackets P c (readFromLoop P n fuel c).2 (readFromLoop P n fuel c).1 := by
  induction fuel generalizing c with
  | zero =>
      refine ⟨rfl, hnone, fun _ => hopen, [], by simp [readFromLoop], ?_⟩
      rw [readFromLoop, PacketConn.phase_ready hnone hopen]
      exact .waits [] (by simp)
  | succ fuel ih =>
      rcases recvQueued_received (P := P) hopen c.inbox with
        hwait | ⟨result, s', inbox, hrecv, hreceived⟩
      · have hloop : readFromLoop P n (fuel + 1) c = (none, c) := by
          simp [readFromLoop, hwait]
        rw [hloop]
        refine ⟨rfl, hnone, fun _ => hopen, [], by simp, ?_⟩
        rw [PacketConn.phase_ready hnone hopen]
        exact .waits [] (by simp)
      · cases hreceived with
        | failed e s' hclosed hsame =>
            have hloop : readFromLoop P n (fuel + 1) c =
                (some (.error e), ⟨c.conn.setStream s', inbox⟩) := by
              simp [readFromLoop, hrecv]
            have hphase : (c.conn.setStream s').phase = .ended :=
              PacketConn.phase_ended hnone hclosed
            rw [hloop]
            refine ⟨rfl, hnone, by simp, [],
              hsame.trans (List.append_nil _).symm, ?_⟩
            rw [hphase]
            exact .fails [] (by simp) e
        | event fr s' hstill hmore =>
            rw [readFromLoop_ok hrecv, PacketConn.answer]
            cases hverdict : fr.event.packetVerdict c.conn.globalID with
            | skip =>
                have hlater := ih (c := ⟨c.conn.setStream s', inbox⟩) hnone hstill
                exact ⟨hlater.globalID, hlater.pendingFirst, hlater.waits,
                  hlater.call.skip hverdict hmore⟩
            | deliver =>
                exact ⟨rfl, hnone, by simp, [fr], hmore,
                  .delivers [] (by simp) fr.event hverdict _ _⟩
            | refuse =>
                have hphase : (c.conn.setStream s').phase = .ready :=
                  PacketConn.phase_ready hnone hstill
                refine ⟨rfl, hnone, by simp, [fr], hmore, ?_⟩
                simp only [Option.elim_some, hphase]
                exact .refuses [] (by simp) fr.event hverdict _

theorem readFromUntil_of_closed
    {n : ℕ} {lost : Option EwpError} {c : PacketEnd}
    (hnone : c.conn.pendingFirst = none)
    (hclosed : c.conn.stream.closed = true) :
    readFromUntil P n lost c = (some (.error (.io .closedPipe)), c) := by
  simp only [readFromUntil, readFrom, hnone, readFromLoop, recvQueued, hclosed,
    if_true]
  rfl

theorem readFromUntil_of_pendingFirst
    {n : ℕ} {lost : Option EwpError} {c : PacketEnd} {first : Bytes}
    (hfirst : c.conn.pendingFirst = some first) :
    readFromUntil P n lost c =
      (some (.ok (first.take n, ewpToNetAddr c.conn.pendingFirstSrc)),
        { c with conn := { c.conn with pendingFirst := none } }) := by
  simp [readFromUntil, readFrom, hfirst]

/-- A transport that fails under a waiting `ReadFrom`. -/
theorem readFromUntil_lost
    {n : ℕ} {e : EwpError} {c c' : PacketEnd}
    (hwaits : readFrom P n c = (none, c'))
    (hopen : c'.conn.stream.closed = false) :
    readFromUntil P n (some e) c =
      (some (.error e),
        { c' with conn := c'.conn.setStream c'.conn.stream.close }) := by
  simp [readFromUntil, hwaits, recv, readingEnv, hopen]

theorem readFromUntil_call (n : ℕ) (lost : Option EwpError) (c : PacketEnd) :
    (readFromUntil P n lost c).2.conn.globalID = c.conn.globalID ∧
      CallFrom (Event.packetVerdict c.conn.globalID) c.conn.phase c.conn.stream
        (readFromUntil P n lost c).1 (readFromUntil P n lost c).2.conn.stream
        (readFromUntil P n lost c).2.conn.phase := by
  cases hpending : c.conn.pendingFirst with
  | some first =>
      have hphase : c.conn.phase = .buffered := by
        simp [PacketConn.phase, hpending]
      rw [readFromUntil_of_pendingFirst hpending, hphase]
      exact ⟨rfl, [], by simp, .buffered _ _⟩
  | none =>
      cases hclosed : c.conn.stream.closed with
      | true =>
          rw [readFromUntil_of_closed hpending hclosed,
            PacketConn.phase_ended hpending hclosed]
          exact ⟨rfl, [], by simp, .ended _⟩
      | false =>
          have hreads : ReadsPackets P c (readFrom P n c).2 (readFrom P n c).1 := by
            simp only [readFrom, hpending]
            exact readFromLoop_call n _ hpending hclosed
          rw [PacketConn.phase_ready hpending hclosed]
          generalize hread : readFrom P n c = r at hreads
          obtain ⟨result, c'⟩ := r
          cases result with
          | some result =>
              simp only [readFromUntil, hread]
              exact ⟨hreads.globalID, hreads.call⟩
          | none =>
              cases lost with
              | none =>
                  simp only [readFromUntil, hread]
                  exact ⟨hreads.globalID, hreads.call⟩
              | some e =>
                  obtain ⟨frames, hframes, hstep⟩ := hreads.call
                  have hphase :
                      (c'.conn.setStream c'.conn.stream.close).phase = .ended :=
                    PacketConn.phase_ended hreads.pendingFirst
                      (SecureStream.close_closed _)
                  rw [readFromUntil_lost hread (hreads.waits rfl), hphase]
                  exact ⟨hreads.globalID, frames,
                    (SecureStream.close_received _).trans hframes,
                    hstep.fails_of_waits e⟩

theorem packetRun_session (ops : List PacketOp) (c : PacketEnd) :
    SessionFrom (Event.packetVerdict c.conn.globalID) c.conn.phase c.conn.stream
      (packetRun P ops c).1 (packetRun P ops c).2.conn.stream := by
  induction ops generalizing c with
  | nil => exact .nil _ _ _
  | cons op ops ih =>
      cases op with
      | arrive msg => exact ih { c with inbox := c.inbox ++ [msg] }
      | read n lost =>
          obtain ⟨hid, hcall⟩ := readFromUntil_call (P := P) n lost c
          have hrest := ih (readFromUntil P n lost c).2
          rw [hid] at hrest
          exact .cons hcall hrest

/-- The messages that arrive. -/
def packetArrivals : List PacketOp → List Bytes
  | [] => []
  | .arrive msg :: rest => msg :: packetArrivals rest
  | .read _ _ :: rest => packetArrivals rest

theorem outlook_readFromUntil
    (n : ℕ) (lost : Option EwpError) (c : PacketEnd) (later : List Bytes) :
    PacketEnd.outlook P later (readFromUntil P n lost c).2 <+:
      c.outlook P later := by
  have hread := PacketEnd.outlook_readFrom (P := P) n c later
  generalize hcall : readFrom P n c = r at hread
  obtain ⟨result, c'⟩ := r
  rw [← hread]
  cases result with
  | some result =>
      simp only [readFromUntil, hcall]
      exact List.prefix_rfl
  | none =>
      cases lost with
      | none =>
          simp only [readFromUntil, hcall]
          exact List.prefix_rfl
      | some e =>
          cases hclosed : c'.conn.stream.closed with
          | true =>
              simp only [readFromUntil, hcall, recv, hclosed, if_true]
              exact List.prefix_rfl
          | false =>
              rw [readFromUntil_lost hcall hclosed]
              exact SecureStream.outlook_close _ _

theorem outlook_packetRun
    (ops : List PacketOp) (c : PacketEnd) (later : List Bytes) :
    PacketEnd.outlook P later (packetRun P ops c).2 <+:
      c.outlook P (packetArrivals ops ++ later) := by
  induction ops generalizing c with
  | nil => exact List.prefix_rfl
  | cons op ops ih =>
      cases op with
      | arrive msg =>
          have hrest := ih { c with inbox := c.inbox ++ [msg] }
          rwa [PacketEnd.outlook_arrive] at hrest
      | read n lost => exact (ih _).trans (outlook_readFromUntil n lost c _)

theorem readFromUntil_none (n : ℕ) (c : PacketEnd) :
    readFromUntil P n none c = readFrom P n c := by
  unfold readFromUntil
  split
  · rename_i hlost
    cases hlost
  · rfl

theorem readFrom_waits
    {n : ℕ} {c c' : PacketEnd} (hwaits : readFrom P n c = (none, c')) :
    c'.inbound P [] = [] := by
  unfold readFrom at hwaits
  split at hwaits
  · cases hwaits
  · exact PacketEnd.inbound_of_waits (Nat.lt_succ_self _) hwaits

theorem PacketConn.phase_ended_closed
    {conn : PacketConn} (hended : conn.phase = .ended) :
    conn.stream.closed = true := by
  unfold PacketConn.phase at hended
  split_ifs at hended with hfirst hclosed
  exact hclosed

def PacketEnd.work (P : Primitives) (c : PacketEnd) : ℕ :=
  2 * (c.inbound P []).length + if c.conn.pendingFirst = none then 0 else 1

theorem PacketEnd.work_readFrom
    {c : PacketEnd} (hmore : c.inbound P [] ≠ []) :
    (readFromUntil P 0 none c).2.work P < c.work P := by
  cases hpending : c.conn.pendingFirst with
  | some first =>
      rw [readFromUntil_of_pendingFirst hpending, PacketEnd.work, PacketEnd.work,
        hpending, if_pos rfl, if_neg (by simp)]
      exact Nat.lt_succ_self _
  | none =>
      have hopen : c.conn.stream.closed = false := by
        by_contra hclosed
        exact hmore (SecureStream.inbound_of_closed (by simpa using hclosed) _)
      obtain ⟨-, hcall⟩ := readFromUntil_call (P := P) 0 none c
      rw [PacketConn.phase_ready hpending hopen, readFromUntil_none] at hcall
      have hless := hcall.inbound_length
        (PacketEnd.outlook_readFrom 0 c []) hmore
        (fun hnone => readFrom_waits (Prod.ext hnone rfl))
        (fun hended =>
          SecureStream.inbound_of_closed (PacketConn.phase_ended_closed hended) _)
      change (PacketEnd.inbound P [] _).length < (PacketEnd.inbound P [] c).length
        at hless
      rw [readFromUntil_none, PacketEnd.work, PacketEnd.work, if_pos hpending]
      split <;> omega

theorem exists_readsFrom (P : Primitives) (c : PacketEnd) :
    ∃ k : ℕ, PacketEnd.inbound P []
      (packetRun P (List.replicate k (.read 0 none)) c).2 = [] := by
  induction hwork : c.work P using Nat.strong_induction_on generalizing c with
  | _ work ih =>
      by_cases hdone : c.inbound P [] = []
      · exact ⟨0, hdone⟩
      · obtain ⟨k, hk⟩ := ih _ (hwork ▸ PacketEnd.work_readFrom hdone) _ rfl
        exact ⟨k + 1, hk⟩

/-- Everything arrives, and then everything is read. -/
theorem exists_drained (P : Primitives) (c : PacketEnd) (later : List Bytes) :
    ∃ ops, packetArrivals ops = later ∧
      PacketEnd.inbound P [] (packetRun P ops c).2 = [] ∧
      PacketEnd.outlook P [] (packetRun P ops c).2 = c.outlook P later := by
  induction later generalizing c with
  | nil =>
      obtain ⟨k, hk⟩ := exists_readsFrom P c
      refine ⟨List.replicate k (.read 0 none), ?_, hk, ?_⟩
      · clear hk
        induction k with
        | zero => rfl
        | succ k ih => exact ih
      · clear hk
        induction k generalizing c with
        | zero => rfl
        | succ k ih =>
            refine (ih _).trans ?_
            rw [readFromUntil_none]
            exact PacketEnd.outlook_readFrom 0 c []
  | cons msg later ih =>
      obtain ⟨ops, harrivals, hdone, hkeeps⟩ :=
        ih { c with inbox := c.inbox ++ [msg] }
      refine ⟨.arrive msg :: ops, by rw [packetArrivals, harrivals], hdone, ?_⟩
      rw [PacketEnd.outlook_arrive] at hkeeps
      exact hkeeps

theorem packetRun_staysEnded_iff (c : PacketEnd) (later : List Bytes) :
    (∀ ops, packetArrivals ops = later → StaysEnded (packetRun P ops c).1) ↔
      EndsAtRefusal (Event.packetVerdict c.conn.globalID) (c.inbound P later) := by
  constructor
  · intro hall
    obtain ⟨ops, harrivals, hdone, hkeeps⟩ := exists_drained P c later
    exact (packetRun_session ops c).endsAtRefusal hkeeps hdone (hall ops harrivals)
  · intro hends ops harrivals
    have hkeeps := outlook_packetRun (P := P) ops c []
    rw [List.append_nil, harrivals] at hkeeps
    exact (packetRun_session ops c).staysEnded hkeeps hends

/-- No call of `Read` or `ReadFrom` succeeds after a failed one, however the calls
fall between the arrivals, exactly if no frame with data comes after a frame that
the adapter refuses, among those that the messages of the peer carry. -/
theorem adapters_stay_ended_iff (P : Primitives) :
    (∀ (c : StreamConn) (later : Bytes),
      (∀ ops, arrivals ops = later → StaysEnded (readerRun P ops c).1) ↔
        EndsAtRefusal Event.tcpVerdict (c.inbound P later)) ∧
    ∀ (c : PacketEnd) (later : List Bytes),
      (∀ ops, packetArrivals ops = later → StaysEnded (packetRun P ops c).1) ↔
        EndsAtRefusal (Event.packetVerdict c.conn.globalID) (c.inbound P later) :=
  ⟨readerRun_staysEnded_iff, packetRun_staysEnded_iff⟩

namespace Transparent

/-- The client's frame at counter `k`, without padding. -/
def clientWire (k : ℕ) (t : FrameType) (metaBytes payload : Bytes) : Bytes :=
  match encodeFrameAppend suite [] ((newServerSecureStream keys).recv.seek k) t
    metaBytes payload 0 (fun _ => none) with
  | .ok (wire, _) => wire
  | .error _ => []

def violatedConn : StreamConn where
  stream := newServerSecureStream keys
  conn := { arrived :=
    [lengthFrame (clientWire 0 frameUDPEnd session.val []),
      lengthFrame (clientWire 1 frameTCPData [] [7])] }

def endedConn : PacketEnd where
  conn := newServerPacketConn (newServerSecureStream keys) session anchor none
  inbox := [clientWire 0 frameUDPEnd session.val [],
    clientWire 1 frameUDPData session.val [7]]

def orderlyConn : StreamConn where
  stream := newServerSecureStream keys
  conn := { arrived := [lengthFrame (clientWire 0 frameTCPData [] [7])] }

/-- Data that arrives before the violation, whenever the calls come. -/
theorem adapters_stay_ended_dataFirst :
    ∀ ops, arrivals ops = lengthFrame (clientWire 1 frameUDPEnd session.val []) →
      StaysEnded (readerRun suite ops orderlyConn).1 :=
  ((adapters_stay_ended_iff suite).1 orderlyConn _).mpr (by decide +kernel)

/-- The server reads data after a frame that is a protocol violation in TCP mode,
and a datagram after the end of its sub-session. -/
theorem adapters_read_on :
    (readerRun suite [.read 16, .read 16] violatedConn).1 =
      [some (.error (.unexpectedFrame frameUDPEnd.code)), some (.ok [7])] ∧
    (packetRun suite [.read 16 none, .read 16 none] endedConn).1 =
      [some (.error (.io .eof)),
        some (.ok ([7], some (.udp [192, 0, 2, 1] 53 [])))] := by
  decide +kernel

end Transparent

end SingEwp
