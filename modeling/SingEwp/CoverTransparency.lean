import SingEwp.AdapterEnds
import SingEwp.Service

/-!
# Cover traffic in a UDP tunnel

The client's frames after the handshake, sealed one after the other, with cover
and keepalive frames among them.  `ReadFrom` passes over such frames wherever
they stand.  The dispatcher of `handleTransport`, which waits for `UDP_NEW`, does
not: a cover frame ahead of it ends the connection.
-/

namespace SingEwp

variable {P : Primitives}

/-- The messages of frames sealed in the context `f` from counter `k` on. -/
def sealFrames (P : Primitives) (f : FrameAEAD) : ℕ → List Frame → List Bytes
  | _, [] => []
  | k, fr :: rest => fr.wire P (f.seek k) :: sealFrames P f (k + 1) rest

namespace Frame

/-- A frame of cover traffic or a keepalive. -/
def covers (fr : Frame) : Bool :=
  decide (fr.type ∈ [framePaddingOnly, framePing, framePong])

/-- What `Recv` makes of a frame, at any counter. -/
def event (fr : Frame) : Except EwpError Event := eventOf (fr.decoded 0)

/-- A frame of the sub-session `globalID`, of one of the given types. -/
def Carries (types : List FrameType) (globalID : GlobalID) (fr : Frame) : Prop :=
  ∃ ev, fr.event = .ok ev ∧ ev.type ∈ types ∧ ev.globalID = globalID

end Frame

/-- The frames without cover and keepalive. -/
def uncovered (frames : List Frame) : List Frame :=
  frames.filter (fun fr => !fr.covers)

/-- One `UDP_NEW`, then data and ends of the same sub-session. -/
def UDPSequence (globalID : GlobalID) : List Frame → Prop
  | [] => False
  | first :: rest =>
      first.Carries [frameUDPNew] globalID ∧
        ∀ fr ∈ rest, fr.Carries [frameUDPData, frameUDPEnd] globalID

theorem Frame.event_eq (fr : Frame) (counter : UInt64) :
    eventOf (fr.decoded counter) = fr.event := rfl

theorem Frame.event_of_covers {fr : Frame} (hcovers : fr.covers = true) :
    fr.event = .ok { type := fr.type, payload := appendToNil fr.payload } := by
  apply eventOf_tunnel
  simp only [Frame.covers, decide_eq_true_eq, List.mem_cons, List.not_mem_nil,
    or_false] at hcovers
  simp only [Frame.decoded, tunnelTypes, List.mem_cons, List.not_mem_nil,
    or_false]
  tauto

/-! ## Receiving -/

/-- The messages of `frames` are what the stream is to receive next. -/
structure Queued (P : Primitives) (f : FrameAEAD) (k : ℕ) (frames : List Frame)
    (s : SecureStream) (inbox : List Bytes) : Prop where
  stream_open : s.closed = false
  context : s.recv = f.seek k
  messages : inbox = sealFrames P f k frames

theorem Queued.recvQueued
    {f : FrameAEAD} {k : ℕ} {fr : Frame} {rest : List Frame} {s : SecureStream}
    {inbox : List Bytes} {ev : Event}
    (hqueued : Queued P f k (fr :: rest) s inbox) (hevent : fr.event = .ok ev) :
    ∃ s', SingEwp.recvQueued P s inbox =
        some (.ok ev, s', sealFrames P f (k + 1) rest) ∧
      Queued P f (k + 1) rest s' (sealFrames P f (k + 1) rest) := by
  have hopen := hqueued.stream_open
  have hmessage : (readingEnv (.ok (fr.wire P (f.seek k)))).readMessage =
      .ok (fr.wire P s.recv) := by
    rw [hqueued.context]
    rfl
  obtain ⟨s', hrecv, hstill, hcontext⟩ :=
    recv_wire hopen hmessage ((fr.event_eq _).trans hevent)
  refine ⟨s', ?_, hstill, ?_, rfl⟩
  · simp only [SingEwp.recvQueued, hopen, Bool.false_eq_true, if_false,
      hqueued.messages, sealFrames, hrecv]
  · rw [hcontext, hqueued.context, FrameAEAD.seek_succ]

theorem Queued.recvQueued_nil
    {f : FrameAEAD} {k : ℕ} {s : SecureStream} {inbox : List Bytes}
    (hqueued : Queued P f k [] s inbox) : SingEwp.recvQueued P s inbox = none := by
  simp [SingEwp.recvQueued, hqueued.stream_open, hqueued.messages, sealFrames]

/-! ## Two readers -/

/-- Two packet conns of one sub-session, each over a stream of its own. -/
structure SameSession (p q : PacketConn) : Prop where
  globalID : p.globalID = q.globalID
  defaultDst : p.defaultDst = q.defaultDst
  pendingFirst : p.pendingFirst = q.pendingFirst
  pendingFirstSrc : p.pendingFirstSrc = q.pendingFirstSrc

theorem SameSession.answer
    {p q : PacketConn} (hsame : SameSession p q) (n : ℕ) (ev : Event) :
    p.answer n ev = q.answer n ev := by
  rw [PacketConn.answer, PacketConn.answer, hsame.globalID, hsame.defaultDst]

theorem SameSession.setStream
    {p q : PacketConn} (hsame : SameSession p q) (s s' : SecureStream) :
    SameSession (p.setStream s) (q.setStream s') :=
  ⟨hsame.globalID, hsame.defaultDst, hsame.pendingFirst, hsame.pendingFirstSrc⟩

/-- One reader has `frames` ahead, the other the same without the cover. -/
structure Mirrored (P : Primitives) (f : FrameAEAD) (frames : List Frame)
    (c d : PacketEnd) : Prop where
  same : SameSession c.conn d.conn
  events : ∀ fr ∈ frames, ∃ ev, fr.event = .ok ev
  covered : ∃ k, Queued P f k frames c.conn.stream c.inbox
  plain : ∃ l, Queued P f l (uncovered frames) d.conn.stream d.inbox

/-- What two readers have in common that see the same traffic but for the
cover. -/
inductive Mirrors (P : Primitives) (f : FrameAEAD) (c d : PacketEnd) : Prop where
  | live (frames : List Frame) (hmirrored : Mirrored P f frames c d)
  | ended (hsame : SameSession c.conn d.conn)
      (hnone : c.conn.pendingFirst = none)
      (hleft : c.conn.stream.closed = true)
      (hright : d.conn.stream.closed = true)

theorem PacketConn.answer_of_covers
    {n : ℕ} {conn : PacketConn} {fr : Frame} {ev : Event}
    (hcovers : fr.covers = true) (hevent : fr.event = .ok ev) :
    conn.answer n ev = none := by
  rw [Frame.event_of_covers hcovers] at hevent
  obtain rfl := Except.ok.inj hevent
  have hskipped : ∀ t ∈ [framePaddingOnly, framePing, framePong],
      t ∉ [frameUDPData, frameUDPNew] ∧ t ≠ frameUDPEnd ∧
        t ∈ [framePing, framePong, framePaddingOnly, frameUDPProbeReq,
          frameUDPProbeResp] := by
    decide
  obtain ⟨hdata, hend, hskip⟩ := hskipped fr.type (of_decide_eq_true hcovers)
  simp only [PacketConn.answer, Event.packetVerdict, if_neg hdata, if_neg hend,
    if_pos hskip]

theorem readFromLoop_mirrored
    {f : FrameAEAD} {n fuel fuel' : ℕ} {frames : List Frame} {c d : PacketEnd}
    (hmirrored : Mirrored P f frames c d) (hfuel : frames.length < fuel)
    (hfuel' : (uncovered frames).length < fuel') :
    (readFromLoop P n fuel c).1 = (readFromLoop P n fuel' d).1 ∧
      ∃ frames', Mirrored P f frames' (readFromLoop P n fuel c).2
        (readFromLoop P n fuel' d).2 := by
  induction frames generalizing fuel fuel' c d with
  | nil =>
      obtain ⟨fuel, rfl⟩ : ∃ m, fuel = m + 1 := ⟨fuel - 1, by simp at hfuel; omega⟩
      obtain ⟨fuel', rfl⟩ : ∃ m, fuel' = m + 1 :=
        ⟨fuel' - 1, by simp [uncovered] at hfuel'; omega⟩
      obtain ⟨k, hleft⟩ := hmirrored.covered
      obtain ⟨l, hright⟩ := hmirrored.plain
      have hloop : readFromLoop P n (fuel + 1) c = (none, c) := by
        simp [readFromLoop, hleft.recvQueued_nil]
      have hloop' : readFromLoop P n (fuel' + 1) d = (none, d) := by
        simp [readFromLoop, Queued.recvQueued_nil hright]
      rw [hloop, hloop']
      exact ⟨rfl, [], hmirrored⟩
  | cons fr rest ih =>
      obtain ⟨fuel, rfl⟩ : ∃ m, fuel = m + 1 := ⟨fuel - 1, by simp at hfuel; omega⟩
      obtain ⟨ev, hevent⟩ := hmirrored.events fr List.mem_cons_self
      have hevents : ∀ fr ∈ rest, ∃ ev, fr.event = .ok ev :=
        fun fr hfr => hmirrored.events fr (List.mem_cons_of_mem _ hfr)
      obtain ⟨k, hleft⟩ := hmirrored.covered
      obtain ⟨l, hright⟩ := hmirrored.plain
      obtain ⟨s, hrecv, hleft⟩ := hleft.recvQueued hevent
      rw [readFromLoop_ok hrecv]
      cases hcovers : fr.covers with
      | true =>
          have hsame : uncovered (fr :: rest) = uncovered rest := by
            simp [uncovered, hcovers]
          rw [hsame] at hright hfuel'
          rw [PacketConn.answer_of_covers hcovers hevent]
          have hnext := hmirrored.same.setStream s d.conn.stream
          exact ih ⟨hnext, hevents, ⟨k + 1, hleft⟩, ⟨l, hright⟩⟩
            (by simpa using hfuel) hfuel'
      | false =>
          have hcons : uncovered (fr :: rest) = fr :: uncovered rest := by
            simp [uncovered, hcovers]
          rw [hcons] at hright hfuel'
          obtain ⟨fuel', rfl⟩ : ∃ m, fuel' = m + 1 :=
            ⟨fuel' - 1, by simp at hfuel'; omega⟩
          obtain ⟨s', hrecv', hright⟩ := hright.recvQueued hevent
          have hnext := hmirrored.same.setStream s s'
          rw [readFromLoop_ok hrecv', ← hmirrored.same.answer n ev]
          cases c.conn.answer n ev with
          | none =>
              exact ih ⟨hnext, hevents, ⟨k + 1, hleft⟩, ⟨l + 1, hright⟩⟩
                (by simpa using hfuel) (by simpa using hfuel')
          | some result =>
              exact ⟨rfl, rest, hnext, hevents, ⟨k + 1, hleft⟩, ⟨l + 1, hright⟩⟩

theorem sealFrames_length (f : FrameAEAD) (k : ℕ) (frames : List Frame) :
    (sealFrames P f k frames).length = frames.length := by
  induction frames generalizing k with
  | nil => rfl
  | cons fr rest ih => simp [sealFrames, ih]

theorem readFrom_mirrored
    {f : FrameAEAD} {frames : List Frame} {c d : PacketEnd} (n : ℕ)
    (hmirrored : Mirrored P f frames c d) (hnone : c.conn.pendingFirst = none) :
    (readFrom P n c).1 = (readFrom P n d).1 ∧
      (readFrom P n c).2.conn.pendingFirst = none ∧
      ∃ frames', Mirrored P f frames' (readFrom P n c).2 (readFrom P n d).2 := by
  have hnone' : d.conn.pendingFirst = none := hmirrored.same.pendingFirst ▸ hnone
  obtain ⟨k, hleft⟩ := hmirrored.covered
  obtain ⟨l, hright⟩ := hmirrored.plain
  have hfuel : frames.length < c.inbox.length + 1 := by
    rw [hleft.messages, sealFrames_length]
    omega
  have hfuel' : (uncovered frames).length < d.inbox.length + 1 := by
    rw [hright.messages, sealFrames_length]
    omega
  obtain ⟨hresult, hafter⟩ := readFromLoop_mirrored (n := n) hmirrored hfuel hfuel'
  have hpending :=
    (readFromLoop_call (P := P) n (c.inbox.length + 1) hnone
      hleft.stream_open).pendingFirst
  simp only [readFrom, hnone, hnone']
  exact ⟨hresult, hpending, hafter⟩

/-- Cover changes nothing for `ReadFrom`. -/
theorem readFromUntil_mirrors
    {f : FrameAEAD} {c d : PacketEnd} (n : ℕ) (lost : Option EwpError)
    (hmirrors : Mirrors P f c d) :
    (readFromUntil P n lost c).1 = (readFromUntil P n lost d).1 ∧
      Mirrors P f (readFromUntil P n lost c).2 (readFromUntil P n lost d).2 := by
  cases hmirrors with
  | ended hsame hnone hleft hright =>
      rw [readFromUntil_of_closed hnone hleft,
        readFromUntil_of_closed (hsame.pendingFirst ▸ hnone) hright]
      exact ⟨rfl, .ended hsame hnone hleft hright⟩
  | live frames hmirrored =>
      have hsame := hmirrored.same
      cases hpending : c.conn.pendingFirst with
      | some first =>
          rw [readFromUntil_of_pendingFirst hpending,
            readFromUntil_of_pendingFirst (hsame.pendingFirst ▸ hpending),
            hsame.pendingFirstSrc]
          refine ⟨rfl, .live frames ⟨?_, hmirrored.events, hmirrored.covered,
            hmirrored.plain⟩⟩
          exact ⟨hsame.globalID, hsame.defaultDst, rfl, hsame.pendingFirstSrc⟩
      | none =>
          obtain ⟨hresult, hnone, frames', hafter⟩ :=
            readFrom_mirrored n hmirrored hpending
          generalize hread : readFrom P n c = r at hresult hnone hafter
          generalize hread' : readFrom P n d = r' at hresult hafter
          obtain ⟨result, c'⟩ := r
          obtain ⟨_, d'⟩ := r'
          obtain rfl := hresult
          cases result with
          | some result =>
              simp only [readFromUntil, hread, hread', true_and]
              exact .live frames' hafter
          | none =>
              cases lost with
              | none =>
                  simp only [readFromUntil, hread, hread', true_and]
                  exact .live frames' hafter
              | some e =>
                  obtain ⟨k, hleft⟩ := hafter.covered
                  obtain ⟨l, hright⟩ := hafter.plain
                  rw [readFromUntil_lost hread hleft.stream_open,
                    readFromUntil_lost hread' hright.stream_open]
                  exact ⟨rfl, .ended (hafter.same.setStream _ _) hnone
                    (SecureStream.close_closed _) (SecureStream.close_closed _)⟩

/-- Successive calls of `ReadFrom`, each with a buffer and the error, if any,
that the transport ends with. -/
def readCalls (calls : List (ℕ × Option EwpError)) : List PacketOp :=
  calls.map (fun call => .read call.1 call.2)

theorem packetRun_mirrors
    {f : FrameAEAD} {c d : PacketEnd} (calls : List (ℕ × Option EwpError))
    (hmirrors : Mirrors P f c d) :
    (packetRun P (readCalls calls) c).1 = (packetRun P (readCalls calls) d).1 := by
  induction calls generalizing c d with
  | nil => rfl
  | cons call calls ih =>
      obtain ⟨hresult, hnext⟩ := readFromUntil_mirrors call.1 call.2 hmirrors
      simp only [readCalls, List.map_cons, packetRun, hresult]
      exact congrArg _ (ih hnext)

/-! ## Dispatching -/

/-- The handshake of `handleTransport` goes through. -/
def Established (P : Primitives) (lookup : Option UUIDLookup)
    (replay : Option ReplayCache) (env : ServeEnv P) (keys : SessionKeys)
    (ch : ClientHello) : Prop :=
  ∃ uuids helloIn helloOut res replay',
    lookup = some uuids ∧ env.hello = .ok helloIn ∧
    acceptClientHelloWithReplay P helloIn uuids replay env.accept =
      (.ok (helloOut, res), replay') ∧
    env.send helloOut = none ∧ res.clientHello = some ch ∧ res.keys = keys

/-- `handleTransport` for a client that sends `frames` after its handshake. -/
def serveFrames (P : Primitives) (lookup : Option UUIDLookup)
    (replay : Option ReplayCache) (env : ServeEnv P) (keys : SessionKeys)
    (frames : List Frame) : ServeRun :=
  handleTransport P lookup replay
    { env with
      inbox := sealFrames P (newFrameAEAD keys.c2sKey keys.c2sNonce) 0 frames }

theorem serveFrames_established
    {lookup : Option UUIDLookup} {replay : Option ReplayCache}
    {env : ServeEnv P} {keys : SessionKeys} {ch : ClientHello}
    (hestablished : Established P lookup replay env keys ch)
    (hudp : ch.command = commandUDP) :
    ∃ run : ServeRun, run.handled = none ∧ ∀ frames,
      serveFrames P lookup replay env keys frames =
        serveUDP P { userUUID := ch.uuid, destination := ch.address }
          (newServerSecureStream keys)
          (sealFrames P (newFrameAEAD keys.c2sKey keys.c2sNonce) 0 frames)
          env.lost run := by
  obtain ⟨uuids, helloIn, helloOut, res, replay', rfl, hhello, haccept, hsend,
    hch, rfl⟩ := hestablished
  refine ⟨{ calls := [.readMessage, .sendMessage helloOut true]
            replay := replay' }, rfl, ?_⟩
  intro frames
  have htcp : commandUDP ≠ commandTCP := by decide
  simp only [serveFrames, handleTransport, hhello, haccept, hsend, hch, dispatch,
    hudp, if_neg htcp, if_true]

theorem queued_newServerSecureStream
    (keys : SessionKeys) (frames : List Frame) :
    Queued P (newFrameAEAD keys.c2sKey keys.c2sNonce) 0 frames
      (newServerSecureStream keys)
      (sealFrames P (newFrameAEAD keys.c2sKey keys.c2sNonce) 0 frames) :=
  ⟨rfl, rfl, rfl⟩

section Dispatch

variable {lookup : Option UUIDLookup} {replay : Option ReplayCache}
variable {env : ServeEnv P} {keys : SessionKeys} {ch : ClientHello}

theorem serveFrames_opened
    (hestablished : Established P lookup replay env keys ch)
    (hudp : ch.command = commandUDP) {fr : Frame} {ev : Event}
    (hevent : fr.event = .ok ev) (hnew : ev.type = frameUDPNew)
    (rest : List Frame) :
    ∃ s, (serveFrames P lookup replay env keys (fr :: rest)).handled =
        some (.newPacketConnection
          ⟨newServerPacketConn s ev.globalID (ev.address.getD ch.address)
            ev.payload,
            sealFrames P (newFrameAEAD keys.c2sKey keys.c2sNonce) 1 rest⟩
          { userUUID := ch.uuid, destination := ch.address }) ∧
      Queued P (newFrameAEAD keys.c2sKey keys.c2sNonce) 1 rest s
        (sealFrames P (newFrameAEAD keys.c2sKey keys.c2sNonce) 1 rest) := by
  obtain ⟨run, _, hserve⟩ := serveFrames_established hestablished hudp
  obtain ⟨s, hrecv, hnext⟩ :=
    (queued_newServerSecureStream keys (fr :: rest)).recvQueued hevent
  refine ⟨s, ?_, hnext⟩
  rw [hserve]
  simp [serveUDP, hrecv, hnew]

theorem serveFrames_covered
    (hestablished : Established P lookup replay env keys ch)
    (hudp : ch.command = commandUDP) {fr : Frame} (hcovers : fr.covers = true)
    (rest : List Frame) :
    (serveFrames P lookup replay env keys (fr :: rest)).handled = none ∧
      (serveFrames P lookup replay env keys (fr :: rest)).err =
        some (.expectedUDPNew fr.type.code) := by
  obtain ⟨run, hrun, hserve⟩ := serveFrames_established hestablished hudp
  obtain ⟨s, hrecv, _⟩ :=
    (queued_newServerSecureStream (P := P) keys (fr :: rest)).recvQueued
      (Frame.event_of_covers hcovers)
  have hother : ∀ t ∈ [framePaddingOnly, framePing, framePong],
      t ≠ frameUDPNew := by decide
  have htype := hother fr.type (of_decide_eq_true hcovers)
  rw [hserve]
  simp [serveUDP, hrecv, htype, hrun]

end Dispatch

/-- A packet conn is handed over in both cases and reads the same. -/
def CoverUnseen (P : Primitives) (covered plain : ServeRun) : Prop :=
  ∃ c d metadata,
    covered.handled = some (.newPacketConnection c metadata) ∧
    plain.handled = some (.newPacketConnection d metadata) ∧
    ∀ calls, (packetRun P (readCalls calls) c).1 =
      (packetRun P (readCalls calls) d).1

/-- Cover and keepalive frames are transparent to a UDP tunnel if and only if
none of them comes before `UDP_NEW`. -/
theorem cover_unseen_iff
    {lookup : Option UUIDLookup} {replay : Option ReplayCache}
    {env : ServeEnv P} {keys : SessionKeys} {ch : ClientHello}
    (hestablished : Established P lookup replay env keys ch)
    (hudp : ch.command = commandUDP) {globalID : GlobalID} {frames : List Frame}
    (hframes : UDPSequence globalID (uncovered frames)) :
    CoverUnseen P (serveFrames P lookup replay env keys frames)
        (serveFrames P lookup replay env keys (uncovered frames)) ↔
      ∀ fr, frames.head? = some fr → fr.covers = false := by
  cases frames with
  | nil => exact hframes.elim
  | cons fr rest =>
      cases hcovers : fr.covers with
      | true =>
          refine iff_of_false ?_ (by simp [hcovers])
          rintro ⟨c, _, _, hhandled, _⟩
          rw [(serveFrames_covered hestablished hudp hcovers rest).1] at hhandled
          cases hhandled
      | false =>
          refine iff_of_true ?_ (by simp [hcovers])
          have hcons : uncovered (fr :: rest) = fr :: uncovered rest := by
            simp [uncovered, hcovers]
          rw [hcons] at hframes ⊢
          obtain ⟨⟨ev, hevent, hnew, _⟩, hrest⟩ := hframes
          have hopens := serveFrames_opened hestablished hudp hevent
            (List.mem_singleton.mp hnew)
          obtain ⟨s, hhandled, hleft⟩ := hopens rest
          obtain ⟨s', hhandled', hright⟩ := hopens (uncovered rest)
          refine ⟨_, _, _, hhandled, hhandled', ?_⟩
          intro calls
          refine packetRun_mirrors calls
            (.live rest ⟨⟨rfl, rfl, rfl, rfl⟩, ?_, ⟨1, hleft⟩, ⟨1, hright⟩⟩)
          intro fr' hfr'
          cases hcovers' : fr'.covers with
          | true => exact ⟨_, Frame.event_of_covers hcovers'⟩
          | false =>
              obtain ⟨ev', hevent', _⟩ := hrest fr'
                (List.mem_filter.mpr ⟨hfr', by simp [hcovers']⟩)
              exact ⟨ev', hevent'⟩

/-! ## A transparent tunnel -/

namespace Transparent

theorem frameUDPNew_valid : frameUDPNew.valid = true := rfl

theorem framePing_valid : framePing.valid = true := rfl

theorem session_meta_le : session.val.length ≤ maxMetaLen := by decide

theorem opening_size_le :
    bareFrameLen session.val.length [9].length + 0 ≤ maxFrameSize := by decide

theorem keepalive_size_le : bareFrameLen 0 0 + 0 ≤ maxFrameSize := by decide

/-- `UDP_NEW` with the datagram `[9]` for the address of the hello. -/
def opening : Frame :=
  ⟨frameUDPNew, session.val, [9], [], frameUDPNew_valid, session_meta_le,
    Nat.zero_le _, opening_size_le⟩

def keepalive : Frame :=
  ⟨framePing, [], [], [], framePing_valid, Nat.zero_le _, Nat.zero_le _,
    keepalive_size_le⟩

def udpHello : ClientHello := { hello 1000 with command := commandUDP }

def udpEnv (wire : Bytes) : ServeEnv suite where
  hello := .ok wire
  accept := acceptEnv 1000
  send := fun _ => none
  inbox := []
  lost := none

theorem udpHello_established :
    ∃ wire keys ch, Established suite (some (makeUUIDLookup suite [user])) none
      (udpEnv wire) keys ch ∧ ch.command = commandUDP := by
  obtain ⟨wire, henc⟩ := encodeClientHello_succeeds suite
    (show udpHello.address.Encodable by simp [udpHello, hello, Address.Encodable])
    (show ∀ n, zeroDraws.bytes n ≠ none by simp [zeroDraws])
  have hauth := authenticateClientHello_encode henc (Or.inr rfl)
    (show absDiff (1000 : UInt32).toNat 1000 ≤ 120 by decide)
  obtain ⟨⟨reply, res⟩, hanswer⟩ :=
    answerClientHello_acceptEnv udpHello.uuid udpHello.wireNorm 1000
  refine ⟨wire, res.keys, udpHello.wireNorm, ⟨makeUUIDLookup suite [user], wire,
    reply, res, none, rfl, rfl, ?_, rfl, ?_, rfl⟩, rfl⟩
  · have hcheck : (acceptEnv 1000).checkNow = 1000 := rfl
    have huser : udpHello.uuid = user := rfl
    rw [huser] at hauth hanswer
    simp only [udpEnv, acceptClientHelloWithReplay, hcheck, hauth, hanswer]
  · obtain ⟨_, _, _, _, _, _, _, _, hres⟩ := answerClientHello_ok hanswer
    rw [hres]

theorem opening_carries : opening.Carries [frameUDPNew] session :=
  ⟨{ type := frameUDPNew, globalID := session, payload := some [9] },
    by decide, by decide, rfl⟩

end Transparent

open Transparent in
theorem cover_unseen_iff_keepalive :
    ∃ wire keys, CoverUnseen suite
      (serveFrames suite (some (makeUUIDLookup suite [user])) none (udpEnv wire)
        keys [opening, keepalive])
      (serveFrames suite (some (makeUUIDLookup suite [user])) none (udpEnv wire)
        keys (uncovered [opening, keepalive])) := by
  obtain ⟨wire, keys, ch, hestablished, hudp⟩ := udpHello_established
  have hframes : UDPSequence session (uncovered [opening, keepalive]) :=
    ⟨opening_carries, fun _ hfr => absurd hfr List.not_mem_nil⟩
  refine ⟨wire, keys, (cover_unseen_iff hestablished hudp hframes).mpr ?_⟩
  intro fr hfr
  cases hfr
  decide

open Transparent in
/-- A keepalive ahead of `UDP_NEW` ends a connection that is served without
it. -/
theorem keepalive_before_opening :
    ∃ wire keys ch, Established suite (some (makeUUIDLookup suite [user])) none
        (udpEnv wire) keys ch ∧ ch.command = commandUDP ∧
      UDPSequence session (uncovered [keepalive, opening]) ∧
      (serveFrames suite (some (makeUUIDLookup suite [user])) none (udpEnv wire)
        keys [keepalive, opening]).handled = none ∧
      (serveFrames suite (some (makeUUIDLookup suite [user])) none (udpEnv wire)
        keys [keepalive, opening]).err =
          some (.expectedUDPNew framePing.code) ∧
      ∃ c metadata,
        (serveFrames suite (some (makeUUIDLookup suite [user])) none
          (udpEnv wire) keys (uncovered [keepalive, opening])).handled =
            some (.newPacketConnection c metadata) := by
  obtain ⟨wire, keys, ch, hestablished, hudp⟩ := udpHello_established
  obtain ⟨hhandled, herr⟩ :=
    serveFrames_covered hestablished hudp (rfl : keepalive.covers = true) [opening]
  obtain ⟨ev, hevent, hnew, _⟩ := opening_carries
  obtain ⟨s, hopened, _⟩ := serveFrames_opened hestablished hudp hevent
    (List.mem_singleton.mp hnew) []
  exact ⟨wire, keys, ch, hestablished, hudp,
    ⟨opening_carries, fun _ hfr => absurd hfr List.not_mem_nil⟩, hhandled, herr,
    _, _, hopened⟩

end SingEwp
