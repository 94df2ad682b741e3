import SingEwp.StreamIntegrity
import SingEwp.StreamTermination
import SingEwp.ThreadRules

/-!
# Two streams and the transport between them

Both ends of a session and the frames that are under way between them.  The
transport keeps their order and loses none; it takes frames until its end is
closed, and it reports the end of the other side when nothing is under way any
more.  What it answers is computed from the state.

Each direction has an invariant of its own (`Link`): what the peer has received
is the beginning of what the transport took, frame by frame, and the statistics
of both ends count just that.  `SessionOk` is the invariant of both directions,
with what makes a stream end.
-/

namespace SingEwp

variable {P : Primitives}

/-! ## The two ends -/

structure LinkedPair where
  stream : Side → SecureStream
  /-- The frames that the transport has taken from a side. -/
  taken : Side → List SentFrame

theorem Side.peer_ne (side : Side) : side.peer ≠ side := by
  cases side <;> decide

namespace LinkedPair

/-- The messages under way to a side. -/
def under (st : LinkedPair) (side : Side) : List Bytes :=
  ((st.taken side.peer).drop (st.stream side).received.length).map SentFrame.wire

/-- One side's stream has moved on.  The transport has taken what the stream
handed over while it was open. -/
def put (side : Side) (s : SecureStream) (st : LinkedPair) : LinkedPair where
  stream := Function.update st.stream side s
  taken := Function.update st.taken side
    (st.taken side ++
      if (st.stream side).closed then []
      else s.handed.drop (st.stream side).handed.length)

theorem under_cons
    {st : LinkedPair} {side : Side} {msg : Bytes} {rest : List Bytes}
    (hunder : st.under side = msg :: rest) :
    ∃ e, (st.taken side.peer)[(st.stream side).received.length]? = some e ∧
      e.wire = msg := by
  have hhead := congrArg List.head? hunder
  rw [under, List.head?_map, List.head?_drop, List.head?_cons,
    Option.map_eq_some_iff] at hhead
  exact hhead

theorem under_nil
    {st : LinkedPair} {side : Side} (hunder : st.under side = []) :
    (st.taken side.peer).length ≤ (st.stream side).received.length := by
  rw [under, List.map_eq_nil_iff, List.drop_eq_nil_iff] at hunder
  exact hunder

section Put

variable (side : Side) (s : SecureStream) (st : LinkedPair)

@[simp] theorem put_stream_self : (st.put side s).stream side = s :=
  Function.update_self _ _ _

@[simp] theorem put_stream_peer :
    (st.put side s).stream side.peer = st.stream side.peer :=
  Function.update_of_ne side.peer_ne _ _

@[simp] theorem put_taken_self :
    (st.put side s).taken side = st.taken side ++
      if (st.stream side).closed then []
      else s.handed.drop (st.stream side).handed.length :=
  Function.update_self _ _ _

@[simp] theorem put_taken_peer :
    (st.put side s).taken side.peer = st.taken side.peer :=
  Function.update_of_ne side.peer_ne _ _

end Put

end LinkedPair

/-- The transport as one side finds it. -/
def LinkedPair.transport (side : Side) (env : StreamEnv) (st : LinkedPair) : StreamEnv :=
  { env with
    sendMessage := fun _ =>
      if (st.stream side).closed then some (.io .closedPipe) else none
    readMessage :=
      if (st.stream side).closed then .error (.io .closedPipe)
      else
        match st.under side with
        | msg :: _ => .ok msg
        | [] => .error (.io .eof) }

/-- `ReadMessage` waits as long as nothing has come and nothing is over. -/
def LinkedPair.Ready : DuplexLabel → StreamEnv → LinkedPair → Prop
  | (side, .recv), _, st =>
      (st.stream side).closed = true ∨ st.under side ≠ [] ∨
        (st.stream side.peer).closed = true
  | _, _, _ => True

instance LinkedPair.decidableReady :
    ∀ (label : DuplexLabel) (env : StreamEnv) (st : LinkedPair),
      Decidable (LinkedPair.Ready label env st)
  | (side, .recv), _, st => inferInstanceAs (Decidable
      ((st.stream side).closed = true ∨ st.under side ≠ [] ∨
        (st.stream side.peer).closed = true))
  | (_, .closedTest), _, _ => .isTrue trivial
  | (_, .sendLocked), _, _ => .isTrue trivial
  | (_, .chunkDraw), _, _ => .isTrue trivial
  | (_, .close), _, _ => .isTrue trivial

def newLinkedPair (keys : SessionKeys) : LinkedPair where
  stream := newSecureStream keys
  taken := fun _ => []

def inSession {α : Type} (side : Side) (p : StreamProc α) :
    Proc DuplexLabel StreamEnv LinkedPair α :=
  Proc.embed (fun label => (side, label)) (LinkedPair.transport side)
    (fun st => st.stream side) (fun _ => LinkedPair.put side) p

def sessionPool (P : Primitives) (keys : SessionKeys)
    (calls : List (Side × StreamCall)) :
    Pool DuplexLabel StreamEnv LinkedPair StreamResult where
  shared := newLinkedPair keys
  threads := calls.map (fun call => inSession call.1 (call.2.proc P))

/-! ## One direction -/

/-- `Recv` makes an event of every frame of this type with this meta. -/
def FrameParses (t : FrameType) (metaBytes : Bytes) : Prop :=
  ∀ (fr : Frame) (counter : UInt64), fr.type = t → fr.metaBytes = metaBytes →
    ∃ ev, eventOf (fr.decoded counter) = .ok ev

def wireTotal (log : List SentFrame) : ℕ :=
  (log.map (fun e => e.wire.length)).sum

/-- From `x` to `y`, where the transport took `taken` of `x`; `quits` says that
`y` may be closed by a caller of its own. -/
structure Link (P : Primitives) (f : FrameAEAD) (quits : Prop)
    (x y : SecureStream) (taken : List SentFrame) : Prop where
  ledger : Ledger P f x
  parses : ∀ e ∈ x.handed, FrameParses e.type e.metaBytes
  part : taken <+: x.handed
  all : x.closed = false → taken = x.handed
  delivered : y.received.map (fun r => r.frame.content) <+:
    taken.map SentFrame.content
  events : ∀ r ∈ y.received, eventOf r.frame = .ok r.event
  context : y.closed = false → y.recv = f.seek y.received.length
  frmOut : x.frmOut = UInt64.ofNat taken.length
  frmIn : y.frmIn = UInt64.ofNat y.received.length
  bytesOut : x.bytesOut = UInt64.ofNat (wireTotal taken)
  bytesIn : y.bytesIn = UInt64.ofNat (wireTotal (taken.take y.received.length))
  ended : y.closed = true →
    quits ∨ (x.closed = true ∧ y.received.length = taken.length)

theorem SecureStream.close_statistics (s : SecureStream) :
    s.close.frmOut = s.frmOut ∧ s.close.frmIn = s.frmIn ∧
      s.close.bytesOut = s.bytesOut ∧ s.close.bytesIn = s.bytesIn := by
  unfold SecureStream.close
  split
  · exact ⟨rfl, rfl, rfl, rfl⟩
  · exact ⟨rfl, rfl, rfl, rfl⟩

section RecvOpened

variable {env : StreamEnv} {s : SecureStream}

theorem recvOpened_error {e : EwpError} (hread : env.readMessage = .error e) :
    recvOpened P env s = (.error e, s.close) := by
  simp only [recvOpened, hread]

theorem recvOpened_wire
    {fr : Frame} {ev : Event} (hread : env.readMessage = .ok (fr.wire P s.recv))
    (hevent : eventOf (fr.decoded s.recv.counter) = .ok ev) :
    recvOpened P env s =
      (.ok ev,
        { s.countReceived { s.recv with counter := s.recv.counter + 1 }
            (fr.wire P s.recv) with
          received := s.received ++ [⟨fr.decoded s.recv.counter, ev⟩] }) := by
  have hdec := decodeFrame_wire P s.recv fr []
  rw [List.append_nil] at hdec
  simp only [recvOpened, hread, hdec, hevent]
  rfl

theorem recvOpened_sender (env : StreamEnv) (s : SecureStream) :
    (recvOpened P env s).2.send = s.send ∧
      (recvOpened P env s).2.handed = s.handed ∧
      (recvOpened P env s).2.frmOut = s.frmOut ∧
      (recvOpened P env s).2.bytesOut = s.bytesOut := by
  have hclose : ∀ s' : SecureStream, s'.send = s.send → s'.handed = s.handed →
      s'.frmOut = s.frmOut → s'.bytesOut = s.bytesOut →
      s'.close.send = s.send ∧ s'.close.handed = s.handed ∧
        s'.close.frmOut = s.frmOut ∧ s'.close.bytesOut = s.bytesOut := by
    intro s' hsend hhanded hfrmOut hbytesOut
    rw [s'.close_statistics.1, s'.close_statistics.2.2.1]
    simp [hsend, hhanded, hfrmOut, hbytesOut]
  unfold recvOpened
  split
  · exact hclose s rfl rfl rfl rfl
  split
  · exact hclose s rfl rfl rfl rfl
  dsimp only
  split
  · exact hclose _ rfl rfl rfl rfl
  · exact ⟨rfl, rfl, rfl, rfl⟩

end RecvOpened

namespace Link

variable {f : FrameAEAD} {quits : Prop} {x y : SecureStream}
variable {taken : List SentFrame}

theorem received_le (hlink : Link P f quits x y taken) :
    y.received.length ≤ taken.length := by
  simpa using hlink.delivered.length_le

/-- Nothing has changed for the receiver. -/
theorem of_receiver_eq
    (hlink : Link P f quits x y taken) {y' : SecureStream}
    (hreceived : y'.received = y.received) (hrecv : y'.recv = y.recv)
    (hfrmIn : y'.frmIn = y.frmIn) (hbytesIn : y'.bytesIn = y.bytesIn)
    (hclosed : y'.closed = y.closed) : Link P f quits x y' taken :=
  { hlink with
    delivered := by rw [hreceived]; exact hlink.delivered
    events := by rw [hreceived]; exact hlink.events
    context := by rw [hreceived, hrecv, hclosed]; exact hlink.context
    frmIn := by rw [hfrmIn, hreceived]; exact hlink.frmIn
    bytesIn := by rw [hbytesIn, hreceived]; exact hlink.bytesIn
    ended := by rw [hreceived, hclosed]; exact hlink.ended }

/-- The sender has handed over nothing; it may have closed. -/
theorem of_sender_eq
    (hlink : Link P f quits x y taken) {x' : SecureStream}
    (hsend : x'.send = x.send) (hhanded : x'.handed = x.handed)
    (hfrmOut : x'.frmOut = x.frmOut) (hbytesOut : x'.bytesOut = x.bytesOut)
    (hstays : StaysClosed x x') : Link P f quits x' y taken :=
  { hlink with
    ledger := hlink.ledger.of_eq hsend hhanded
    parses := by rw [hhanded]; exact hlink.parses
    part := by rw [hhanded]; exact hlink.part
    all := by
      intro hopen
      rw [hhanded]
      cases hclosed : x.closed with
      | false => exact hlink.all hclosed
      | true => exact absurd (hstays hclosed) (by simp [hopen])
    frmOut := by rw [hfrmOut]; exact hlink.frmOut
    bytesOut := by rw [hbytesOut]; exact hlink.bytesOut
    ended := fun hclosed => (hlink.ended hclosed).imp_right (And.imp_left hstays) }

theorem parses_emit
    (hlink : Link P f quits x y taken) {cap : ℕ} {fr : Frame}
    (hparses : FrameParses fr.type fr.metaBytes) :
    ∀ e ∈ (x.emit P cap fr).handed, FrameParses e.type e.metaBytes := by
  intro e he
  rcases List.mem_append.mp he with hold | hnew
  · exact hlink.parses e hold
  · rw [List.mem_singleton.mp hnew]
    exact hparses

/-- A frame is handed over and taken. -/
theorem emit
    (hlink : Link P f quits x y taken) (hopen : x.closed = false) (cap : ℕ)
    {fr : Frame} (hparses : FrameParses fr.type fr.metaBytes) (t : FrameType)
    (nowNs : ℤ) :
    Link P f quits ((x.emit P cap fr).countSent t (fr.wire P x.send) nowNs) y
      (taken ++ [⟨fr.type, fr.metaBytes, fr.payload, fr.wire P x.send⟩]) where
  ledger := (hlink.ledger.emit cap fr).of_eq rfl rfl
  parses := hlink.parses_emit hparses
  part := by
    rw [hlink.all hopen]
    exact List.prefix_refl _
  all := by
    intro _
    rw [hlink.all hopen]
    rfl
  delivered := by
    rw [List.map_append]
    exact hlink.delivered.trans (List.prefix_append _ _)
  events := hlink.events
  context := hlink.context
  frmOut := by
    simp [SecureStream.countSent, SecureStream.emit, SecureStream.handOver,
      hlink.frmOut]
  frmIn := hlink.frmIn
  bytesOut := by
    simp [SecureStream.countSent, SecureStream.emit, SecureStream.handOver,
      hlink.bytesOut, wireTotal]
  bytesIn := by
    rw [List.take_append_of_le_length hlink.received_le]
    exact hlink.bytesIn
  ended := by
    intro hclosed
    rcases hlink.ended hclosed with hquits | ⟨hover, _⟩
    · exact Or.inl hquits
    · simp [hopen] at hover

/-- A frame is handed over to a transport that is closed. -/
theorem refuse
    (hlink : Link P f quits x y taken) (hclosed : x.closed = true) (cap : ℕ)
    {fr : Frame} (hparses : FrameParses fr.type fr.metaBytes) :
    Link P f quits (x.emit P cap fr).close y taken := by
  have hemit : (x.emit P cap fr).close = x.emit P cap fr :=
    SecureStream.close_of_closed hclosed
  rw [hemit]
  exact
    { hlink with
      ledger := hlink.ledger.emit cap fr
      parses := hlink.parses_emit hparses
      part := hlink.part.trans (List.prefix_append _ _)
      all := fun hopen => absurd hclosed (by
        rw [show x.closed = false from hopen]
        simp)
      frmOut := hlink.frmOut
      bytesOut := hlink.bytesOut
      ended := hlink.ended }

/-- The next frame arrives. -/
theorem receive
    (hlink : Link P f quits x y taken) (hopen : y.closed = false)
    {e : SentFrame} (hnext : taken[y.received.length]? = some e)
    {env : StreamEnv} (hread : env.readMessage = .ok e.wire) :
    Link P f quits x (recvOpened P env y).2 taken ∧
      (recvOpened P env y).2.closed = false := by
  have hlt : y.received.length < taken.length :=
    (List.getElem?_eq_some_iff.mp hnext).1
  have hhanded : x.handed[y.received.length]? = some e := by
    obtain ⟨later, hlater⟩ := hlink.part
    rw [← hlater, List.getElem?_append_left hlt, hnext]
  obtain ⟨fr, hsealed⟩ := hlink.ledger.frames _ e hhanded
  have hcontext := hlink.context hopen
  rw [hsealed.wire, ← hcontext] at hread
  obtain ⟨ev, hevent⟩ := hlink.parses e (List.mem_of_getElem? hhanded) fr
    y.recv.counter hsealed.type hsealed.metaBytes
  rw [recvOpened_wire hread hevent]
  refine ⟨?_, hopen⟩
  have htake : taken.take (y.received.length + 1) =
      taken.take y.received.length ++ [e] := by
    rw [List.take_add_one, hnext]
    rfl
  exact
    { hlink with
      delivered := by
        have hold := List.prefix_iff_eq_take.mp hlink.delivered
        rw [List.length_map, ← List.map_take] at hold
        have hcontent : (fr.decoded y.recv.counter).content = e.content := by
          simp [Frame.decoded, DecodedFrame.content, SentFrame.content,
            hsealed.type, hsealed.metaBytes, hsealed.payload]
        rw [List.map_append, hold, List.map_singleton, hcontent,
          ← List.map_singleton, ← List.map_append, ← htake]
        exact (List.take_prefix _ _).map _
      events := by
        intro r hr
        rcases List.mem_append.mp hr with hold | hnew
        · exact hlink.events r hold
        · rw [List.mem_singleton.mp hnew]
          exact hevent
      context := by
        intro _
        simp only [SecureStream.countReceived, List.length_append,
          List.length_singleton]
        rw [hcontext, FrameAEAD.seek_succ]
      frmIn := by
        simp [SecureStream.countReceived, hlink.frmIn]
      bytesIn := by
        simp only [SecureStream.countReceived, List.length_append,
          List.length_singleton]
        rw [htake, hlink.bytesIn, hcontext, ← hsealed.wire]
        simp [wireTotal]
      ended := fun hclosed => absurd (hopen.symm.trans hclosed) (by simp) }

/-- The receiver closes, by a caller of its own or at the end. -/
theorem close_receiver
    (hlink : Link P f quits x y taken)
    (hended : quits ∨ (x.closed = true ∧ y.received.length = taken.length)) :
    Link P f quits x y.close taken :=
  { hlink with
    delivered := by rw [SecureStream.close_received]; exact hlink.delivered
    events := by rw [SecureStream.close_received]; exact hlink.events
    context := fun hopen => absurd hopen (by simp)
    frmIn := by
      rw [y.close_statistics.2.1, SecureStream.close_received]
      exact hlink.frmIn
    bytesIn := by
      rw [y.close_statistics.2.2.2, SecureStream.close_received]
      exact hlink.bytesIn
    ended := by
      intro _
      rw [SecureStream.close_received]
      exact hended }

end Link

/-! ## Both directions -/

/-- `quits` names the sides that a caller may close. -/
structure SessionOk (P : Primitives) (keys : SessionKeys) (quits : Side → Prop)
    (st : LinkedPair) : Prop where
  link : ∀ side, Link P (sendContext keys side) (quits side.peer)
    (st.stream side) (st.stream side.peer) (st.taken side)
  started : ∀ side, (st.stream side).closed = true →
    ∃ quitter, quits quitter ∧ (st.stream quitter).closed = true

namespace SessionOk

variable {keys : SessionKeys} {quits : Side → Prop} {st : LinkedPair} {side : Side}

/-- What an action does to one side's stream, as sender and as receiver, decides
both directions. -/
theorem put
    (hst : SessionOk P keys quits st) {s : SecureStream} {new : List SentFrame}
    (hnew : (if (st.stream side).closed then []
      else s.handed.drop (st.stream side).handed.length) = new)
    (hsender : Link P (sendContext keys side) (quits side.peer) s
      (st.stream side.peer) (st.taken side ++ new))
    (hreceiver : Link P (sendContext keys side.peer) (quits side)
      (st.stream side.peer) s (st.taken side.peer))
    (hstays : StaysClosed (st.stream side) s)
    (hstarted : s.closed = true → (st.stream side).closed = true ∨ quits side ∨
      (st.stream side.peer).closed = true) :
    SessionOk P keys quits (st.put side s) ∧
      ∀ dir, (st.put side s).taken dir =
        st.taken dir ++ if dir = side then new else [] := by
  refine ⟨⟨?_, ?_⟩, ?_⟩
  · intro dir
    rcases Side.eq_or_eq_peer side dir with rfl | rfl
    · simpa [hnew] using hsender
    · simpa using hreceiver
  · -- whoever closed first is still closed
    have hkept : ∀ quitter, (st.stream quitter).closed = true →
        ((st.put side s).stream quitter).closed = true := by
      intro quitter hclosed
      rcases Side.eq_or_eq_peer side quitter with rfl | rfl
      · simpa using hstays hclosed
      · simpa using hclosed
    have hbefore : (∃ other, (st.stream other).closed = true) →
        ∃ quitter, quits quitter ∧
          ((st.put side s).stream quitter).closed = true := by
      rintro ⟨other, hclosed⟩
      obtain ⟨quitter, hquits, hquitter⟩ := hst.started other hclosed
      exact ⟨quitter, hquits, hkept quitter hquitter⟩
    intro dir hclosed
    rcases Side.eq_or_eq_peer side dir with rfl | rfl
    · rw [LinkedPair.put_stream_self] at hclosed
      rcases hstarted hclosed with hold | hquits | hother
      · exact hbefore ⟨_, hold⟩
      · exact ⟨dir, hquits, by simpa using hclosed⟩
      · exact hbefore ⟨_, hother⟩
    · rw [LinkedPair.put_stream_peer] at hclosed
      exact hbefore ⟨_, hclosed⟩
  · intro dir
    rcases Side.eq_or_eq_peer side dir with rfl | rfl
    · simp [hnew]
    · simp [side.peer_ne]

theorem receiver (hst : SessionOk P keys quits st) (side : Side) :
    Link P (sendContext keys side.peer) (quits side) (st.stream side.peer)
      (st.stream side) (st.taken side.peer) := by
  simpa using hst.link side.peer

/-- An action that does not change the stream. -/
theorem put_self (hst : SessionOk P keys quits st) (side : Side) :
    SessionOk P keys quits (st.put side (st.stream side)) ∧
      ∀ dir, (st.put side (st.stream side)).taken dir = st.taken dir := by
  have hnew : (if (st.stream side).closed then []
      else (st.stream side).handed.drop (st.stream side).handed.length) = [] := by
    simp
  simpa using hst.put hnew (by simpa using hst.link side) (hst.receiver side)
    (fun h => h) Or.inl

theorem sendLocked
    (hst : SessionOk P keys quits st) {t : FrameType} {metaBytes : Bytes}
    (hparses : FrameParses t metaBytes) (payload : Bytes) (padLen : ℤ)
    {env : StreamEnv}
    (hanswer : ∀ msg, env.sendMessage msg =
      if (st.stream side).closed then some (.io .closedPipe) else none) :
    ∃ new, SessionOk P keys quits (st.put side
        (sendFrameLocked P t metaBytes payload padLen env (st.stream side)).2) ∧
      (∀ dir, (st.put side (sendFrameLocked P t metaBytes payload padLen env
          (st.stream side)).2).taken dir =
        st.taken dir ++ if dir = side then new else []) ∧
      ((sendFrameLocked P t metaBytes payload padLen env (st.stream side)).1 =
        .ok () → ∃ wire, new = [⟨t, metaBytes, payload, wire⟩]) := by
  have hsend := hst.link side
  have hreceive := hst.receiver side
  have hstep := sendFrameLocked_step P t metaBytes payload padLen env
    (st.stream side)
  generalize sendFrameLocked P t metaBytes payload padLen env (st.stream side) = r
    at hstep ⊢
  cases hstep with
  | kept outcome cap failed =>
      refine ⟨[], ?_⟩
      rw [← and_assoc]
      refine ⟨hst.put (by simp) ?_ ?_ (fun h => h) Or.inl, ?_⟩
      · rw [List.append_nil]
        exact hsend.of_sender_eq rfl rfl rfl rfl (fun h => h)
      · exact hreceive.of_receiver_eq rfl rfl rfl rfl rfl
      · exact fun hok => absurd hok (SendStep.ne_ok_of_failed failed)
  | taken cap fr htype hmeta hpayload hsent =>
      subst htype hmeta hpayload
      have hopen : (st.stream side).closed = false := by
        rw [hanswer] at hsent
        by_contra hclosed
        simp [hclosed] at hsent
      refine ⟨[⟨fr.type, fr.metaBytes, fr.payload, fr.wire P (st.stream side).send⟩],
        ?_⟩
      rw [← and_assoc]
      refine ⟨hst.put ?_ (hsend.emit hopen cap hparses _ _) ?_ (fun h => h) Or.inl,
        fun _ => ⟨_, rfl⟩⟩
      · simp [hopen, SecureStream.countSent, SecureStream.emit,
          SecureStream.handOver]
      · exact hreceive.of_receiver_eq rfl rfl rfl rfl rfl
  | refused cap fr htype hmeta hpayload e hsent =>
      subst htype hmeta hpayload
      have hclosed : (st.stream side).closed = true := by
        rw [hanswer] at hsent
        by_contra hopen
        simp [hopen] at hsent
      have hemit : ((st.stream side).emit P cap fr).close =
          (st.stream side).emit P cap fr := SecureStream.close_of_closed hclosed
      refine ⟨[], ?_⟩
      rw [← and_assoc]
      refine ⟨hst.put (by simp [hclosed]) ?_ ?_ (fun _ => SecureStream.close_closed _)
        (fun _ => Or.inl hclosed), fun hok => by cases hok⟩
      · rw [List.append_nil]
        exact hsend.refuse hclosed cap hparses
      · rw [hemit]
        exact hreceive.of_receiver_eq rfl rfl rfl rfl rfl

theorem recvOpened
    (hst : SessionOk P keys quits st) (env : StreamEnv)
    (hready : LinkedPair.Ready (side, .recv) env st) :
    SessionOk P keys quits (st.put side
        (SingEwp.recvOpened P (st.transport side env) (st.stream side)).2) ∧
      ∀ dir, (st.put side (SingEwp.recvOpened P (st.transport side env)
        (st.stream side)).2).taken dir = st.taken dir := by
  have hsend := hst.link side
  have hreceive := hst.receiver side
  cases hclosed : (st.stream side).closed with
  | true =>
      have hread : (st.transport side env).readMessage =
          .error (.io .closedPipe) := by
        simp [LinkedPair.transport, hclosed]
      rw [recvOpened_error hread, SecureStream.close_of_closed hclosed]
      exact hst.put_self side
  | false =>
      obtain ⟨hsame, hhanded, hfrmOut, hbytesOut⟩ :=
        recvOpened_sender (P := P) (st.transport side env) (st.stream side)
      have hstays :=
        (recvOpened_life (P := P) (st.transport side env) (st.stream side)).1.stays
      have hnew : (if (st.stream side).closed then []
          else (SingEwp.recvOpened P (st.transport side env)
            (st.stream side)).2.handed.drop (st.stream side).handed.length) =
          [] := by
        simp [hhanded]
      have hsender : Link P (sendContext keys side) (quits side.peer)
          (SingEwp.recvOpened P (st.transport side env) (st.stream side)).2
          (st.stream side.peer) (st.taken side ++ []) := by
        rw [List.append_nil]
        exact hsend.of_sender_eq hsame hhanded hfrmOut hbytesOut hstays
      cases hunder : st.under side with
      | cons msg rest =>
          obtain ⟨e, hnext, hwire⟩ := LinkedPair.under_cons hunder
          have hread : (st.transport side env).readMessage = .ok e.wire := by
            simp [LinkedPair.transport, hclosed, hunder, hwire]
          obtain ⟨hlink, hopen⟩ := hreceive.receive hclosed hnext hread
          simpa using hst.put hnew hsender hlink hstays
            (fun h => absurd (hopen.symm.trans h) (by simp))
      | nil =>
          have hread : (st.transport side env).readMessage = .error (.io .eof) := by
            simp [LinkedPair.transport, hclosed, hunder]
          have hover : (st.stream side.peer).closed = true := by
            simpa [LinkedPair.Ready, hclosed, hunder] using hready
          have hlink : Link P (sendContext keys side.peer) (quits side)
              (st.stream side.peer) (st.stream side).close
              (st.taken side.peer) :=
            hreceive.close_receiver
              (Or.inr ⟨hover, hreceive.received_le.antisymm
                (LinkedPair.under_nil hunder)⟩)
          rw [recvOpened_error hread] at hsender hstays hnew ⊢
          simpa using hst.put hnew hsender hlink hstays
            (fun _ => Or.inr (Or.inr hover))

theorem close
    (hst : SessionOk P keys quits st) (hquits : quits side) :
    SessionOk P keys quits (st.put side (st.stream side).close) ∧
      ∀ dir, (st.put side (st.stream side).close).taken dir = st.taken dir := by
  have hnew : (if (st.stream side).closed then []
      else (st.stream side).close.handed.drop
        (st.stream side).handed.length) = [] := by
    simp
  have hstats := (st.stream side).close_statistics
  simpa using hst.put hnew
    (by
      rw [List.append_nil]
      exact (hst.link side).of_sender_eq (by simp) (by simp) hstats.1 hstats.2.2.1
        (fun _ => SecureStream.close_closed _))
    ((hst.receiver side).close_receiver (Or.inl hquits))
    (fun _ => SecureStream.close_closed _) (fun _ => Or.inr (Or.inl hquits))

end SessionOk

theorem newLinkedPair_link
    (P : Primitives) (keys : SessionKeys) (quits : Prop) (side : Side) :
    Link P (sendContext keys side) quits (newSecureStream keys side)
      (newSecureStream keys side.peer) [] := by
  have hledger := (newSecureStream_invariant P keys side).1
  cases side <;> exact
    { ledger := hledger
      parses := fun e he => by cases he
      part := List.nil_prefix
      all := fun _ => rfl
      delivered := List.nil_prefix
      events := fun r hr => by cases hr
      context := fun _ => rfl
      frmOut := rfl
      frmIn := rfl
      bytesOut := rfl
      bytesIn := rfl
      ended := fun hclosed => by cases hclosed }

theorem newLinkedPair_ok (P : Primitives) (keys : SessionKeys) (quits : Side → Prop) :
    SessionOk P keys quits (newLinkedPair keys) where
  link := fun side => newLinkedPair_link P keys (quits side.peer) side
  started := by
    intro side hclosed
    cases side with
    | client => cases hclosed
    | server => cases hclosed

end SingEwp
