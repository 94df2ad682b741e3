import SingEwp.Channel
import SingEwp.StreamRuns

/-!
# Integrity of a pair of streams

A client and a server stream built from the same keys, any number of callers on
both sides, and a network that returns whatever it likes from `ReadMessage`.
Each direction refines a first-in, first-out channel of frames: what successful
`Recv` calls return is what the channel has delivered.
-/

namespace SingEwp

def Side.peer : Side → Side
  | .client => .server
  | .server => .client

structure Duplex where
  client : SecureStream
  server : SecureStream

namespace Duplex

def get (d : Duplex) : Side → SecureStream
  | .client => d.client
  | .server => d.server

def put (d : Duplex) (s : SecureStream) : Side → Duplex
  | .client => { d with client := s }
  | .server => { d with server := s }

@[simp] theorem get_put_self (d : Duplex) (s : SecureStream) (side : Side) :
    (d.put s side).get side = s := by
  cases side <;> rfl

@[simp] theorem get_put_peer (d : Duplex) (s : SecureStream) (side : Side) :
    (d.put s side).get side.peer = d.get side.peer := by
  cases side <;> rfl

@[simp] theorem put_get (d : Duplex) (side : Side) :
    d.put (d.get side) side = d := by
  cases side <;> rfl

end Duplex

@[simp] theorem Side.peer_peer (side : Side) : side.peer.peer = side := by
  cases side <;> rfl

inductive DuplexTask where
  | send (side : Side) (call : SendCall)
  | recv (side : Side)
  | close (side : Side)

abbrev DuplexLabel := Side × StreamLabel

def onSide {α : Type} (side : Side) (p : StreamProc α) :
    Proc DuplexLabel StreamEnv Duplex α :=
  Proc.zoom (fun label => (side, label)) (fun d => d.get side)
    (fun s d => d.put s side) p

def DuplexTask.proc (P : Primitives) :
    DuplexTask → Proc DuplexLabel StreamEnv Duplex Unit
  | .send side call =>
      onSide side (do
        let _ ← call.proc P
        pure ())
  | .recv side =>
      onSide side (Proc.atomic .recv (fun env s => ((), (SingEwp.recv P env s).2)))
  | .close side => onSide side (Proc.atomic .close (fun _ s => ((), s.close)))

def duplexPool (P : Primitives) (keys : SessionKeys)
    (tasks : List DuplexTask) : Pool DuplexLabel StreamEnv Duplex Unit where
  shared := ⟨newClientSecureStream keys, newServerSecureStream keys⟩
  threads := tasks.map (DuplexTask.proc P)

/-! ## The ideal cipher -/

/-- The stream sealed exactly this plaintext with this key, nonce and additional
data. -/
def SealedBy (s : SecureStream) (key : AeadKey)
    (nonce : FixedBytes aeadNonceLen) (plain aad : Bytes) : Prop :=
  s.send.key = key ∧ ∃ i e, s.handed[i]? = some e ∧
    s.send.composeNonce (UInt64.ofNat i) = nonce ∧
    e.metaBytes ++ e.payload = plain ∧ e.wire.take frameHeaderSize = aad

/-- No ciphertext inside the delivered message opens unless one of the two
streams sealed it. -/
def Unforged (P : Primitives) (d : Duplex) (side : Side) (msg : Bytes) : Prop :=
  ∀ n plain,
    P.aeadOpen (d.get side).recv.key
        ((d.get side).recv.composeNonce (d.get side).recv.counter)
        ((msg.drop frameHeaderSize).take n) (msg.take frameHeaderSize) =
      some plain →
    ∃ holder, SealedBy (d.get holder) (d.get side).recv.key
      ((d.get side).recv.composeNonce (d.get side).recv.counter) plain
      (msg.take frameHeaderSize)

/-- The assumptions on the outside: pads can be drawn, fewer than `2 ^ 64` frames
have been handed over in each direction, and the cipher is ideal. -/
def NetworkOk (P : Primitives) :
    DuplexLabel → StreamEnv → Duplex → Prop
  | (_, .sendLocked), env, _ => ∀ n, env.pad n ≠ none
  | (side, .recv), env, d =>
      (∀ sender, (d.get sender).handed.length < 2 ^ 64) ∧
        ∀ msg, env.readMessage = .ok msg → Unforged P d side msg
  | _, _, _ => True

/-! ## One direction -/

def SentFrame.content (e : SentFrame) : FrameType × Bytes × Bytes :=
  (e.type, e.metaBytes, e.payload)

def DecodedFrame.content (df : DecodedFrame) : FrameType × Bytes × Bytes :=
  (df.type, df.metaBytes.bytes, df.payload.bytes)

/-- The direction from `x` to `y`, whose contexts start at `f`, implements the
channel `q`. -/
structure Implements (P : Primitives) (f : FrameAEAD) (x y : SecureStream)
    (q : Fifo (FrameType × Bytes × Bytes)) : Prop where
  ledger : Ledger P f x
  sent : x.handed.map SentFrame.content = q.sent
  delivered : y.received.map (fun r => r.frame.content) = q.delivered
  events : ∀ r ∈ y.received, eventOf r.frame = .ok r.event
  context : y.closed = false → y.recv = f.seek q.taken

namespace Implements

variable {P : Primitives} {f : FrameAEAD} {x y : SecureStream}
variable {q : Fifo (FrameType × Bytes × Bytes)}

theorem of_sender_eq
    (himpl : Implements P f x y q) {x' : SecureStream}
    (hsend : x'.send = x.send) (hhanded : x'.handed = x.handed) :
    Implements P f x' y q where
  ledger := himpl.ledger.of_eq hsend hhanded
  sent := by rw [hhanded, himpl.sent]
  delivered := himpl.delivered
  events := himpl.events
  context := himpl.context

theorem of_receiver_eq
    (himpl : Implements P f x y q) {y' : SecureStream}
    (hreceived : y'.received = y.received)
    (hopen : y'.closed = false → y.closed = false ∧ y'.recv = y.recv) :
    Implements P f x y' q where
  ledger := himpl.ledger
  sent := himpl.sent
  delivered := by rw [hreceived, himpl.delivered]
  events := by
    rw [hreceived]
    exact himpl.events
  context := by
    intro h
    rw [(hopen h).2, himpl.context (hopen h).1]

theorem send
    (himpl : Implements P f x y q) (t : FrameType) (metaBytes payload : Bytes)
    (padLen : ℤ) (env : StreamEnv) :
    ∃ q', Implements P f
      (sendFrameLocked P t metaBytes payload padLen env x).2 y q' := by
  obtain ⟨new, hnew, _⟩ :=
    sendFrameLocked_handed P t metaBytes payload padLen env x
  refine ⟨q.push (new.map SentFrame.content), ?_⟩
  exact
    { ledger := sendFrameLocked_ledger himpl.ledger _ _ _ _ _
      sent := by
        rw [hnew, List.map_append, himpl.sent]
        rfl
      delivered := by rw [himpl.delivered, Fifo.delivered_push]
      events := himpl.events
      context := himpl.context }

theorem next_content
    (himpl : Implements P f x y q) (hopen : y.closed = false)
    (hlen : x.handed.length < 2 ^ 64) {msg : Bytes}
    (hsealed : ∀ n plain,
      P.aeadOpen y.recv.key (y.recv.composeNonce y.recv.counter)
          ((msg.drop frameHeaderSize).take n) (msg.take frameHeaderSize) =
        some plain →
      SealedBy x y.recv.key (y.recv.composeNonce y.recv.counter) plain
        (msg.take frameHeaderSize))
    {df : DecodedFrame} {recv' : FrameAEAD} {rest : Bytes}
    (hdec : decodeFrame P msg y.recv = (.ok (df, recv'), rest)) :
    ∃ h : q.taken < q.sent.length, df.content = q.sent[q.taken] := by
  obtain ⟨_, plain, hplain, hdf, _⟩ := openFrame_ok (decodeFrame_ok hdec).2
  obtain ⟨_, i, e, he, hnonce, hmessage, haad⟩ := hsealed _ plain hplain
  have hcontext := himpl.context hopen
  have hsentLen : q.sent.length = x.handed.length := by
    rw [← himpl.sent, List.length_map]
  have htaken := q.taken_le
  have hi : i < x.handed.length := (List.getElem?_eq_some_iff.mp he).1
  -- the nonce holds the counter, and no counter has come round again
  have hindex : i = q.taken := by
    rw [himpl.ledger.context, hcontext] at hnonce
    have hcounter := FrameAEAD.composeNonce_inj hnonce
    have hnat := congrArg UInt64.toNat hcounter
    rw [FrameAEAD.seek, UInt64.toNat_ofNat_of_lt' (lt_trans hi hlen),
      UInt64.toNat_ofNat_of_lt' (by simp [UInt64.size]; omega)] at hnat
    exact hnat
  subst hindex
  obtain ⟨fr, hfr⟩ := himpl.ledger.frames _ e he
  have hhdr : msg.take frameHeaderSize = fr.header (f.seek q.taken).counter := by
    rw [← haad, hfr.wire, Frame.wire, List.take_left' (fr.header_length _)]
  have hnext : q.sent[q.taken]? = some e.content := by
    rw [← himpl.sent, List.getElem?_map, he]
    rfl
  obtain ⟨hbound, hget⟩ := List.getElem?_eq_some_iff.mp hnext
  refine ⟨hbound, ?_⟩
  rw [hget, hdf, hhdr]
  simp only [DecodedFrame.content, SentFrame.content, Frame.hdrType_header,
    Frame.hdrMetaLen_header, appendToNil_bytes, ← hmessage, hfr.type,
    hfr.metaBytes]
  simp

theorem receive
    (himpl : Implements P f x y q) (hlen : x.handed.length < 2 ^ 64)
    {env : StreamEnv}
    (hsealed : ∀ msg, env.readMessage = .ok msg → y.closed = false →
      ∀ n plain,
        P.aeadOpen y.recv.key (y.recv.composeNonce y.recv.counter)
            ((msg.drop frameHeaderSize).take n) (msg.take frameHeaderSize) =
          some plain →
        SealedBy x y.recv.key (y.recv.composeNonce y.recv.counter) plain
          (msg.take frameHeaderSize)) :
    ∃ q', Implements P f x (recv P env y).2 q' := by
  have hstep := recv_step P env y
  generalize recv P env y = r at hstep ⊢
  cases hstep with
  | refused hclosed => exact ⟨q, himpl⟩
  | failed e hclosed =>
      exact ⟨q, himpl.of_receiver_eq (by simp) (by simp)⟩
  | malformed e hclosed wire recv' =>
      exact ⟨q, himpl.of_receiver_eq
        (by rw [SecureStream.close_received]; rfl) (by simp)⟩
  | received hclosed wire rest df ev recv' hread hdec hev =>
      obtain ⟨hbound, hcontent⟩ := himpl.next_content hclosed hlen
        (hsealed wire hread hclosed) hdec
      obtain ⟨_, _, _, _, hrecv⟩ := openFrame_ok (decodeFrame_ok hdec).2
      refine ⟨q.pop hbound, ?_⟩
      exact
        { ledger := himpl.ledger
          sent := himpl.sent
          delivered := by
            rw [Fifo.delivered_pop, ← himpl.delivered, ← hcontent]
            simp
          events := by
            intro r hr
            rcases List.mem_append.mp hr with hold | hnew
            · exact himpl.events r hold
            · rw [List.mem_singleton.mp hnew]
              exact hev
          context := by
            intro _
            rw [himpl.context hclosed] at hrecv
            change recv' = _
            rw [hrecv, FrameAEAD.seek_succ]
            rfl }

end Implements

/-! ## Both directions -/

def sendContext (keys : SessionKeys) (side : Side) : FrameAEAD :=
  (newSecureStream keys side).send

/-- Each direction implements some channel. -/
def DuplexOk (P : Primitives) (keys : SessionKeys) (d : Duplex) : Prop :=
  ∀ side, ∃ q, Implements P (sendContext keys side) (d.get side)
    (d.get side.peer) q

theorem sendContext_key_ne
    {keys : SessionKeys} (hkeys : keys.c2sKey ≠ keys.s2cKey) (side : Side) :
    (sendContext keys side).key ≠ (sendContext keys side.peer).key := by
  cases side with
  | client => exact hkeys
  | server => exact hkeys.symm

theorem Side.eq_or_eq_peer (side other : Side) :
    other = side ∨ other = side.peer := by
  cases side <;> cases other <;> simp [Side.peer]

/-- What an action does to one side's stream, as sender and as receiver, decides
both directions. -/
theorem DuplexOk.put
    {P : Primitives} {keys : SessionKeys} {d : Duplex} {s : SecureStream}
    {side : Side}
    (hsender : ∃ q, Implements P (sendContext keys side) s
      (d.get side.peer) q)
    (hreceiver : ∃ q, Implements P (sendContext keys side.peer)
      (d.get side.peer) s q) :
    DuplexOk P keys (d.put s side) := by
  intro other
  rcases Side.eq_or_eq_peer side other with rfl | rfl
  · simpa using hsender
  · simpa using hreceiver

section Steps

variable {P : Primitives} {keys : SessionKeys} {d : Duplex}
variable (hd : DuplexOk P keys d) (side : Side)

include hd

theorem DuplexOk.receiver :
    ∃ q, Implements P (sendContext keys side.peer) (d.get side.peer)
      (d.get side) q := by
  simpa using hd side.peer

theorem DuplexOk.sendLocked
    (t : FrameType) (metaBytes payload : Bytes) (padLen : ℤ) (env : StreamEnv) :
    DuplexOk P keys (d.put
      (sendFrameLocked P t metaBytes payload padLen env (d.get side)).2
      side) := by
  obtain ⟨q, hq⟩ := hd side
  obtain ⟨q', hq'⟩ := hd.receiver side
  obtain ⟨hreceived, hrecv, hopen⟩ :=
    sendFrameLocked_receiver P t metaBytes payload padLen env (d.get side)
  exact DuplexOk.put (hq.send t metaBytes payload padLen env)
    ⟨q', hq'.of_receiver_eq hreceived (fun h => ⟨hopen h, hrecv⟩)⟩

theorem DuplexOk.close : DuplexOk P keys (d.put (d.get side).close side) := by
  obtain ⟨q, hq⟩ := hd side
  obtain ⟨q', hq'⟩ := hd.receiver side
  exact DuplexOk.put ⟨q, hq.of_sender_eq (by simp) (by simp)⟩
    ⟨q', hq'.of_receiver_eq (by simp) (by simp)⟩

/-- Reflected frames are sealed under the other key, so an ideal cipher leaves
only the peer's. -/
theorem DuplexOk.sealed_by_peer
    (hkeys : keys.c2sKey ≠ keys.s2cKey) {msg : Bytes}
    (hopen : (d.get side).closed = false) (hunforged : Unforged P d side msg)
    (n : ℕ) (plain : Bytes)
    (hplain : P.aeadOpen (d.get side).recv.key
        ((d.get side).recv.composeNonce (d.get side).recv.counter)
        ((msg.drop frameHeaderSize).take n) (msg.take frameHeaderSize) =
      some plain) :
    SealedBy (d.get side.peer) (d.get side).recv.key
      ((d.get side).recv.composeNonce (d.get side).recv.counter) plain
      (msg.take frameHeaderSize) := by
  obtain ⟨q, hq⟩ := hd side
  obtain ⟨q', hq'⟩ := hd.receiver side
  obtain ⟨holder, hsealed⟩ := hunforged n plain hplain
  rcases Side.eq_or_eq_peer side holder with rfl | rfl
  · have hkey := hsealed.1
    rw [hq.ledger.context, hq'.context hopen] at hkey
    exact absurd hkey (sendContext_key_ne hkeys holder)
  · exact hsealed

theorem DuplexOk.recv
    (hkeys : keys.c2sKey ≠ keys.s2cKey) {env : StreamEnv}
    (hok : NetworkOk P (side, .recv) env d) :
    DuplexOk P keys (d.put (SingEwp.recv P env (d.get side)).2 side) := by
  obtain ⟨q, hq⟩ := hd side
  obtain ⟨q', hq'⟩ := hd.receiver side
  obtain ⟨hsend, hhanded⟩ := recv_send_handed P env (d.get side)
  apply DuplexOk.put ⟨q, hq.of_sender_eq hsend hhanded⟩
  apply hq'.receive (hok.1 side.peer)
  intro msg hread hopen
  exact hd.sealed_by_peer side hkeys hopen (hok.2 msg hread)

end Steps

inductive DuplexAction (P : Primitives) :
    DuplexLabel → (StreamEnv → Duplex → Duplex) → Prop where
  | on (side : Side) (label : StreamLabel)
      (update : StreamEnv → SecureStream → SecureStream)
      (haction : StreamAction P label update) :
      DuplexAction P (side, label)
        (fun env d => d.put (update env (d.get side)) side)

theorem onSide_acts
    {P : Primitives} {α : Type} {p : StreamProc α}
    (hacts : Proc.Acts (StreamAction P) p) (side : Side) :
    Proc.Acts (DuplexAction P) (onSide side p) := by
  apply (hacts.zoom _ _ _).mono
  rintro _ _ ⟨label, update, haction, rfl, rfl⟩
  exact DuplexAction.on side label update haction

theorem DuplexTask.acts (P : Primitives) (task : DuplexTask) :
    Proc.Acts (DuplexAction P) (task.proc P) := by
  cases task with
  | send side call =>
      apply onSide_acts
      exact Proc.Acts.bind (call.acts P) (fun _ => trivial)
  | recv side => exact onSide_acts (Proc.Acts.atomic StreamAction.recv) side
  | close side => exact onSide_acts (Proc.Acts.atomic StreamAction.close) side

theorem DuplexAction.keeps
    {P : Primitives} {keys : SessionKeys} (hkeys : keys.c2sKey ≠ keys.s2cKey)
    (label : DuplexLabel) (update : StreamEnv → Duplex → Duplex)
    (haction : DuplexAction P label update) (env : StreamEnv) (d : Duplex)
    (hd : DuplexOk P keys d) (hok : NetworkOk P label env d) :
    DuplexOk P keys (update env d) := by
  cases haction with
  | on side label update haction =>
      cases haction with
      | closedTest => simpa using hd
      | chunkDraw => simpa using hd
      | sendLocked t metaBytes payload padLen =>
          exact hd.sendLocked side t metaBytes payload padLen env
      | recv => exact hd.recv side hkeys hok
      | close => exact hd.close side

theorem duplexPool_init (P : Primitives) (keys : SessionKeys) :
    DuplexOk P keys ⟨newClientSecureStream keys, newServerSecureStream keys⟩ := by
  intro side
  refine ⟨Fifo.empty, ?_⟩
  cases side with
  | client =>
      exact
        { ledger := (newSecureStream_invariant P keys .client).1
          sent := rfl
          delivered := rfl
          events := by simp [Duplex.get, Side.peer, newServerSecureStream]
          context := fun _ => rfl }
  | server =>
      exact
        { ledger := (newSecureStream_invariant P keys .server).1
          sent := rfl
          delivered := rfl
          events := by simp [Duplex.get, Side.peer, newClientSecureStream]
          context := fun _ => rfl }

/-- An event has the type and the payload of its frame. -/
theorem eventOf_content
    {df : DecodedFrame} {ev : Event} (hevent : eventOf df = .ok ev) :
    ev.type = df.type ∧ ev.payload = df.payload := by
  unfold eventOf at hevent
  split at hevent
  · cases hparse : parseUDPMeta df.metaBytes.bytes with
    | error e => simp [hparse] at hevent
    | ok parsed =>
        simp only [hparse, Except.ok.injEq] at hevent
        subst hevent
        exact ⟨rfl, rfl⟩
  split at hevent
  · split at hevent
    · cases hevent
    · cases hevent
      exact ⟨rfl, rfl⟩
  split at hevent
  · cases hevent
    exact ⟨rfl, rfl⟩
  · cases hevent

/-- Whatever the network does, each side receives a prefix of what the other
handed over, frame by frame, as events of the same type and payload. -/
theorem stream_integrity
    (P : Primitives) (keys : SessionKeys) (hkeys : keys.c2sKey ≠ keys.s2cKey)
    (tasks : List DuplexTask) (schedule : List (ℕ × StreamEnv))
    (hok : (duplexPool P keys tasks).Admits (NetworkOk P) schedule)
    (side : Side) :
    (((duplexPool P keys tasks).run schedule).shared.get side).received.map
          (fun r => r.frame.content) <+:
        (((duplexPool P keys tasks).run schedule).shared.get
          side.peer).handed.map SentFrame.content ∧
      ∀ r ∈ (((duplexPool P keys tasks).run schedule).shared.get side).received,
        eventOf r.frame = .ok r.event ∧ r.event.type = r.frame.type ∧
          r.event.payload = r.frame.payload := by
  have hthreads : ∀ p ∈ (duplexPool P keys tasks).threads,
      Proc.Acts (DuplexAction P) p := by
    intro p hp
    obtain ⟨task, _, rfl⟩ := List.mem_map.mp hp
    exact task.acts P
  have hrun := Pool.run_invariant hthreads (DuplexAction.keeps hkeys) hok
    (duplexPool_init P keys)
  obtain ⟨q, hq⟩ := hrun.receiver side
  rw [hq.sent, hq.delivered]
  exact ⟨q.delivered_isPrefix, fun r hr =>
    ⟨hq.events r hr, eventOf_content (hq.events r hr)⟩⟩

/-! ## A transparent exchange -/

namespace Transparent

def coverFrame : Frame :=
  ⟨framePaddingOnly, [], [], [], framePaddingOnly_valid, Nat.zero_le _,
    Nat.zero_le _, by decide⟩

def coverWire : Bytes := coverFrame.wire suite (sendContext keys .client)

def coverTasks : List DuplexTask := [.send .client (.coverPad 0), .recv .server]

def coverSchedule : List (ℕ × StreamEnv) :=
  [(0, streamEnv (.error (.io .eof))), (0, streamEnv (.error (.io .eof))),
    (1, streamEnv (.ok coverWire))]

theorem networkOk_of_unforged
    {d : Duplex} {readMessage : Except EwpError Bytes}
    (hlen : ∀ sender, (d.get sender).handed.length < 2 ^ 64)
    (hunforged : ∀ side msg, readMessage = .ok msg → Unforged suite d side msg)
    (label : DuplexLabel) :
    NetworkOk suite label (streamEnv readMessage) d := by
  obtain ⟨side, label⟩ := label
  cases label with
  | sendLocked => simp [NetworkOk, streamEnv]
  | recv => exact ⟨hlen, hunforged side⟩
  | closedTest => trivial
  | chunkDraw => trivial
  | close => trivial

def coverSent : Duplex where
  client :=
    { newClientSecureStream keys with
      send := (sendContext keys .client).seek 1
      sendBufCap := 33
      bytesOut := 33
      frmOut := 1
      handed := [⟨framePaddingOnly, [], [], coverWire⟩] }
  server := newServerSecureStream keys

theorem coverWire_unforged (side : Side) :
    Unforged suite coverSent side coverWire := by
  intro n plain hplain
  have hlen : (coverWire.drop frameHeaderSize).length = 16 := by decide
  rcases lt_or_ge n 16 with hshort | hlong
  · have hnone : ∀ n < 16, ∀ side,
        suite.aeadOpen (coverSent.get side).recv.key
          ((coverSent.get side).recv.composeNonce
            (coverSent.get side).recv.counter)
          ((coverWire.drop frameHeaderSize).take n)
          (coverWire.take frameHeaderSize) = none := by
      intro n hn side
      cases side <;> interval_cases n <;> decide
    rw [hnone n hshort side] at hplain
    simp at hplain
  · rw [List.take_of_length_le (by rw [hlen]; exact hlong)] at hplain
    cases side with
    | client =>
        have hnone : suite.aeadOpen (coverSent.get .client).recv.key
            ((coverSent.get .client).recv.composeNonce
              (coverSent.get .client).recv.counter)
            (coverWire.drop frameHeaderSize)
            (coverWire.take frameHeaderSize) = none := by decide
        rw [hnone] at hplain
        simp at hplain
    | server =>
        have hsome : suite.aeadOpen (coverSent.get .server).recv.key
            ((coverSent.get .server).recv.composeNonce
              (coverSent.get .server).recv.counter)
            (coverWire.drop frameHeaderSize)
            (coverWire.take frameHeaderSize) = some [] := by decide
        rw [hsome, Option.some.injEq] at hplain
        exact ⟨.client, rfl, 0, ⟨framePaddingOnly, [], [], coverWire⟩, rfl, rfl,
          hplain, rfl⟩

theorem coverSchedule_admitted :
    (duplexPool suite keys coverTasks).Admits (NetworkOk suite)
      coverSchedule := by
  refine ⟨?_, ?_, ?_, trivial⟩
  · intro label _ _ _
    exact networkOk_of_unforged (by rintro (_ | _) <;> decide) (by simp) label
  · intro label _ _ _
    exact networkOk_of_unforged (by rintro (_ | _) <;> decide) (by simp) label
  · intro label _ _ _
    have hshared : (((duplexPool suite keys coverTasks).step
        (0, streamEnv (.error (.io .eof)))).step
        (0, streamEnv (.error (.io .eof)))).shared = coverSent := by
      rfl
    rw [hshared]
    apply networkOk_of_unforged (by rintro (_ | _) <;> decide)
    intro side msg hmsg
    rw [← Except.ok.inj hmsg]
    exact coverWire_unforged side

end Transparent

theorem stream_integrity_cover :
    (((duplexPool Transparent.suite Transparent.keys Transparent.coverTasks).run
        Transparent.coverSchedule).shared.get .server).received.length = 1 ∧
      (((duplexPool Transparent.suite Transparent.keys
          Transparent.coverTasks).run Transparent.coverSchedule).shared.get
          .server).received.map (fun r => r.frame.content) <+:
        (((duplexPool Transparent.suite Transparent.keys
          Transparent.coverTasks).run Transparent.coverSchedule).shared.get
          .client).handed.map SentFrame.content :=
  ⟨by decide,
    (stream_integrity Transparent.suite Transparent.keys (by decide)
      Transparent.coverTasks Transparent.coverSchedule
      Transparent.coverSchedule_admitted .server).1⟩

end SingEwp
