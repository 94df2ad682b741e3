import SingEwp.PacketConn

/-!
# UDP datagrams end to end

The frames that a sequence of successful writes hands over, and what the other
side's `ReadFrom` makes of them.  The first write of a client travels inside
`UDP_NEW` and takes the destination of the whole sub-session instead of its own;
the server keeps its payload in `pendingFirst`, where an empty payload is the
same as none.
-/

namespace SingEwp

/-! ## Frames handed over -/

/-- A log entry is a datagram of the sub-session `globalID`. -/
structure SentFrame.CarriesDatagram (e : SentFrame) (globalID : GlobalID)
    (t : FrameType) (target : Address) (payload : Bytes) : Prop where
  type : e.type = t
  metaBytes : buildUDPMeta globalID target = .ok e.metaBytes
  payload : e.payload = payload

/-- One frame has gone out between two states of a stream. -/
structure HandedDatagram (P : Primitives) (s s' : SecureStream)
    (globalID : GlobalID) (t : FrameType) (target : Address) (payload : Bytes) :
    Prop where
  frame : ∃ e : SentFrame, e.CarriesDatagram globalID t target payload ∧
    s'.handed = s.handed ++ [e]
  ledger : ∀ f, Ledger P f s → Ledger P f s'
  recv : s'.recv = s.recv
  closed : s'.closed = s.closed

theorem sendFrameLocked_ok
    {P : Primitives} {t : FrameType} {metaBytes payload : Bytes} {padLen : ℤ}
    {env : StreamEnv} {s s' : SecureStream}
    (hlocked : sendFrameLocked P t metaBytes payload padLen env s =
      (.ok (), s')) :
    ∃ fr : Frame, fr.type = t ∧ fr.metaBytes = metaBytes ∧
      fr.payload = payload ∧
      s'.handed = s.handed ++ [⟨t, metaBytes, payload, fr.wire P s.send⟩] ∧
      s'.closed = s.closed := by
  have hstep := sendFrameLocked_step P t metaBytes payload padLen env s
  rw [hlocked] at hstep
  generalize hr : ((Outcome.ok () : Outcome EwpError Unit), s') = r at hstep
  cases hstep with
  | kept outcome cap failed =>
      obtain ⟨rfl, _⟩ := Prod.mk.inj hr
      exact absurd rfl (SendStep.ne_ok_of_failed failed)
  | taken cap fr htype hmeta hpayload hsend =>
      obtain ⟨_, rfl⟩ := Prod.mk.inj hr
      subst htype hmeta hpayload
      exact ⟨fr, rfl, rfl, rfl, rfl, rfl⟩
  | refused cap fr htype hmeta hpayload e hsend => simp at hr

/-- A successful call has built its meta and sent one frame with it. -/
theorem sendAddressed_locked
    {P : Primitives} {t : FrameType} {globalID : GlobalID} {target : Address}
    {payload : Bytes} {supply supply' : ℕ → StreamEnv} {s s' : SecureStream}
    (hexec : (sendAddressed P t globalID target payload).exec supply s =
      (.ok (), s', supply')) :
    ∃ metaBytes env, buildUDPMeta globalID target = .ok metaBytes ∧
      sendFrameLocked P t metaBytes payload (-1) env s = (.ok (), s') := by
  unfold sendAddressed at hexec
  cases hbuild : buildUDPMeta globalID target with
  | error e => simp [hbuild] at hexec
  | ok metaBytes =>
      simp only [hbuild] at hexec
      obtain ⟨env, hlocked⟩ := sendFrame_exec_ok hexec
      exact ⟨metaBytes, env, rfl, hlocked⟩

theorem sendAddressed_exec_ok
    {P : Primitives} {t : FrameType} {globalID : GlobalID} {target : Address}
    {payload : Bytes} {supply supply' : ℕ → StreamEnv} {s s' : SecureStream}
    (hexec : (sendAddressed P t globalID target payload).exec supply s =
      (.ok (), s', supply')) :
    HandedDatagram P s s' globalID t target payload := by
  obtain ⟨metaBytes, env, hbuild, hlocked⟩ := sendAddressed_locked hexec
  obtain ⟨_, _, _, _, hhanded, hclosed⟩ := sendFrameLocked_ok hlocked
  have hreceiver :=
    (sendFrameLocked_receiver P t metaBytes payload (-1) env s).2.1
  rw [hlocked] at hreceiver
  refine ⟨⟨_, ⟨rfl, hbuild, rfl⟩, hhanded⟩, ?_, hreceiver, hclosed⟩
  intro f hledger
  have hnext := sendFrameLocked_ledger hledger t metaBytes payload (-1) env
  rw [hlocked] at hnext
  exact hnext

/-- A successful write: which frame goes out depends on whether the sub-session
is open. -/
structure WroteDatagram (P : Primitives) (p p' : PacketConn) (t : FrameType)
    (target : Address) (b : Bytes) : Prop where
  handed : HandedDatagram P p.stream p'.stream p.globalID t target b
  globalID : p'.globalID = p.globalID
  isServer : p'.isServer = p.isServer
  pendingFirst : p'.pendingFirst = p.pendingFirst
  opened : p.isServer = true ∨ p'.opened = true

theorem ensureOpenLocked_ok
    {P : Primitives} {b : Bytes} {env : StreamEnv} {p p' : PacketConn}
    (hnew : p.opened = false)
    (hlocked : ensureOpenLocked P b env p = (.ok (), p')) :
    WroteDatagram P p p' frameUDPNew p.defaultDst b := by
  unfold ensureOpenLocked at hlocked
  rw [hnew] at hlocked
  simp only [Bool.false_eq_true, if_false] at hlocked
  generalize hexec : (sendUDPNew P p.globalID p.defaultDst b).exec (fun _ => env)
    p.stream = r at hlocked
  obtain ⟨outcome, s', supply'⟩ := r
  cases outcome with
  | ok value =>
      obtain ⟨_, rfl⟩ := Prod.mk.inj hlocked
      exact ⟨sendAddressed_exec_ok hexec, rfl, rfl, rfl, Or.inr rfl⟩
  | error e => simp at hlocked
  | panic => simp at hlocked

theorem onStream_exec
    {α : Type} (q : StreamProc α) (supply : ℕ → StreamEnv) (p : PacketConn) :
    (onStream q).exec supply p =
      ((q.exec supply p.stream).1, p.setStream (q.exec supply p.stream).2.1,
        (q.exec supply p.stream).2.2) := by
  unfold onStream
  apply Proc.exec_zoom
  · exact fun _ _ => rfl
  · exact fun _ _ _ => rfl
  · exact fun _ => rfl

theorem writeToAddress_first
    {P : Primitives} {b : Bytes} {target : Address} {count : ℕ}
    {supply supply' : ℕ → StreamEnv} {p p' : PacketConn}
    (hclient : p.isServer = false) (hnew : p.opened = false)
    (hexec : (writeToAddress P b target).exec supply p =
      ((count, .ok ()), p', supply')) :
    WroteDatagram P p p' frameUDPNew p.defaultDst b := by
  rw [writeToAddress, Proc.bind_eq, Proc.exec_bind, Proc.exec_observe, hclient,
    hnew] at hexec
  simp only [Bool.not_false, Bool.and_self, if_true, Proc.bind_eq,
    Proc.exec_bind, Proc.exec_atomic] at hexec
  generalize hlocked : ensureOpenLocked P b (supply (0 + 1)) p = r at hexec
  obtain ⟨outcome, q⟩ := r
  cases outcome with
  | ok value =>
      simp only [Proc.pure_eq, Proc.exec_ret, Prod.mk.injEq] at hexec
      rw [hexec.2.1] at hlocked
      exact ensureOpenLocked_ok hnew hlocked
  | error e => simp at hexec
  | panic => simp at hexec

theorem writeToAddress_data
    {P : Primitives} {b : Bytes} {target : Address} {count : ℕ}
    {supply supply' : ℕ → StreamEnv} {p p' : PacketConn}
    (hopened : p.isServer = true ∨ p.opened = true)
    (hexec : (writeToAddress P b target).exec supply p =
      ((count, .ok ()), p', supply')) :
    WroteDatagram P p p' frameUDPData target b := by
  have htest : (!p.isServer && !p.opened) = false := by
    rcases hopened with h | h <;> simp [h]
  rw [writeToAddress, Proc.bind_eq, Proc.exec_bind, Proc.exec_observe, htest]
    at hexec
  simp only [Bool.false_eq_true, if_false, Proc.bind_eq, Proc.exec_bind,
    onStream_exec] at hexec
  generalize hsend : (sendUDPData P p.globalID target b).exec
    (fun k => supply (k + 1)) p.stream = r at hexec
  obtain ⟨outcome, s', rest⟩ := r
  cases outcome with
  | ok value =>
      simp only [Proc.pure_eq, Proc.exec_ret, Prod.mk.injEq] at hexec
      rw [← hexec.2.1]
      exact ⟨sendAddressed_exec_ok hsend, rfl, rfl, rfl, hopened⟩
  | error e => simp at hexec
  | panic => simp at hexec

/-! ## Sequences of writes -/

def writeDatagrams (P : Primitives) :
    List (Bytes × Address) → PacketProc (List (ℕ × Outcome EwpError Unit))
  | [] => pure []
  | w :: ws => do
      let result ← writeToAddress P w.1 w.2
      let results ← writeDatagrams P ws
      pure (result :: results)

def allWritten (ws : List (Bytes × Address)) :
    List (ℕ × Outcome EwpError Unit) :=
  ws.map (fun w => (w.1.length, .ok ()))

theorem writeDatagrams_cons_ok
    {P : Primitives} {w : Bytes × Address} {ws : List (Bytes × Address)}
    {supply : ℕ → StreamEnv} {p : PacketConn}
    (hall : ((writeDatagrams P (w :: ws)).exec supply p).1 =
      allWritten (w :: ws)) :
    ∃ p' supply', (writeToAddress P w.1 w.2).exec supply p =
        ((w.1.length, .ok ()), p', supply') ∧
      ((writeDatagrams P ws).exec supply' p').1 = allWritten ws ∧
      ((writeDatagrams P (w :: ws)).exec supply p).2.1 =
        ((writeDatagrams P ws).exec supply' p').2.1 := by
  simp only [writeDatagrams, Proc.bind_eq, Proc.exec_bind, Proc.pure_eq,
    Proc.exec_ret] at hall ⊢
  generalize (writeToAddress P w.1 w.2).exec supply p = first at hall ⊢
  obtain ⟨result, p', supply'⟩ := first
  simp only [allWritten, List.map_cons, List.cons.injEq] at hall
  exact ⟨p', supply', by rw [hall.1], hall.2, rfl⟩

/-- The frames of the writes, between two states of a stream. -/
structure HandedAll (P : Primitives) (globalID : GlobalID) (s s' : SecureStream)
    (expected : List (FrameType × Address × Bytes)) : Prop where
  frames : ∃ log : List SentFrame, s'.handed = s.handed ++ log ∧
    List.Forall₂
      (fun e w => SentFrame.CarriesDatagram e globalID w.1 w.2.1 w.2.2) log
      expected
  ledger : ∀ f, Ledger P f s → Ledger P f s'
  recv : s'.recv = s.recv
  closed : s'.closed = s.closed

theorem HandedAll.nil
    (P : Primitives) (globalID : GlobalID) (s : SecureStream) :
    HandedAll P globalID s s [] :=
  ⟨⟨[], by simp, .nil⟩, fun _ hledger => hledger, rfl, rfl⟩

theorem HandedAll.cons
    {P : Primitives} {globalID : GlobalID} {s s' s'' : SecureStream}
    {t : FrameType} {target : Address} {b : Bytes}
    {expected : List (FrameType × Address × Bytes)}
    (hfirst : HandedDatagram P s s' globalID t target b)
    (hrest : HandedAll P globalID s' s'' expected) :
    HandedAll P globalID s s'' ((t, target, b) :: expected) where
  frames := by
    obtain ⟨e, he, hhanded⟩ := hfirst.frame
    obtain ⟨log, hlog, hall⟩ := hrest.frames
    exact ⟨e :: log, by rw [hlog, hhanded]; simp, .cons he hall⟩
  ledger := fun f hledger => hrest.ledger f (hfirst.ledger f hledger)
  recv := hrest.recv.trans hfirst.recv
  closed := hrest.closed.trans hfirst.closed

def dataFrames (ws : List (Bytes × Address)) :
    List (FrameType × Address × Bytes) :=
  ws.map (fun w => (frameUDPData, w.2, w.1))

/-- The frames of a client's writes: the first opens the sub-session. -/
def clientFrames (dst : Address) :
    List (Bytes × Address) → List (FrameType × Address × Bytes)
  | [] => []
  | w :: ws => (frameUDPNew, dst, w.1) :: dataFrames ws

theorem writeDatagrams_data
    {P : Primitives} {ws : List (Bytes × Address)} {supply : ℕ → StreamEnv}
    {p : PacketConn} (hopened : p.isServer = true ∨ p.opened = true)
    (hall : ((writeDatagrams P ws).exec supply p).1 = allWritten ws) :
    HandedAll P p.globalID p.stream
      ((writeDatagrams P ws).exec supply p).2.1.stream (dataFrames ws) ∧
    ((writeDatagrams P ws).exec supply p).2.1.globalID = p.globalID ∧
    ((writeDatagrams P ws).exec supply p).2.1.pendingFirst = p.pendingFirst := by
  induction ws generalizing supply p with
  | nil => exact ⟨HandedAll.nil P _ _, rfl, rfl⟩
  | cons w ws ih =>
      obtain ⟨p', supply', hfirst, hrest, hlast⟩ := writeDatagrams_cons_ok hall
      have hwrote := writeToAddress_data hopened hfirst
      have hopened' : p'.isServer = true ∨ p'.opened = true := by
        rw [hwrote.isServer]
        exact hwrote.opened
      obtain ⟨htail, hid, hpending⟩ := ih hopened' hrest
      rw [hlast]
      rw [hwrote.globalID] at htail hid
      exact ⟨HandedAll.cons hwrote.handed htail, hid,
        hpending.trans hwrote.pendingFirst⟩

theorem writeDatagrams_client
    {P : Primitives} {ws : List (Bytes × Address)} {supply : ℕ → StreamEnv}
    {p : PacketConn} (hclient : p.isServer = false) (hnew : p.opened = false)
    (hall : ((writeDatagrams P ws).exec supply p).1 = allWritten ws) :
    HandedAll P p.globalID p.stream
      ((writeDatagrams P ws).exec supply p).2.1.stream
      (clientFrames p.defaultDst ws) ∧
    ((writeDatagrams P ws).exec supply p).2.1.globalID = p.globalID ∧
    ((writeDatagrams P ws).exec supply p).2.1.pendingFirst = p.pendingFirst := by
  cases ws with
  | nil => exact ⟨HandedAll.nil P _ _, rfl, rfl⟩
  | cons w ws =>
      obtain ⟨p', supply', hfirst, hrest, hlast⟩ := writeDatagrams_cons_ok hall
      have hwrote := writeToAddress_first hclient hnew hfirst
      have hopened : p'.opened = true := by
        rcases hwrote.opened with hserver | hopened
        · rw [hclient] at hserver
          simp at hserver
        · exact hopened
      obtain ⟨htail, hid, hpending⟩ :=
        writeDatagrams_data (Or.inr hopened) hrest
      rw [hlast]
      rw [hwrote.globalID] at htail hid
      exact ⟨HandedAll.cons hwrote.handed htail, hid,
        hpending.trans hwrote.pendingFirst⟩

/-! ## Datagrams read -/

theorem buildUDPMeta_encodable
    {globalID : GlobalID} {target : Address} {metaBytes : Bytes}
    (hvalid : target.Encodable)
    (hbuild : buildUDPMeta globalID target = .ok metaBytes) :
    ∃ e, target.append [] = .ok e ∧ e ≠ [] ∧ metaBytes = globalID.val ++ e := by
  obtain ⟨e, happ⟩ := (Address.append_ok_iff target).mpr hvalid
  have hlen := Address.append_length happ
  have hcarried : (target.isDomain || target.addr.isValid) = true := by
    rcases hvalid with ⟨hdom, _⟩ | ⟨_, hip⟩
    · simp [hdom]
    · simp [hip]
  have hne : e ≠ [] := by
    intro hnil
    rw [hnil, Address.encodedLen] at hlen
    split at hlen
    · simp at hlen
    · split at hlen <;> simp at hlen
  unfold buildUDPMeta at hbuild
  rw [if_pos hcarried, Address.append_eq_map, happ] at hbuild
  simp only [Except.map] at hbuild
  split at hbuild
  · simp at hbuild
  · exact ⟨e, happ, hne, (Except.ok.inj hbuild).symm⟩

theorem parseUDPMeta_buildUDPMeta
    {globalID : GlobalID} {target : Address} {metaBytes : Bytes}
    (hvalid : target.Encodable)
    (hbuild : buildUDPMeta globalID target = .ok metaBytes) :
    parseUDPMeta metaBytes = .ok (globalID, some target.wireNorm) := by
  obtain ⟨e, happ, hne, rfl⟩ := buildUDPMeta_encodable hvalid hbuild
  have hid : globalID.val.length = 8 := globalID.property
  have hpos : 0 < e.length := List.length_pos_iff.mpr hne
  have hdecode := decodeAddress_append happ []
  rw [List.append_nil] at hdecode
  unfold parseUDPMeta
  rw [if_neg (by rw [List.length_append]; omega),
    if_neg (by rw [List.length_append]; omega), List.drop_left' hid,
    List.take_left' hid, hdecode]
  simp

theorem eventOf_datagram
    {df : DecodedFrame} {globalID : GlobalID} {target : Address}
    (htype : df.type = frameUDPNew ∨ df.type = frameUDPData)
    (hvalid : target.Encodable)
    (hbuild : buildUDPMeta globalID target = .ok df.metaBytes.bytes) :
    eventOf df =
      .ok { type := df.type, globalID := globalID,
            address := some target.wireNorm, payload := df.payload } := by
  have hmem : df.type ∈ [frameUDPNew, frameUDPData, frameUDPProbeResp] := by
    rcases htype with h | h <;> simp [h]
  rw [eventOf, if_pos hmem, parseUDPMeta_buildUDPMeta hvalid hbuild]

/-- The receiver's place before the frames of `log`, which start at counter
`k`. -/
structure ReadyFor (P : Primitives) (f : FrameAEAD) (k : ℕ)
    (log : List SentFrame) (s : SecureStream) : Prop where
  stream_open : s.closed = false
  context : s.recv = f.seek k
  frames : ∀ i (e : SentFrame), log[i]? = some e →
    ∃ fr, e.SealedIn P (f.seek (k + i)) fr

theorem ReadyFor.recvQueued
    {P : Primitives} {f : FrameAEAD} {k : ℕ} {e : SentFrame}
    {log : List SentFrame} {s : SecureStream} {globalID : GlobalID}
    {t : FrameType} {target : Address} {b : Bytes}
    (hready : ReadyFor P f k (e :: log) s)
    (he : e.CarriesDatagram globalID t target b)
    (htype : t = frameUDPNew ∨ t = frameUDPData) (hvalid : target.Encodable) :
    ∃ s', SingEwp.recvQueued P s ((e :: log).map SentFrame.wire) =
        some (.ok { type := t, globalID := globalID,
                    address := some target.wireNorm,
                    payload := appendToNil b }, s', log.map SentFrame.wire) ∧
      ReadyFor P f (k + 1) log s' ∧ s'.send = s.send ∧ s'.handed = s.handed := by
  obtain ⟨fr, hsealed⟩ := hready.frames 0 e rfl
  have hopen := hready.stream_open
  have hmessage : (readingEnv (.ok e.wire)).readMessage =
      .ok (fr.wire P s.recv) := by
    rw [hready.context, hsealed.wire]
    rfl
  have hdecoded : eventOf (fr.decoded s.recv.counter) =
      .ok { type := t, globalID := globalID, address := some target.wireNorm,
            payload := appendToNil b } := by
    have hframe : fr.type = t := hsealed.type.trans he.type
    have hkind : (fr.decoded s.recv.counter).type = frameUDPNew ∨
        (fr.decoded s.recv.counter).type = frameUDPData := by
      simpa only [Frame.decoded, hframe] using htype
    have hmeta : buildUDPMeta globalID target =
        .ok (fr.decoded s.recv.counter).metaBytes.bytes := by
      simp only [Frame.decoded, appendToNil_bytes, hsealed.metaBytes]
      exact he.metaBytes
    rw [eventOf_datagram hkind hvalid hmeta]
    simp only [Frame.decoded, hframe, hsealed.payload, he.payload]
  obtain ⟨s', hrecv, hstill, hcontext⟩ := recv_wire hopen hmessage hdecoded
  have hkept := recv_send_handed P (readingEnv (.ok e.wire)) s
  rw [hrecv] at hkept
  refine ⟨s', ?_, ⟨hstill, ?_, ?_⟩, hkept⟩
  · simp only [SingEwp.recvQueued, hopen, Bool.false_eq_true, if_false,
      List.map_cons, hrecv]
  · rw [hcontext, hready.context, FrameAEAD.seek_succ]
  · intro i e' he'
    obtain ⟨fr', hfr'⟩ := hready.frames (i + 1) e' (by simpa using he')
    exact ⟨fr', by rwa [show k + 1 + i = k + (i + 1) by omega]⟩

def dataRead (n : ℕ) (w : Bytes × Address) : Except EwpError Datagram :=
  .ok (w.1.take n, ewpToNetAddr w.2.wireNorm)

theorem readDatagrams_data
    {P : Primitives} {f : FrameAEAD} {k n fuel : ℕ} {log : List SentFrame}
    {conn : PacketConn} {ws : List (Bytes × Address)}
    (hready : ReadyFor P f k log conn.stream)
    (hnone : conn.pendingFirst = none)
    (hlog : List.Forall₂
      (fun e w => SentFrame.CarriesDatagram e conn.globalID w.1 w.2.1 w.2.2) log
      (dataFrames ws))
    (hvalid : ∀ w ∈ ws, w.2.Encodable) (hfuel : ws.length < fuel) :
    readDatagrams P n fuel ⟨conn, log.map SentFrame.wire⟩ =
      ws.map (dataRead n) := by
  induction ws generalizing fuel log conn k with
  | nil =>
      cases hlog
      obtain ⟨fuel, rfl⟩ : ∃ m, fuel = m + 1 := ⟨fuel - 1, by simp at hfuel; omega⟩
      have hwait : readFrom P n ⟨conn, []⟩ = (none, ⟨conn, []⟩) := by
        simp [readFrom, hnone, readFromLoop, recvQueued, hready.stream_open]
      simp only [List.map_nil, readDatagrams, hwait]
  | cons w ws ih =>
      obtain ⟨fuel, rfl⟩ : ∃ m, fuel = m + 1 :=
        ⟨fuel - 1, by simp at hfuel; omega⟩
      cases hlog with
      | @cons e _ log _ he hrest =>
          obtain ⟨s', hrecv, hready', _⟩ := hready.recvQueued he (Or.inr rfl)
            (hvalid w List.mem_cons_self)
          have hread : readFrom P n ⟨conn, (e :: log).map SentFrame.wire⟩ =
              (some (dataRead n w),
                ⟨conn.setStream s', log.map SentFrame.wire⟩) := by
            simp only [readFrom, hnone, readFromLoop, hrecv]
            simp [PacketConn.setStream, dataRead]
          have htail : readDatagrams P n fuel
              ⟨conn.setStream s', log.map SentFrame.wire⟩ =
                ws.map (dataRead n) :=
            ih hready' hnone hrest
              (fun v hv => hvalid v (List.mem_cons_of_mem _ hv))
              (Nat.lt_of_succ_lt_succ hfuel)
          rw [readDatagrams, hread]
          simp only [dataRead, List.map_cons] at htail ⊢
          rw [htail]

/-- What the server sees of a client's writes. -/
def clientReads (n : ℕ) (dst : Address) :
    List (Bytes × Address) → List (Except EwpError Datagram)
  | [] => []
  | w :: ws =>
      (if w.1 = [] then [] else [dataRead n (w.1, dst)]) ++ ws.map (dataRead n)

theorem servedDatagrams_client
    {P : Primitives} {f : FrameAEAD} {n : ℕ} {helloAddr dst : Address}
    {globalID : GlobalID} {log : List SentFrame} {s : SecureStream}
    {ws : List (Bytes × Address)} (hready : ReadyFor P f 0 log s)
    (hlog : List.Forall₂
      (fun e w => SentFrame.CarriesDatagram e globalID w.1 w.2.1 w.2.2) log
      (clientFrames dst ws))
    (hdst : dst.Encodable) (hvalid : ∀ w ∈ ws, w.2.Encodable) :
    servedDatagrams P n helloAddr s (log.map SentFrame.wire) =
      clientReads n dst ws := by
  cases ws with
  | nil =>
      cases hlog
      simp [servedDatagrams, acceptPacketConn, recvQueued, hready.stream_open,
        clientReads]
  | cons w ws =>
      cases hlog with
      | @cons e _ log _ he hrest =>
          obtain ⟨s', hrecv, hready', _⟩ :=
            hready.recvQueued he (Or.inl rfl) hdst
          have haccept : acceptPacketConn P helloAddr s
              ((e :: log).map SentFrame.wire) =
                some (.ok ⟨newServerPacketConn s' globalID dst.wireNorm
                  (appendToNil w.1), log.map SentFrame.wire⟩) := by
            rw [acceptPacketConn, hrecv]
            simp
          have hlen : log.length = ws.length := by
            have hsame := hrest.length_eq
            simpa [dataFrames] using hsame
          have hvalid' : ∀ v ∈ ws, v.2.Encodable :=
            fun v hv => hvalid v (List.mem_cons_of_mem _ hv)
          rw [servedDatagrams, haccept]
          simp only [List.length_map, hlen]
          -- an empty first payload arrives as nil and is never read
          by_cases hempty : w.1 = []
          · have hnone : (newServerPacketConn s' globalID dst.wireNorm
                (appendToNil w.1)).pendingFirst = none :=
              (appendToNil_eq_none_iff _).mpr hempty
            have hall : readDatagrams P n (ws.length + 2)
                ⟨newServerPacketConn s' globalID dst.wireNorm (appendToNil w.1),
                  log.map SentFrame.wire⟩ = ws.map (dataRead n) :=
              readDatagrams_data hready' hnone hrest hvalid' (by omega)
            rw [hall]
            simp [clientReads, hempty]
          · have hread : readFrom P n ⟨newServerPacketConn s' globalID
                dst.wireNorm (appendToNil w.1), log.map SentFrame.wire⟩ =
                  (some (dataRead n (w.1, dst)),
                    ⟨newServerPacketConn s' globalID dst.wireNorm none,
                      log.map SentFrame.wire⟩) := by
              simp [readFrom, newServerPacketConn, appendToNil, hempty, dataRead]
            have htail : readDatagrams P n (ws.length + 1)
                ⟨newServerPacketConn s' globalID dst.wireNorm none,
                  log.map SentFrame.wire⟩ = ws.map (dataRead n) :=
              readDatagrams_data hready' rfl hrest hvalid' (Nat.lt_succ_self _)
            rw [readDatagrams, hread]
            simp only [dataRead] at htail ⊢
            rw [htail]
            simp [clientReads, hempty, dataRead]

/-! ## Both ends -/

def SecureStream.messages (s : SecureStream) : List Bytes :=
  s.handed.map SentFrame.wire

def clientRun (P : Primitives) (keys : SessionKeys) (globalID : GlobalID)
    (dst : Address) (ws : List (Bytes × Address)) (supply : ℕ → StreamEnv) :
    List (ℕ × Outcome EwpError Unit) × PacketConn × (ℕ → StreamEnv) :=
  (writeDatagrams P ws).exec supply
    (newClientPacketConn (newClientSecureStream keys) globalID dst)

section BothEnds

variable {P : Primitives} {keys : SessionKeys} {globalID : GlobalID}
variable {dst : Address} {ws : List (Bytes × Address)}
variable {supply : ℕ → StreamEnv}

theorem clientRun_frames
    (hsent : (clientRun P keys globalID dst ws supply).1 = allWritten ws) :
    List.Forall₂
      (fun e w => SentFrame.CarriesDatagram e globalID w.1 w.2.1 w.2.2)
      (clientRun P keys globalID dst ws supply).2.1.stream.handed
      (clientFrames dst ws) ∧
    ReadyFor P (newClientSecureStream keys).send 0
      (clientRun P keys globalID dst ws supply).2.1.stream.handed
      (newServerSecureStream keys) := by
  obtain ⟨hall, _⟩ := writeDatagrams_client rfl rfl hsent
  obtain ⟨log, hlog, hframes⟩ := hall.frames
  have hhanded : (clientRun P keys globalID dst ws supply).2.1.stream.handed =
      log := hlog
  have hledger := hall.ledger _ (newSecureStream_invariant P keys .client).1
  rw [hhanded]
  refine ⟨hframes, rfl, rfl, ?_⟩
  intro i e he
  rw [Nat.zero_add]
  apply hledger.frames i e
  rw [← hhanded] at he
  exact he

theorem servedDatagrams_clientRun
    (n : ℕ) (helloAddr : Address) (hdst : dst.Encodable)
    (hvalid : ∀ w ∈ ws, w.2.Encodable)
    (hsent : (clientRun P keys globalID dst ws supply).1 = allWritten ws) :
    servedDatagrams P n helloAddr (newServerSecureStream keys)
        (clientRun P keys globalID dst ws supply).2.1.stream.messages =
      clientReads n dst ws := by
  obtain ⟨hframes, hready⟩ := clientRun_frames hsent
  exact servedDatagrams_client hready hframes hdst hvalid

theorem acceptPacketConn_client
    {helloAddr : Address} {c : PacketEnd} (hdst : dst.Encodable)
    (hsent : (clientRun P keys globalID dst ws supply).1 = allWritten ws)
    (haccept : acceptPacketConn P helloAddr (newServerSecureStream keys)
        (clientRun P keys globalID dst ws supply).2.1.stream.messages =
      some (.ok c)) :
    c.conn.isServer = true ∧ c.conn.globalID = globalID ∧
      c.conn.stream.send = (newServerSecureStream keys).send ∧
      c.conn.stream.handed = [] := by
  obtain ⟨hframes, hready⟩ := clientRun_frames hsent
  unfold SecureStream.messages at haccept
  generalize (clientRun P keys globalID dst ws supply).2.1.stream.handed = log
    at hframes hready haccept
  cases ws with
  | nil =>
      cases hframes
      simp [acceptPacketConn, recvQueued, newServerSecureStream] at haccept
  | cons w ws =>
      cases hframes with
      | cons he hrest =>
          obtain ⟨s', hrecv, _, hsend, hhanded⟩ :=
            hready.recvQueued he (Or.inl rfl) hdst
          rw [acceptPacketConn, hrecv] at haccept
          simp only [ne_eq, not_true_eq_false, if_false, Option.some.injEq,
            Except.ok.injEq] at haccept
          subst haccept
          exact ⟨rfl, rfl, hsend, hhanded⟩

theorem readDatagrams_replies
    {helloAddr : Address} {c : PacketEnd} {rs : List (Bytes × Address)}
    {supply' : ℕ → StreamEnv} (n : ℕ) (hdst : dst.Encodable)
    (hsent : (clientRun P keys globalID dst ws supply).1 = allWritten ws)
    (haccept : acceptPacketConn P helloAddr (newServerSecureStream keys)
        (clientRun P keys globalID dst ws supply).2.1.stream.messages =
      some (.ok c))
    (hvalid : ∀ r ∈ rs, r.2.Encodable)
    (hreplied : ((writeDatagrams P rs).exec supply' c.conn).1 = allWritten rs) :
    readDatagrams P n (rs.length + 1)
        ⟨(clientRun P keys globalID dst ws supply).2.1,
          ((writeDatagrams P rs).exec supply' c.conn).2.1.stream.messages⟩ =
      rs.map (dataRead n) := by
  obtain ⟨hserver, hid, hsend, hempty⟩ :=
    acceptPacketConn_client hdst hsent haccept
  obtain ⟨hclient, hclientID, hpending⟩ := writeDatagrams_client rfl rfl hsent
  obtain ⟨hall, _⟩ := writeDatagrams_data (Or.inl hserver) hreplied
  obtain ⟨log, hlog, hframes⟩ := hall.frames
  rw [hempty, List.nil_append] at hlog
  have hledger : Ledger P (newServerSecureStream keys).send c.conn.stream :=
    (newSecureStream_invariant P keys .server).1.of_eq hsend hempty
  have hfinal := hall.ledger _ hledger
  rw [SecureStream.messages, hlog]
  have hready : ReadyFor P (newServerSecureStream keys).send 0 log
      (clientRun P keys globalID dst ws supply).2.1.stream := by
    refine ⟨hclient.closed, hclient.recv, ?_⟩
    intro i e he
    rw [Nat.zero_add]
    apply hfinal.frames i e
    rw [hlog]
    exact he
  have hcarried : List.Forall₂
      (fun e w => SentFrame.CarriesDatagram e
        (clientRun P keys globalID dst ws supply).2.1.globalID w.1 w.2.1 w.2.2)
      log (dataFrames rs) := by
    have hsame : (clientRun P keys globalID dst ws supply).2.1.globalID =
        globalID := hclientID
    rw [hsame, ← hid]
    exact hframes
  exact readDatagrams_data hready hpending hcarried hvalid (Nat.lt_succ_self _)

end BothEnds

namespace Transparent

def anchor : Address :=
  { addr := ⟨.v4 (FixedBytes.copyFrom 4 [192, 0, 2, 1]), 53⟩ }

def elsewhere : Address :=
  { addr := ⟨.v4 (FixedBytes.copyFrom 4 [198, 51, 100, 7]), 53⟩ }

def session : GlobalID := FixedBytes.copyFrom 8 [7]

def supply : ℕ → StreamEnv := fun _ => streamEnv (.ok [])

theorem anchor_encodable : anchor.Encodable := by decide

theorem elsewhere_encodable : elsewhere.Encodable := by decide

theorem anchored_sent :
    (clientRun suite keys session anchor [([9], anchor)] supply).1 =
      allWritten [([9], anchor)] := by
  decide +kernel

theorem diverted_sent :
    (clientRun suite keys session anchor [([9], elsewhere)] supply).1 =
      allWritten [([9], elsewhere)] := by
  decide +kernel

theorem empty_sent :
    (clientRun suite keys session anchor [([], anchor)] supply).1 =
      allWritten [([], anchor)] := by
  decide +kernel

end Transparent

/-! ## Destinations -/

theorem ewpToNetAddr_wireNorm_inj
    {a b : Address} (ha : a.Encodable) (hb : b.Encodable)
    (heq : ewpToNetAddr a.wireNorm = ewpToNetAddr b.wireNorm) :
    a.wireNorm = b.wireNorm := by
  obtain ⟨⟨ipA, portA⟩, domA, dportA⟩ := a
  obtain ⟨⟨ipB, portB⟩, domB, dportB⟩ := b
  by_cases hdomA : domA = []
  · by_cases hdomB : domB = []
    · subst hdomA hdomB
      cases ipA with
      | invalid => simp [Address.Encodable, AddrPort.isValid] at ha
      | v4 ip =>
          cases ipB with
          | invalid => simp [Address.Encodable, AddrPort.isValid] at hb
          | v4 ip' =>
              simpa [ewpToNetAddr, Address.wireNorm, Subtype.ext_iff] using heq
          | v6 ip' zone' =>
              simp [ewpToNetAddr, Address.wireNorm] at heq
              have hlen := congrArg List.length heq.1
              rw [ip.property, ip'.property] at hlen
              omega
      | v6 ip zone =>
          cases ipB with
          | invalid => simp [Address.Encodable, AddrPort.isValid] at hb
          | v4 ip' =>
              simp [ewpToNetAddr, Address.wireNorm] at heq
              have hlen := congrArg List.length heq.1
              rw [ip.property, ip'.property] at hlen
              omega
          | v6 ip' zone' =>
              simpa [ewpToNetAddr, Address.wireNorm, Subtype.ext_iff] using heq
    · subst hdomA
      cases ipA <;> simp [ewpToNetAddr, Address.wireNorm, Address.isDomain, hdomB] at heq
  · by_cases hdomB : domB = []
    · subst hdomB
      cases ipB <;> simp [ewpToNetAddr, Address.wireNorm, Address.isDomain, hdomA] at heq
    · simpa [ewpToNetAddr, Address.wireNorm, Address.isDomain, hdomA, hdomB]
        using heq

/-- The `i`-th datagram read is reported with the target of the `i`-th write. -/
def DestinationsPreserved (reads : List (Except EwpError Datagram))
    (ws : List (Bytes × Address)) : Prop :=
  ∀ (i : ℕ) (w : Bytes × Address), ws[i]? = some w →
    ∃ payload : Bytes, reads[i]? =
      some (Except.ok (payload, ewpToNetAddr w.2.wireNorm))

theorem destinationsPreserved_clientReads_iff
    {n : ℕ} {dst : Address} {ws : List (Bytes × Address)}
    (hdst : dst.Encodable) (hvalid : ∀ w ∈ ws, w.2.Encodable) :
    DestinationsPreserved (clientReads n dst ws) ws ↔
      ∀ w rest, ws = w :: rest →
        w.1 ≠ [] ∧ w.2.wireNorm = dst.wireNorm := by
  cases ws with
  | nil => simp [DestinationsPreserved]
  | cons w ws =>
      constructor
      · rintro hpreserved _ _ ⟨rfl, rfl⟩
        by_cases hempty : w.1 = []
        · -- one datagram too few is read, so the last position is missing
          have hlast : (w :: ws)[ws.length]? =
              some (w :: ws)[ws.length] := List.getElem?_eq_getElem (by simp)
          obtain ⟨payload, hread⟩ := hpreserved _ _ hlast
          simp [clientReads, hempty] at hread
        · obtain ⟨payload, hread⟩ := hpreserved 0 w rfl
          simp only [clientReads, hempty, if_false, List.singleton_append,
            List.getElem?_cons_zero, dataRead, Option.some.injEq,
            Except.ok.injEq, Prod.mk.injEq] at hread
          exact ⟨hempty, (ewpToNetAddr_wireNorm_inj hdst
            (hvalid w List.mem_cons_self) hread.2).symm⟩
      · intro hfirst i v hv
        obtain ⟨hempty, htarget⟩ := hfirst w ws rfl
        cases i with
        | zero =>
            simp only [List.getElem?_cons_zero, Option.some.injEq] at hv
            subst hv
            exact ⟨w.1.take n, by
              simp [clientReads, hempty, dataRead, htarget]⟩
        | succ i =>
            simp only [List.getElem?_cons_succ] at hv
            exact ⟨v.1.take n, by
              simp [clientReads, hempty, dataRead, hv]⟩

/-- The destinations of a client's writes survive exactly when its first datagram
is not empty and goes to the anchor; those of a server's writes always do. -/
theorem udp_destinations_iff
    (P : Primitives) (keys : SessionKeys) (globalID : GlobalID)
    (dst : Address) (hdst : dst.Encodable) (ws : List (Bytes × Address))
    (hvalid : ∀ w ∈ ws, w.2.Encodable) (supply : ℕ → StreamEnv)
    (hsent : (clientRun P keys globalID dst ws supply).1 = allWritten ws)
    (helloAddr : Address) (n : ℕ) :
    (DestinationsPreserved
        (servedDatagrams P n helloAddr (newServerSecureStream keys)
          (clientRun P keys globalID dst ws supply).2.1.stream.messages) ws ↔
      ∀ w rest, ws = w :: rest →
        w.1 ≠ [] ∧ w.2.wireNorm = dst.wireNorm) ∧
    (∀ (c : PacketEnd) (rs : List (Bytes × Address)) (supply' : ℕ → StreamEnv),
      acceptPacketConn P helloAddr (newServerSecureStream keys)
          (clientRun P keys globalID dst ws supply).2.1.stream.messages =
        some (.ok c) →
      (∀ r ∈ rs, r.2.Encodable) →
      ((writeDatagrams P rs).exec supply' c.conn).1 = allWritten rs →
      DestinationsPreserved
        (readDatagrams P n (rs.length + 1)
          ⟨(clientRun P keys globalID dst ws supply).2.1,
            ((writeDatagrams P rs).exec supply' c.conn).2.1.stream.messages⟩)
        rs) := by
  constructor
  · rw [servedDatagrams_clientRun n helloAddr hdst hvalid hsent]
    exact destinationsPreserved_clientReads_iff hdst hvalid
  · intro c rs supply' haccept hreplies hreplied
    rw [readDatagrams_replies n hdst hsent haccept hreplies hreplied]
    intro i r hr
    exact ⟨r.1.take n, by simp [hr, dataRead]⟩

theorem udp_destinations_anchor :
    DestinationsPreserved
      (servedDatagrams Transparent.suite 64 Transparent.anchor
        (newServerSecureStream Transparent.keys)
        (clientRun Transparent.suite Transparent.keys Transparent.session
          Transparent.anchor [([9], Transparent.anchor)]
          Transparent.supply).2.1.stream.messages)
      [([9], Transparent.anchor)] :=
  (udp_destinations_iff Transparent.suite Transparent.keys Transparent.session
    Transparent.anchor Transparent.anchor_encodable [([9], Transparent.anchor)]
    (by simpa using Transparent.anchor_encodable) Transparent.supply
    Transparent.anchored_sent Transparent.anchor 64).1.mpr
    (by rintro _ _ ⟨rfl, rfl⟩; exact ⟨by simp, rfl⟩)

/-- A first datagram for another address is attributed to the anchor. -/
theorem udp_first_destination_replaced :
    (clientRun Transparent.suite Transparent.keys Transparent.session
        Transparent.anchor [([9], Transparent.elsewhere)]
        Transparent.supply).1 =
      allWritten [([9], Transparent.elsewhere)] ∧
    servedDatagrams Transparent.suite 64 Transparent.anchor
        (newServerSecureStream Transparent.keys)
        (clientRun Transparent.suite Transparent.keys Transparent.session
          Transparent.anchor [([9], Transparent.elsewhere)]
          Transparent.supply).2.1.stream.messages =
      [.ok ([9], ewpToNetAddr Transparent.anchor)] ∧
    ewpToNetAddr Transparent.anchor ≠
      ewpToNetAddr Transparent.elsewhere.wireNorm := by
  have hsent := Transparent.diverted_sent
  refine ⟨hsent, ?_, by decide⟩
  rw [servedDatagrams_clientRun 64 Transparent.anchor
    Transparent.anchor_encodable
    (by simpa using Transparent.elsewhere_encodable) hsent]
  decide

/-! ## Payloads -/

/-- The payloads of a client's writes arrive as they are exactly when the first
is not empty. -/
theorem udp_payloads_iff
    (P : Primitives) (keys : SessionKeys) (globalID : GlobalID)
    (dst : Address) (hdst : dst.Encodable) (bs : List Bytes)
    (supply : ℕ → StreamEnv)
    (hsent : (clientRun P keys globalID dst (bs.map (fun b => (b, dst)))
      supply).1 = allWritten (bs.map (fun b => (b, dst))))
    (helloAddr : Address) (n : ℕ) (hroom : ∀ b ∈ bs, b.length ≤ n) :
    (servedDatagrams P n helloAddr (newServerSecureStream keys)
        (clientRun P keys globalID dst (bs.map (fun b => (b, dst)))
          supply).2.1.stream.messages).map (fun d => d.map Prod.fst) =
      bs.map Except.ok ↔
    ∀ b rest, bs = b :: rest → b ≠ [] := by
  have hvalid : ∀ w ∈ bs.map (fun b => (b, dst)), w.2.Encodable := by
    intro w hw
    obtain ⟨b, _, rfl⟩ := List.mem_map.mp hw
    exact hdst
  rw [servedDatagrams_clientRun n helloAddr hdst hvalid hsent]
  cases bs with
  | nil => simp [clientReads]
  | cons b bs =>
      have hpayload : ∀ b ∈ bs, (dataRead n (b, dst)).map Prod.fst = .ok b := by
        intro b hb
        simp only [dataRead, Except.map]
        rw [List.take_of_length_le (hroom b (List.mem_cons_of_mem _ hb))]
      have htail : ((bs.map (fun b => (b, dst))).map (dataRead n)).map
          (fun d => d.map Prod.fst) = bs.map Except.ok := by
        rw [List.map_map, List.map_map]
        exact List.map_congr_left hpayload
      by_cases hempty : b = []
      · apply iff_of_false
        · intro hreads
          have hlen := congrArg List.length hreads
          simp [clientReads, hempty] at hlen
        · intro hall
          exact hall b bs rfl hempty
      · apply iff_of_true
        · have hfirst : b.take n = b :=
            List.take_of_length_le (hroom b List.mem_cons_self)
          simp only [List.map_cons, clientReads, hempty, if_false,
            List.singleton_append, htail]
          simp only [dataRead, Except.map, hfirst]
        · rintro _ _ ⟨rfl, rfl⟩
          exact hempty

theorem udp_payloads_one :
    (servedDatagrams Transparent.suite 64 Transparent.anchor
        (newServerSecureStream Transparent.keys)
        (clientRun Transparent.suite Transparent.keys Transparent.session
          Transparent.anchor ([[9]].map (fun b => (b, Transparent.anchor)))
          Transparent.supply).2.1.stream.messages).map
        (fun d => d.map Prod.fst) =
      [[9]].map Except.ok :=
  (udp_payloads_iff Transparent.suite Transparent.keys Transparent.session
    Transparent.anchor Transparent.anchor_encodable [[9]] Transparent.supply
    Transparent.anchored_sent Transparent.anchor 64
    (by decide)).mpr (by rintro _ _ ⟨rfl, rfl⟩; simp)

/-- An empty first datagram is written with success and never read. -/
theorem udp_empty_first_lost :
    (clientRun Transparent.suite Transparent.keys Transparent.session
        Transparent.anchor [([], Transparent.anchor)] Transparent.supply).1 =
      [(0, .ok ())] ∧
    servedDatagrams Transparent.suite 64 Transparent.anchor
        (newServerSecureStream Transparent.keys)
        (clientRun Transparent.suite Transparent.keys Transparent.session
          Transparent.anchor [([], Transparent.anchor)]
          Transparent.supply).2.1.stream.messages = [] := by
  have hsent := Transparent.empty_sent
  refine ⟨hsent, ?_⟩
  rw [servedDatagrams_clientRun 64 Transparent.anchor
    Transparent.anchor_encodable (by simpa using Transparent.anchor_encodable)
    hsent]
  rfl

end SingEwp
