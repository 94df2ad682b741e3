import SingEwp.PacketDelivery

/-!
# Concurrent UDP writers

Any number of goroutines call `WriteToAddress` on one client packet conn.  The
test of `opened` is made without the lock, so two first writers can both go on
to `ensureOpen`; the later one finds the sub-session open and returns success
without having sent anything.  As long as no call enters the locked section of
`ensureOpen` after the sub-session has been opened, every successful call has
handed over its own datagram and `UDP_NEW` goes out once.
-/

namespace SingEwp

def SentFrame.isUDPNew (e : SentFrame) : Bool := e.type = frameUDPNew

def packetPool (P : Primitives) (p : PacketConn) (ws : List (Bytes × Address)) :
    Pool PacketLabel StreamEnv PacketConn (ℕ × Outcome EwpError Unit) where
  shared := p
  threads := ws.map (fun w => writeToAddress P w.1 w.2)

def PacketConn.handed (p : PacketConn) : List SentFrame := p.stream.handed

/-! ## Steps -/

/-- The ways through `ensureOpen` while the sub-session is not open. -/
inductive EnsureStep (b : Bytes) (p : PacketConn) :
    Outcome EwpError Unit × PacketConn → Prop where
  | kept (outcome : Outcome EwpError Unit) (s : SecureStream)
      (failed : outcome ≠ .ok ()) (hhanded : s.handed = p.stream.handed)
      (hclosed : s.closed = p.stream.closed) :
      EnsureStep b p (outcome, p.setStream s)
  | sent (s : SecureStream) (e : SentFrame) (htype : e.type = frameUDPNew)
      (hpayload : e.payload = b) (hhanded : s.handed = p.stream.handed ++ [e])
      (hopen : p.stream.closed = false) :
      EnsureStep b p (.ok (), { p with stream := s, opened := true })
  | refused (outcome : Outcome EwpError Unit) (s : SecureStream)
      (e : SentFrame) (failed : outcome ≠ .ok ())
      (htype : e.type = frameUDPNew) (hpayload : e.payload = b)
      (hhanded : s.handed = p.stream.handed ++ [e])
      (hopen : p.stream.closed = false) (hclosed : s.closed = true) :
      EnsureStep b p (outcome, p.setStream s)

theorem ensureOpenLocked_failed
    {P : Primitives} {b : Bytes} {env : StreamEnv} {p : PacketConn}
    {outcome : Outcome EwpError Unit} {s : SecureStream}
    {supply : ℕ → StreamEnv} (hnew : p.opened = false)
    (hexec : (sendUDPNew P p.globalID p.defaultDst b).exec (fun _ => env)
      p.stream = (outcome, s, supply)) (hfailed : outcome ≠ .ok ()) :
    ensureOpenLocked P b env p = (outcome, p.setStream s) := by
  rw [ensureOpenLocked, if_neg (by simp [hnew]), hexec]
  cases outcome with
  | ok value => exact absurd rfl hfailed
  | error e => rfl
  | panic => rfl

theorem ensureOpenLocked_step
    (P : Primitives) (b : Bytes) (env : StreamEnv) {p : PacketConn}
    (hnew : p.opened = false) :
    EnsureStep b p (ensureOpenLocked P b env p) := by
  cases hbuild : buildUDPMeta p.globalID p.defaultDst with
  | error e =>
      have hexec : (sendUDPNew P p.globalID p.defaultDst b).exec (fun _ => env)
          p.stream = (.error e, p.stream, fun _ => env) := by
        simp [sendUDPNew, sendAddressed, hbuild]
      rw [ensureOpenLocked_failed hnew hexec (by simp)]
      exact .kept _ p.stream (by simp) rfl rfl
  | ok metaBytes =>
      have hsend : sendUDPNew P p.globalID p.defaultDst b =
          sendFrame P frameUDPNew metaBytes b (-1) := by
        simp [sendUDPNew, sendAddressed, hbuild]
      cases hclosed : p.stream.closed with
      | true =>
          have hexec : (sendUDPNew P p.globalID p.defaultDst b).exec
              (fun _ => env) p.stream =
                (.error (.io .closedPipe), p.stream, fun _ => env) := by
            rw [hsend, sendFrame, Proc.bind_eq, Proc.exec_bind,
              Proc.exec_observe, hclosed]
            rfl
          rw [ensureOpenLocked_failed hnew hexec (by simp)]
          exact .kept _ p.stream (by simp) rfl rfl
      | false =>
          have hstep := sendFrameLocked_step P frameUDPNew metaBytes b (-1) env
            p.stream
          generalize hlocked : sendFrameLocked P frameUDPNew metaBytes b (-1) env
            p.stream = r at hstep
          obtain ⟨outcome, s'⟩ := r
          have hexec : (sendUDPNew P p.globalID p.defaultDst b).exec
              (fun _ => env) p.stream = (outcome, s', fun _ => env) := by
            rw [hsend]
            exact sendFrame_exec hclosed hlocked
          clear hlocked hsend
          cases hstep with
          | kept outcome cap failed =>
              have hne := SendStep.ne_ok_of_failed failed
              rw [ensureOpenLocked_failed hnew hexec hne]
              exact .kept outcome _ hne rfl rfl
          | taken cap fr htype hmeta hpayload htaken =>
              have hsent : ensureOpenLocked P b env p =
                  (.ok (), { p with
                    stream := (p.stream.emit P cap fr).countSent frameUDPNew
                      (fr.wire P p.stream.send) env.nowNs
                    opened := true }) := by
                rw [ensureOpenLocked, if_neg (by simp [hnew]), hexec]
              rw [hsent]
              exact .sent _ _ htype hpayload rfl hclosed
          | refused cap fr htype hmeta hpayload e hrefused =>
              rw [ensureOpenLocked_failed hnew hexec (by simp)]
              exact .refused _ _ _ (by simp) htype hpayload
                (by rw [SecureStream.close_handed]; rfl) hclosed
                (SecureStream.close_closed _)

/-! ## Invariant and contracts -/

/-- `UDP_NEW` has gone out once if the sub-session is open; if it is not, it has
gone out only to a transport that refused it, and the stream is closed. -/
structure OpensOnce (p : PacketConn) : Prop where
  client : p.isServer = false
  opened : p.opened = true → p.handed.countP SentFrame.isUDPNew = 1
  unopened : p.opened = false →
    p.handed.countP SentFrame.isUDPNew = 0 ∨
      (p.handed.countP SentFrame.isUDPNew = 1 ∧ p.stream.closed = true)

/-- A call enters the locked section of `ensureOpen` only while the sub-session
is not open. -/
def EntersUnopened (label : PacketLabel) (_ : StreamEnv) (p : PacketConn) :
    Prop :=
  label = .ensureOpen → p.opened = false

instance (label : PacketLabel) (env : StreamEnv) (p : PacketConn) :
    Decidable (EntersUnopened label env p) :=
  inferInstanceAs (Decidable (_ → _))

structure SentFrame.ForPayload (e : SentFrame) (b : Bytes) : Prop where
  payload : e.payload = b
  type : e.type = frameUDPNew ∨ e.type = frameUDPData

def AtMostOwn (b : Bytes) (all : List SentFrame) : Prop :=
  all = [] ∨ ∃ e : SentFrame, all = [e] ∧ e.ForPayload b

/-- A successful call has handed over its frame.  If the sub-session has been
closed to everyone so far, that frame is `UDP_NEW`. -/
def OwnFrame (early : Prop) (b : Bytes) (all : List SentFrame)
    (result : ℕ × Outcome EwpError Unit) : Prop :=
  result.2 = .ok () →
    result.1 = b.length ∧ ∃ e : SentFrame, all = [e] ∧ e.ForPayload b ∧
      (early → e.type = frameUDPNew)

/-- The guard of a run, restricted to states before the opening when `early`
holds. -/
def WriterGuard (early : Prop) (label : PacketLabel) (env : StreamEnv)
    (p : PacketConn) : Prop :=
  EntersUnopened label env p ∧ (early → p.opened = false)

theorem OpensOnce.ensureOpen
    {p : PacketConn} (hinv : OpensOnce p) (hnew : p.opened = false)
    (P : Primitives) (b : Bytes) (env : StreamEnv) :
    OpensOnce (ensureOpenLocked P b env p).2 ∧
      ∃ new, (ensureOpenLocked P b env p).2.handed = p.handed ++ new ∧
        AtMostOwn b new ∧
        ((ensureOpenLocked P b env p).1 = .ok () →
          ∃ e : SentFrame, new = [e] ∧ e.ForPayload b ∧
            e.type = frameUDPNew) := by
  have hbefore : p.stream.closed = false →
      p.handed.countP SentFrame.isUDPNew = 0 := by
    intro hopen
    rcases hinv.unopened hnew with hzero | ⟨_, hclosed⟩
    · exact hzero
    · rw [hopen] at hclosed
      simp at hclosed
  have hstep := ensureOpenLocked_step P b env hnew
  generalize ensureOpenLocked P b env p = r at hstep ⊢
  cases hstep with
  | kept outcome s failed hhanded hclosed =>
      refine ⟨⟨hinv.client, ?_, ?_⟩, [], ?_, Or.inl rfl,
        fun hok => absurd hok failed⟩
      · intro hopened
        exact absurd (hnew.symm.trans hopened) (by simp)
      · intro _
        have hunopened := hinv.unopened hnew
        simp only [PacketConn.handed, PacketConn.setStream, hhanded,
          hclosed] at hunopened ⊢
        exact hunopened
      · simp [PacketConn.handed, PacketConn.setStream, hhanded]
  | sent s e htype hpayload hhanded hopen =>
      have hcount := hbefore hopen
      refine ⟨⟨hinv.client, ?_, by simp⟩, [e], hhanded,
        Or.inr ⟨e, rfl, hpayload, Or.inl htype⟩,
        fun _ => ⟨e, rfl, ⟨hpayload, Or.inl htype⟩, htype⟩⟩
      intro _
      simp only [PacketConn.handed] at hcount ⊢
      simp [hhanded, hcount, SentFrame.isUDPNew, htype]
  | refused outcome s e failed htype hpayload hhanded hopen hclosed =>
      have hcount := hbefore hopen
      refine ⟨⟨hinv.client, ?_, ?_⟩, [e], hhanded,
        Or.inr ⟨e, rfl, hpayload, Or.inl htype⟩,
        fun hok => absurd hok failed⟩
      · intro hopened
        exact absurd (hnew.symm.trans hopened) (by simp)
      · intro _
        right
        simp only [PacketConn.handed, PacketConn.setStream] at hcount ⊢
        exact ⟨by simp [hhanded, hcount, SentFrame.isUDPNew, htype], hclosed⟩

theorem OpensOnce.count_le {p : PacketConn} (hinv : OpensOnce p) :
    p.handed.countP SentFrame.isUDPNew ≤ 1 := by
  cases hopened : p.opened with
  | true => exact (hinv.opened hopened).le
  | false =>
      rcases hinv.unopened hopened with hzero | ⟨hone, _⟩
      · omega
      · exact hone.le

theorem OpensOnce.appendData
    {p : PacketConn} {s : SecureStream} (hinv : OpensOnce p)
    (new : List SentFrame) (hhanded : s.handed = p.stream.handed ++ new)
    (htypes : ∀ e ∈ new, e.type = frameUDPData)
    (hclosed : p.stream.closed = true → s.closed = true) :
    OpensOnce (p.setStream s) := by
  have hsame : (p.setStream s).handed.countP SentFrame.isUDPNew =
      p.handed.countP SentFrame.isUDPNew := by
    have hnone : new.countP SentFrame.isUDPNew = 0 := by
      rw [List.countP_eq_zero]
      intro e he
      simp [SentFrame.isUDPNew, htypes e he]
      decide
    simp only [PacketConn.handed, PacketConn.setStream, hhanded,
      List.countP_append, hnone, Nat.add_zero]
  refine ⟨hinv.client, fun hopened => hsame.trans (hinv.opened hopened), ?_⟩
  intro hunopened
  rw [hsame]
  rcases hinv.unopened hunopened with hzero | ⟨hone, hwas⟩
  · exact Or.inl hzero
  · exact Or.inr ⟨hone, hclosed hwas⟩

theorem OpensOnce.sendData
    {p : PacketConn} (hinv : OpensOnce p) (P : Primitives)
    (metaBytes b : Bytes) (env : StreamEnv) :
    OpensOnce (p.setStream
        (sendFrameLocked P frameUDPData metaBytes b (-1) env p.stream).2) ∧
      ∃ new, (p.setStream (sendFrameLocked P frameUDPData metaBytes b (-1) env
          p.stream).2).handed = p.handed ++ new ∧
        AtMostOwn b new ∧
        ((sendFrameLocked P frameUDPData metaBytes b (-1) env p.stream).1 =
            .ok () →
          ∃ e : SentFrame, new = [e] ∧ e.ForPayload b) := by
  have hstep := sendFrameLocked_step P frameUDPData metaBytes b (-1) env
    p.stream
  generalize sendFrameLocked P frameUDPData metaBytes b (-1) env p.stream = r
    at hstep ⊢
  cases hstep with
  | kept outcome cap failed =>
      exact ⟨hinv.appendData [] (by simp) (by simp) id, [], by
        simp [PacketConn.handed, PacketConn.setStream], Or.inl rfl,
        fun hok => absurd hok (SendStep.ne_ok_of_failed failed)⟩
  | taken cap fr htype hmeta hpayload hsend =>
      exact ⟨hinv.appendData [_] rfl (by simpa using htype) id, [_], rfl,
        Or.inr ⟨_, rfl, hpayload, Or.inr htype⟩,
        fun _ => ⟨_, rfl, hpayload, Or.inr htype⟩⟩
  | refused cap fr htype hmeta hpayload e hsend =>
      have hhanded : (p.stream.emit P cap fr).close.handed =
          p.stream.handed ++ [⟨fr.type, fr.metaBytes, fr.payload,
            fr.wire P p.stream.send⟩] := by
        rw [SecureStream.close_handed]
        rfl
      exact ⟨hinv.appendData [_] hhanded (by simpa using htype) (by simp), [_],
        hhanded, Or.inr ⟨_, rfl, hpayload, Or.inr htype⟩, by simp⟩

theorem onStream_section_meets
    {early : Prop} {b : Bytes}
    {body : StreamEnv → SecureStream → Outcome EwpError Unit × SecureStream}
    (hbody : ∀ env p, OpensOnce p →
      OpensOnce (p.setStream (body env p.stream).2) ∧
        ∃ new, (p.setStream (body env p.stream).2).handed = p.handed ++ new ∧
          AtMostOwn b new ∧
          ((body env p.stream).1 = .ok () →
            ∃ e : SentFrame, new = [e] ∧ e.ForPayload b)) :
    Proc.Meets OpensOnce (WriterGuard early) PacketConn.handed (AtMostOwn b)
      (fun all outcome => outcome = .ok () →
        ∃ e : SentFrame, all = [e] ∧ e.ForPayload b) []
      (onStream (Proc.bind (Proc.observe .closedTest SecureStream.closed)
        (fun closed =>
          if closed then pure (.error (.io .closedPipe))
          else Proc.atomic .sendLocked body))) := by
  have hnone : AtMostOwn b [] := Or.inl rfl
  rw [onStream, Proc.zoom_bind, Proc.observe, Proc.zoom_atomic]
  have htest : Proc.Meets OpensOnce (WriterGuard early) PacketConn.handed
      (AtMostOwn b) (fun all _ => all = []) []
      (Proc.atomic (PacketLabel.stream .closedTest)
        (fun (_ : StreamEnv) (p : PacketConn) =>
          (p.stream.closed, p.setStream p.stream))) := by
    apply Proc.Meets.atomic hnone
    intro env p hinv _
    exact ⟨hinv, [], by simp [PacketConn.setStream], hnone, rfl⟩
  apply Proc.Meets.bind htest
  rintro all closed _ rfl
  by_cases hclosed : closed = true
  · rw [if_pos hclosed]
    exact ⟨hnone, by simp⟩
  · rw [if_neg hclosed, Proc.zoom_atomic]
    apply Proc.Meets.atomic hnone
    intro env p hinv _
    obtain ⟨hnext, new, hhanded, hown, hsent⟩ := hbody env p hinv
    exact ⟨hnext, new, hhanded, by simpa using hown, by simpa using hsent⟩

theorem onStream_sendUDPData_meets
    (P : Primitives) (early : Prop) (globalID : GlobalID) (target : Address)
    (b : Bytes) :
    Proc.Meets OpensOnce (WriterGuard early) PacketConn.handed (AtMostOwn b)
      (fun all outcome => outcome = .ok () →
        ∃ e : SentFrame, all = [e] ∧ e.ForPayload b) []
      (onStream (sendUDPData P globalID target b)) := by
  unfold sendUDPData sendAddressed
  cases hbuild : buildUDPMeta globalID target with
  | error e => exact ⟨Or.inl rfl, by simp⟩
  | ok metaBytes =>
      exact onStream_section_meets
        (fun env p hinv => hinv.sendData P metaBytes b env)

theorem writeToAddress_meets
    (P : Primitives) (early : Prop) (b : Bytes) (target : Address) :
    Proc.Meets OpensOnce (WriterGuard early) PacketConn.handed (AtMostOwn b)
      (OwnFrame early b) [] (writeToAddress P b target) := by
  have hnone : AtMostOwn b [] := Or.inl rfl
  have htest : Proc.Meets OpensOnce (WriterGuard early) PacketConn.handed
      (AtMostOwn b) (fun all seen => all = [] ∧ (early → seen.1 = true)) []
      (Proc.observe PacketLabel.openedTest
        (fun p : PacketConn => (!p.isServer && !p.opened, p.globalID))) := by
    apply Proc.Meets.observe hnone
    intro env p hinv hguard
    refine ⟨rfl, ?_⟩
    intro hearly
    simp [hinv.client, hguard.2 hearly]
  unfold writeToAddress
  apply Proc.Meets.bind htest
  rintro all ⟨unopened, globalID⟩ _ ⟨rfl, hearly⟩
  by_cases hpath : unopened = true
  · simp only [hpath, if_true]
    have hopen : Proc.Meets OpensOnce (WriterGuard early) PacketConn.handed
        (AtMostOwn b)
        (fun all outcome => outcome = .ok () →
          ∃ e : SentFrame, all = [e] ∧ e.ForPayload b ∧ e.type = frameUDPNew)
        [] (Proc.atomic .ensureOpen (ensureOpenLocked P b)) := by
      apply Proc.Meets.atomic hnone
      intro env p hinv hguard
      obtain ⟨hnext, new, hhanded, hown, hsent⟩ :=
        hinv.ensureOpen (hguard.1 rfl) P b env
      exact ⟨hnext, new, hhanded, by simpa using hown, by simpa using hsent⟩
    apply Proc.Meets.bind hopen
    intro all outcome hduring hsent
    cases outcome with
    | ok value =>
        obtain ⟨e, hall, hown, hnew⟩ := hsent rfl
        exact ⟨hduring, fun _ => ⟨rfl, e, hall, hown, fun _ => hnew⟩⟩
    | error e => exact ⟨hduring, by simp [OwnFrame]⟩
    | panic => exact ⟨hduring, by simp [OwnFrame]⟩
  · simp only [hpath]
    apply Proc.Meets.bind
      (onStream_sendUDPData_meets P early globalID target b)
    intro all outcome hduring hsent
    cases outcome with
    | ok value =>
        obtain ⟨e, hall, hown⟩ := hsent rfl
        exact ⟨hduring, fun _ => ⟨rfl, e, hall, hown,
          fun hyes => absurd (hearly hyes) hpath⟩⟩
    | error e => exact ⟨hduring, by simp [OwnFrame]⟩
    | panic => exact ⟨hduring, by simp [OwnFrame]⟩

/-! ## Once open, always open -/

def KeepsOpened (_ : PacketLabel) (update : StreamEnv → PacketConn → PacketConn) :
    Prop :=
  ∀ env p, p.opened = true → (update env p).opened = true

theorem ensureOpenLocked_keepsOpened
    (P : Primitives) (b : Bytes) (label : PacketLabel) :
    KeepsOpened label (fun env p => (ensureOpenLocked P b env p).2) := by
  intro env p hopened
  simp [ensureOpenLocked, hopened]

theorem writeToAddress_acts
    (P : Primitives) (b : Bytes) (target : Address) :
    Proc.Acts KeepsOpened (writeToAddress P b target) := by
  have hstream : ∀ globalID, Proc.Acts KeepsOpened
      (onStream (sendUDPData P globalID target b)) := by
    intro globalID
    have hzoom := (SendCall.acts P (.udpData globalID target b)).zoom
      PacketLabel.stream PacketConn.stream PacketConn.setStream
    apply hzoom.mono
    rintro label update ⟨_, _, _, _, rfl⟩ env p hopened
    exact hopened
  unfold writeToAddress
  apply Proc.Acts.bind (Proc.Acts.atomic (fun _ _ hopened => hopened))
  rintro ⟨unopened, globalID⟩
  dsimp only
  split
  · apply Proc.Acts.bind (Proc.Acts.atomic
      (ensureOpenLocked_keepsOpened P b .ensureOpen))
    intro outcome
    cases outcome <;> trivial
  · apply Proc.Acts.bind (hstream globalID)
    intro outcome
    cases outcome <;> trivial

/-! ## Runs -/

section Runs

variable (P : Primitives) (keys : SessionKeys) (globalID : GlobalID)
variable (dst : Address) (ws : List (Bytes × Address))

/-- Goroutines that each make one of the calls on a fresh client. -/
def writersPool :
    Pool PacketLabel StreamEnv PacketConn (ℕ × Outcome EwpError Unit) :=
  packetPool P (newClientPacketConn (newClientSecureStream keys) globalID dst) ws

def payloadOf (ws : List (Bytes × Address)) (thread : ℕ) : Bytes :=
  (ws[thread]?.map Prod.fst).getD []

theorem writersPool_meets
    (early : Prop) (thread : ℕ) (p : PacketProc (ℕ × Outcome EwpError Unit))
    (hp : (writersPool P keys globalID dst ws).threads[thread]? = some p) :
    Proc.Meets OpensOnce (WriterGuard early) PacketConn.handed
      (AtMostOwn (payloadOf ws thread)) (OwnFrame early (payloadOf ws thread))
      [] p := by
  simp only [writersPool, packetPool, List.getElem?_map,
    Option.map_eq_some_iff] at hp
  obtain ⟨w, hw, rfl⟩ := hp
  have hpayload : payloadOf ws thread = w.1 := by
    simp [payloadOf, hw]
  rw [hpayload]
  exact writeToAddress_meets P early w.1 w.2

theorem writersPool_init : OpensOnce (writersPool P keys globalID dst ws).shared :=
  ⟨rfl, by simp [writersPool, packetPool, newClientPacketConn],
    fun _ => Or.inl rfl⟩

theorem writersPool_acts :
    ∀ p ∈ (writersPool P keys globalID dst ws).threads,
      Proc.Acts KeepsOpened p := by
  intro p hp
  obtain ⟨w, _, rfl⟩ := List.mem_map.mp hp
  exact writeToAddress_acts P w.1 w.2

/-- In every run in which no call enters `ensureOpen` after the opening, every
successful call has handed over its payload in exactly one frame of its own, and
`UDP_NEW` has gone out at most once, and once when a call has succeeded. -/
theorem concurrent_writers
    (schedule : List (ℕ × StreamEnv))
    (hguard : (writersPool P keys globalID dst ws).Admits EntersUnopened
      schedule) :
    (∀ (thread : ℕ) (w : Bytes × Address) (result : ℕ × Outcome EwpError Unit),
      ws[thread]? = some w →
      ((writersPool P keys globalID dst ws).run schedule).threads[thread]? =
        some (.ret result) →
      result.2 = .ok () →
      result.1 = w.1.length ∧
        ∃ e : SentFrame, (writersPool P keys globalID dst ws).contribution
            PacketConn.handed thread schedule = [e] ∧ e.ForPayload w.1) ∧
    ((writersPool P keys globalID dst ws).run schedule).shared.handed.countP
      SentFrame.isUDPNew ≤ 1 ∧
    ((∃ (thread : ℕ) (result : ℕ × Outcome EwpError Unit),
        ((writersPool P keys globalID dst ws).run schedule).threads[thread]? =
          some (.ret result) ∧ result.2 = .ok ()) →
      ((writersPool P keys globalID dst ws).run schedule).shared.handed.countP
        SentFrame.isUDPNew = 1) := by
  have hinit := writersPool_init P keys globalID dst ws
  have hlate : (writersPool P keys globalID dst ws).Admits (WriterGuard False)
      schedule :=
    hguard.combine hguard (fun _ _ _ henter _ => ⟨henter, False.elim⟩)
  obtain ⟨hinv, hthreads⟩ :=
    Pool.run_meets (writersPool_meets P keys globalID dst ws False) hlate hinit
  refine ⟨?_, hinv.count_le, ?_⟩
  · intro thread w result hw hdone hok
    obtain ⟨hlen, e, hcontribution, hown, _⟩ := (hthreads thread _ hdone).2 hok
    have hpayload : payloadOf ws thread = w.1 := by
      simp [payloadOf, hw]
    rw [hpayload] at hlen hown
    exact ⟨hlen, e, hcontribution, hown⟩
  · rintro ⟨thread, result, hdone, hok⟩
    by_cases hopened : ((writersPool P keys globalID dst ws).run
        schedule).shared.opened = true
    · exact hinv.opened hopened
    · -- Nothing has opened the sub-session, so the call that succeeded went
      -- through `ensureOpen` and its own frame is the `UDP_NEW`.
      have hunopened := Pool.admits_of_final
        (writersPool_acts P keys globalID dst ws)
        (fun _ _ hkeeps env p => hkeeps env p) hopened
      have hearly : (writersPool P keys globalID dst ws).Admits
          (WriterGuard True) schedule :=
        hguard.combine hunopened
          (fun _ _ _ henter hnot => ⟨henter, fun _ => by simpa using hnot⟩)
      have hmeets := writersPool_meets P keys globalID dst ws True
      obtain ⟨_, e, hcontribution, _, hnew⟩ :=
        ((Pool.run_meets hmeets hearly hinit).2 thread _ hdone).2 hok
      have hlt := (List.getElem?_eq_some_iff.mp hdone).1
      rw [Pool.run_threads_length] at hlt
      have hmem := Pool.mem_log_of_mem_contribution (fun _ => []) hmeets hearly
        hinit hlt (by rw [hcontribution]; exact List.mem_singleton_self e)
      have hpos : 0 < ((writersPool P keys globalID dst ws).run
          schedule).shared.handed.countP SentFrame.isUDPNew := by
        rw [List.countP_pos_iff]
        exact ⟨e, hmem, by simp [SentFrame.isUDPNew, hnew trivial]⟩
      exact le_antisymm hinv.count_le hpos

end Runs

namespace Transparent

def writers : Pool PacketLabel StreamEnv PacketConn (ℕ × Outcome EwpError Unit) :=
  writersPool suite keys session anchor [([1], anchor), ([2], anchor)]

def oneByOne : List (ℕ × StreamEnv) :=
  [(0, streamEnv (.ok [])), (0, streamEnv (.ok [])), (1, streamEnv (.ok [])),
    (1, streamEnv (.ok [])), (1, streamEnv (.ok []))]

/-- Both calls find the sub-session not open before either opens it. -/
def bothFirst : List (ℕ × StreamEnv) :=
  [(0, streamEnv (.ok [])), (1, streamEnv (.ok [])), (0, streamEnv (.ok [])),
    (1, streamEnv (.ok []))]

end Transparent

theorem concurrent_writers_one_by_one :
    ∃ e : SentFrame, Transparent.writers.contribution PacketConn.handed 1
      Transparent.oneByOne = [e] ∧ e.ForPayload [2] :=
  ((concurrent_writers Transparent.suite Transparent.keys Transparent.session
      Transparent.anchor [([1], Transparent.anchor), ([2], Transparent.anchor)]
      Transparent.oneByOne (by decide +kernel)).1 1 ([2], Transparent.anchor)
    (1, .ok ()) rfl (Pool.finished_of_result? (by decide +kernel)) rfl).2

/-- Two first writers both report success, and only one datagram has been handed
over. -/
theorem concurrent_first_writer_lost :
    (Transparent.writers.run Transparent.bothFirst).threads.map Proc.result? =
        [some (1, .ok ()), some (1, .ok ())] ∧
      (Transparent.writers.run Transparent.bothFirst).shared.handed.map
        SentFrame.payload = [[1]] ∧
      (Transparent.writers.contribution PacketConn.handed 1
        Transparent.bothFirst).length = 0 := by
  refine ⟨by decide +kernel, by decide +kernel, by decide +kernel⟩

end SingEwp
