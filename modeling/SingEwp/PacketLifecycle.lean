import SingEwp.PacketWriters
import SingEwp.SessionLink
import SingEwp.StreamClosing
import SingEwp.UdpEvents

/-!
# The life of a UDP sub-session

`Close` of `packetconn.go` beside any number of writes, `Recv` calls of a reader
and other calls of `Close`, all of them step by step.  `ensureOpen` holds
`openedMu` while it sends `UDP_NEW`, but neither `Close` nor `Recv` takes that lock,
so the stream may be closed at any of its steps.  The body of `Close` runs in the
goroutine that was first to enter `closeOnce`; it reads `opened` without the lock,
and a write may come between `UDP_END` and the closing of the stream.

Whatever happens, the frames that go out make a sub-session: `UDP_NEW` comes
first and once, all frames name the same global ID, and there is at most one
`UDP_END`.
-/

namespace SingEwp

variable {P : Primitives}

/-! ## The steps -/

/-- A packet conn with its locks. -/
structure LivePacketConn where
  conn : PacketConn
  streamOnce : OnceState Unit := .idle
  writeMu : Option ℕ := none
  openedMu : Option ℕ := none
  /-- `closeOnce`, which leaves `closeErr`. -/
  once : OnceState (Option EwpError) := .idle
  /-- How often `underlying.Close` has been called. -/
  underlyingCloses : ℕ := 0

/-- What one action obtains from outside; two of the answers are those of the
transport's `Close` and of the underlying connection's. -/
structure LiveEnv where
  stream : StreamEnv
  trClose : Option EwpError
  underlyingClose : Option EwpError

inductive LiveLabel where
  | stream (label : ClosingLabel)
  | openedTest
  | lockOpened
  | setOpened
  | unlockOpened
  | closeEnter
  | closeUnderlying
  | closeReturn
  | closeErr

abbrev LiveProc (α : Type) := Proc LiveLabel LiveEnv LivePacketConn α

namespace LivePacketConn

def closing (p : LivePacketConn) : ClosingStream where
  stream := p.conn.stream
  closeOnce := p.streamOnce
  writeMu := p.writeMu

def setClosing (t : ClosingStream) (p : LivePacketConn) : LivePacketConn :=
  { p with
    conn := p.conn.setStream t.stream
    streamOnce := t.closeOnce
    writeMu := t.writeMu }

def closeErr (p : LivePacketConn) : Option EwpError :=
  match p.once with
  | .done err => err
  | _ => none

end LivePacketConn

def LiveLabel.ready (label : LiveLabel) (p : LivePacketConn) : Bool :=
  match label with
  | .stream label => label.ready p.closing
  | .lockOpened => p.openedMu.isNone
  | .closeEnter => !p.once.isRunning
  | _ => true

/-- A call on the stream. -/
def onClosing {α : Type} (p : ClosingProc α) : LiveProc α :=
  p.embed LiveLabel.stream (fun env _ => ⟨env.stream, env.trClose⟩)
    LivePacketConn.closing (fun _ => LivePacketConn.setClosing)

/-- `SendUDPNew` and, behind it, `opened = true`. -/
def openSession (P : Primitives) (me : ℕ) (globalID : GlobalID) (dst : Address)
    (payload : Bytes) : LiveProc (Outcome EwpError Unit) := do
  match ← onClosing (SendCall.steps P me (.udpNew globalID dst payload)) with
  | .ok () => do
      let _ ← Proc.atomic .setOpened (fun _ p =>
        ((), { p with conn := { p.conn with opened := true } }))
      pure (.ok ())
  | failed => pure failed

def openUnless (P : Primitives) (me : ℕ) (opened : Bool) (globalID : GlobalID)
    (dst : Address) (payload : Bytes) : LiveProc (Outcome EwpError Unit) :=
  if opened then pure (.ok ()) else openSession P me globalID dst payload

/-- `ensureOpen`, called by the goroutine `me`. -/
def ensureOpenSteps (P : Primitives) (me : ℕ) (payload : Bytes) :
    LiveProc (Outcome EwpError Unit) := do
  let _ ← Proc.atomic .lockOpened (fun _ p => ((), { p with openedMu := some me }))
  let (opened, globalID, dst) ← Proc.observe .openedTest
    (fun p => (p.conn.opened, p.conn.globalID, p.conn.defaultDst))
  let outcome ← openUnless P me opened globalID dst payload
  let _ ← Proc.atomic .unlockOpened (fun _ p => ((), { p with openedMu := none }))
  pure outcome

def writeToAddressSteps (P : Primitives) (me : ℕ) (b : Bytes) (target : Address) :
    LiveProc (ℕ × Outcome EwpError Unit) := do
  let (unopened, globalID) ← Proc.observe .openedTest
    (fun p => (!p.conn.isServer && !p.conn.opened, p.conn.globalID))
  if unopened then
    match ← ensureOpenSteps P me b with
    | .ok () => pure (b.length, .ok ())
    | failed => pure (0, failed)
  else
    match ← onClosing (SendCall.steps P me (.udpData globalID target b)) with
    | .ok () => pure (b.length, .ok ())
    | failed => pure (0, failed)

/-- `underlying.Close()`, whose error counts if there is none yet. -/
def closeUnderlyingConn (underlying : Bool) (err : Option EwpError) :
    LiveProc (Option EwpError) :=
  if underlying then
    Proc.atomic .closeUnderlying (fun env p =>
      (err <|> env.underlyingClose,
        { p with underlyingCloses := p.underlyingCloses + 1 }))
  else pure err

/-- The end of the body of `Close`. -/
def closeBoth (underlying : Bool) (me : ℕ) : LiveProc Unit := do
  let err ← onClosing (closeSteps me)
  let err ← closeUnderlyingConn underlying err
  Proc.atomic .closeReturn (fun _ p => ((), { p with once := .done err }))

/-- The body of `Close`.  The write deadline around `SendUDPEnd` shows in the
transport's answer only. -/
def closeBody (P : Primitives) (underlying : Bool) (me : ℕ) : LiveProc Unit := do
  let (opened, globalID) ← Proc.observe .openedTest
    (fun p => (p.conn.opened, p.conn.globalID))
  if opened && underlying then do
    let _ ← onClosing (SendCall.steps P me (.udpEnd globalID))
    closeBoth underlying me
  else closeBoth underlying me

/-- `closeOnce.Do`, called by the goroutine `me`. -/
def closeOnceDo (P : Primitives) (underlying : Bool) (me : ℕ) : LiveProc Unit := do
  let first ← Proc.atomic .closeEnter (fun _ p =>
    if p.once = .idle then (true, { p with once := .running me }) else (false, p))
  if first then closeBody P underlying me else pure ()

/-- `Close`. -/
def packetClose (P : Primitives) (underlying : Bool) (me : ℕ) :
    LiveProc (Option EwpError) := do
  let _ ← closeOnceDo P underlying me
  Proc.observe .closeErr LivePacketConn.closeErr

/-- A call on the packet conn; `recv` is one `Recv` of a `ReadFrom`. -/
inductive PacketCall where
  | write (b : Bytes) (target : Address)
  | recv
  | close

inductive PacketResult where
  | wrote (n : ℕ) (outcome : Outcome EwpError Unit)
  | received (result : ClosingResult)
  | closed (err : Option EwpError)
  deriving DecidableEq

def PacketCall.proc (P : Primitives) (underlying : Bool) (me : ℕ) :
    PacketCall → LiveProc PacketResult
  | .write b target => do
      let (n, outcome) ← writeToAddressSteps P me b target
      pure (.wrote n outcome)
  | .recv => do
      let result ← onClosing (recvSteps P me)
      pure (.received result)
  | .close => do
      let err ← packetClose P underlying me
      pure (.closed err)

def SentFrame.isUDPEnd (e : SentFrame) : Bool := e.type = frameUDPEnd

/-- The frame that opens the sub-session. -/
structure SentFrame.Opens (globalID : GlobalID) (dst : Address) (e : SentFrame) :
    Prop where
  type : e.type = frameUDPNew
  meta_eq : buildUDPMeta globalID dst = .ok e.metaBytes

/-- A frame of an open sub-session. -/
inductive SentFrame.Follows (globalID : GlobalID) (e : SentFrame) : Prop where
  | data (target : Address) (htype : e.type = frameUDPData)
      (hmeta : buildUDPMeta globalID target = .ok e.metaBytes)
  | finish (htype : e.type = frameUDPEnd) (hmeta : e.metaBytes = globalID.val)
      (hpayload : e.payload = [])

/-- What one side of a sub-session sends: the server only follows up. -/
inductive SubSession (globalID : GlobalID) (dst : Address) :
    Bool → List SentFrame → Prop where
  | silent : SubSession globalID dst false []
  | client {first : SentFrame} {rest : List SentFrame}
      (hfirst : first.Opens globalID dst)
      (hrest : ∀ e ∈ rest, e.Follows globalID) :
      SubSession globalID dst false (first :: rest)
  | server {log : List SentFrame} (hlog : ∀ e ∈ log, e.Follows globalID) :
      SubSession globalID dst true log

namespace SubSession

variable {globalID : GlobalID} {dst : Address} {server : Bool}
variable {log : List SentFrame} {e : SentFrame}

theorem append
    (hlog : SubSession globalID dst server log)
    (hopen : server = true ∨ log ≠ []) (he : e.Follows globalID) :
    SubSession globalID dst server (log ++ [e]) := by
  have hmem : ∀ rest : List SentFrame, (∀ e' ∈ rest, e'.Follows globalID) →
      ∀ e' ∈ rest ++ [e], e'.Follows globalID := by
    intro rest hrest e' he'
    rcases List.mem_append.mp he' with hold | hnew
    · exact hrest e' hold
    · rw [List.mem_singleton.mp hnew]
      exact he
  cases hlog with
  | silent => simp at hopen
  | client hfirst hrest => exact .client hfirst (hmem _ hrest)
  | server hlog => exact .server (hmem _ hlog)

end SubSession

def PacketConn.ends (c : PacketConn) : ℕ := c.handed.countP SentFrame.isUDPEnd

/-- What holds of the packet conn between any two actions.  `f` is the context in
which its stream began to send. -/
structure ConnSound (P : Primitives) (f : FrameAEAD) (globalID : GlobalID)
    (dst : Address) (server : Bool) (c : PacketConn) : Prop where
  id_eq : c.globalID = globalID
  dst_eq : c.defaultDst = dst
  server_eq : c.isServer = server
  ledger : Ledger P f c.stream
  shape : SubSession globalID dst server c.handed
  server_opened : server = true → c.opened = true
  opened : c.opened = true → server = true ∨ c.handed ≠ []

/-- The same with the locks. -/
structure LifeSound (P : Primitives) (f : FrameAEAD) (globalID : GlobalID)
    (dst : Address) (server underlying : Bool) (p : LivePacketConn) : Prop where
  conn : ConnSound P f globalID dst server p.conn
  closing : p.closing.Sound
  /-- Who takes `openedMu` may send `UDP_NEW`, or finds the stream closed. -/
  unopened : p.openedMu = none → p.conn.opened = false →
    p.conn.handed = [] ∨ p.conn.stream.closed = true
  idle : p.once = .idle → p.conn.ends = 0 ∧ p.underlyingCloses = 0
  ends_le : p.conn.ends ≤ 1
  closes_le : p.underlyingCloses ≤ 1
  bare : underlying = false → p.conn.ends = 0 ∧ p.underlyingCloses = 0
  done : ∀ err, p.once = .done err → p.closing.Ended ∧
    p.underlyingCloses = if underlying then 1 else 0

/-! ## Rely and guarantee -/

/-- What only the goroutine inside `closeOnce` changes. -/
structure SameEnds (p p' : LivePacketConn) : Prop where
  once : p'.once = p.once
  ends : p'.conn.ends = p.conn.ends
  closes : p'.underlyingCloses = p.underlyingCloses

/-- What only the goroutine that has `openedMu` changes. -/
structure SameOpening (p p' : LivePacketConn) : Prop where
  openedMu : p'.openedMu = p.openedMu
  opened : p'.conn.opened = p.conn.opened
  handed : p.conn.opened = false → p'.conn.handed = p.conn.handed

structure LifeRelies (me : ℕ) (p p' : LivePacketConn) : Prop where
  opened : p.conn.opened = true → p'.conn.opened = true
  closing : p.closing.Relies me p'.closing
  holder : p.openedMu = some me → SameOpening p p'
  done : ∀ err, p.once = .done err → p'.once = .done err
  own : p.once = .running me → SameEnds p p'

/-- An action of `me`. -/
def LifeMoves (me : ℕ) (p p' : LivePacketConn) : Prop :=
  ∀ other, other ≠ me → LifeRelies other p p'

theorem LifeRelies.refl (me : ℕ) (p : LivePacketConn) : LifeRelies me p p :=
  ⟨id, .refl me _, fun _ => ⟨rfl, rfl, fun _ => rfl⟩, fun _ => id,
    fun _ => ⟨rfl, rfl, rfl⟩⟩

theorem LifeRelies.trans
    {me : ℕ} {a b c : LivePacketConn} (hab : LifeRelies me a b)
    (hbc : LifeRelies me b c) : LifeRelies me a c where
  opened := fun h => hbc.opened (hab.opened h)
  closing := hab.closing.trans hbc.closing
  holder := by
    intro hmine
    have hfirst := hab.holder hmine
    have hsecond := hbc.holder (hfirst.openedMu.trans hmine)
    exact ⟨hsecond.openedMu.trans hfirst.openedMu, hsecond.opened.trans hfirst.opened,
      fun hnew => (hsecond.handed (hfirst.opened.trans hnew)).trans
        (hfirst.handed hnew)⟩
  done := fun err h => hbc.done err (hab.done err h)
  own := by
    intro hown
    have hfirst := hab.own hown
    have hsecond := hbc.own (hfirst.once.trans hown)
    exact ⟨hsecond.once.trans hfirst.once, hsecond.ends.trans hfirst.ends,
      hsecond.closes.trans hfirst.closes⟩

/-- What `me` knows and keeps, whatever the others and its own calls of `Close` and
`Recv` on the stream do. -/
structure Keeps (me : ℕ) (K : LivePacketConn → Prop) : Prop where
  others : ∀ {p p'}, LifeRelies me p p' → K p → K p'
  stream : ∀ {p : LivePacketConn} {t}, p.closing.QuietMoves me t → K p →
    K (p.setClosing t)

section Life

variable {f : FrameAEAD} {globalID : GlobalID} {dst : Address}
variable {server underlying : Bool} {me : ℕ}

abbrev LiveGrants {α : Type} (P : Primitives) (f : FrameAEAD)
    (globalID : GlobalID) (dst : Address) (server underlying : Bool) (me : ℕ)
    (Post : α → LivePacketConn → Prop) (p : LivePacketConn) (q : LiveProc α) :
    Prop :=
  Proc.GrantsWhen LiveLabel.ready (LifeRelies me) (fun _ => LifeMoves me)
    (LifeSound P f globalID dst server underlying) Post p q

theorem look_grants
    {α : Type} {label : LiveLabel} {read : LivePacketConn → α}
    {Post : α → LivePacketConn → Prop} (p : LivePacketConn)
    (hread : ∀ p', LifeRelies me p p' →
      LifeSound P f globalID dst server underlying p' → Post (read p') p') :
    LiveGrants P f globalID dst server underlying me Post p
      (Proc.observe label read) :=
  Proc.GrantsWhen.atomic fun _ p' hrelies hsound _ =>
    ⟨hsound, fun other _ => .refl other p', hread p' hrelies hsound⟩

/-! ## Calls on the stream -/

/-- The stream has moved, and has handed over nothing. -/
theorem LifeSound.setQuiet
    {p : LivePacketConn} {t : ClosingStream}
    (hsound : LifeSound P f globalID dst server underlying p) (ht : t.Sound)
    (hmoves : p.closing.QuietMoves me t) :
    LifeSound P f globalID dst server underlying (p.setClosing t) ∧
      LifeMoves me p (p.setClosing t) := by
  have hlog : (p.setClosing t).conn.handed = p.conn.handed := hmoves.handed
  have hends : (p.setClosing t).conn.ends = p.conn.ends := by
    rw [PacketConn.ends, hlog]
    rfl
  refine ⟨⟨{ hsound.conn with
      ledger := hsound.conn.ledger.of_eq hmoves.send hmoves.handed
      shape := ?_
      opened := ?_ }, ht, ?_, ?_, ?_, hsound.closes_le, ?_, ?_⟩, ?_⟩
  · rw [hlog]
    exact hsound.conn.shape
  · rw [hlog]
    exact hsound.conn.opened
  · intro hfree hnew
    rw [hlog]
    exact (hsound.unopened hfree hnew).imp_right hmoves.moves.closed
  · rw [hends]
    exact hsound.idle
  · rw [hends]
    exact hsound.ends_le
  · rw [hends]
    exact hsound.bare
  · exact fun err hdone =>
      ⟨hmoves.moves.ended (hsound.done err hdone).1, (hsound.done err hdone).2⟩
  · exact fun other hne => ⟨id, hmoves.moves other hne,
      fun _ => ⟨rfl, rfl, fun _ => hlog⟩, fun _ => id, fun _ => ⟨rfl, hends, rfl⟩⟩

/-- What hands nothing over leaves to `me` what it knows. -/
theorem onClosing_quiet
    {α : Type} {Post : α → ClosingStream → Prop} {K : LivePacketConn → Prop}
    {p : LivePacketConn} {q : ClosingProc α} (hkeeps : Keeps me K) (hnow : K p)
    (hgrants : ClosingGrants me (ClosingStream.QuietMoves me) Post p.closing q) :
    LiveGrants P f globalID dst server underlying me
      (fun result p => Post result p.closing ∧ K p) p (onClosing q) := by
  have hembed : Proc.GrantsWhen LiveLabel.ready (LifeRelies me)
      (fun _ p p' => LifeMoves me p p' ∧ (K p → K p'))
      (LifeSound P f globalID dst server underlying)
      (fun result p => Post result p.closing) p (onClosing q) := by
    refine Proc.GrantsWhen.embed (fun _ _ _ => rfl) ?_ ?_ ?_ ?_ hgrants
    · exact id
    · exact fun hrelies => hrelies.closing
    · exact fun hsound => hsound.closing
    · intro label env t p hsound ht hmoves
      obtain ⟨hnext, hmove⟩ := hsound.setQuiet ht hmoves
      exact ⟨hnext, hmove, hkeeps.stream hmoves⟩
  refine (Proc.GrantsWhen.frame ?_ ?_ hnow hembed).mono ?_ fun _ _ => id
  · exact hkeeps.others
  · exact fun hmoves => hmoves.2
  · exact fun hmoves => hmoves.1

theorem onClosing_bind {α β : Type} (q : ClosingProc α) (rest : α → ClosingProc β) :
    onClosing (q.bind rest) = (onClosing q).bind (fun r => onClosing (rest r)) :=
  Proc.embed_bind _ _ _ _ q rest

/-- A frame has been handed over. -/
theorem LifeSound.setSent
    {p : LivePacketConn} (hsound : LifeSound P f globalID dst server underlying p)
    {s : SecureStream} {e : SentFrame} (me : ℕ) (hledger : Ledger P f s)
    (hlife : s.closed = p.conn.stream.closed ∧
      s.trCloses = p.conn.stream.trCloses)
    (hhanded : s.handed = p.conn.handed ++ [e])
    (hshape : SubSession globalID dst server (p.conn.handed ++ [e]))
    (hmine : p.conn.opened = true ∨ p.openedMu = some me)
    (hend : e.type = frameUDPEnd →
      underlying = true ∧ p.once = .running me ∧ p.conn.ends = 0) :
    LifeSound P f globalID dst server underlying
        (p.setClosing (p.closing.setStream s)) ∧
      LifeMoves me p (p.setClosing (p.closing.setStream s)) := by
  obtain ⟨hclosed, hcloses⟩ := hlife
  have hclosing : p.closing.Moves me (p.closing.setStream s) :=
    .of_eq rfl hclosed hcloses
  have hlog : (p.setClosing (p.closing.setStream s)).conn.handed =
      p.conn.handed ++ [e] := hhanded
  have hends : (p.setClosing (p.closing.setStream s)).conn.ends = p.conn.ends ∨
      underlying = true ∧ p.once = .running me ∧
        (p.setClosing (p.closing.setStream s)).conn.ends ≤ 1 := by
    rw [PacketConn.ends, hlog, List.countP_append, List.countP_singleton]
    by_cases htype : e.type = frameUDPEnd
    · obtain ⟨hunderlying, howner, hnone⟩ := hend htype
      refine Or.inr ⟨hunderlying, howner, ?_⟩
      rw [show p.conn.handed.countP SentFrame.isUDPEnd = 0 from hnone]
      split
      · exact le_refl 1
      · exact Nat.zero_le 1
    · left
      simp [SentFrame.isUDPEnd, htype, PacketConn.ends]
  refine ⟨⟨{ hsound.conn with
      ledger := hledger
      shape := by rw [hlog]; exact hshape
      opened := fun _ => Or.inr (by simp [hlog]) },
    hsound.closing.of_eq rfl hclosed hcloses, ?_, ?_, ?_, hsound.closes_le, ?_,
    fun err hdone => ⟨hclosing.ended (hsound.done err hdone).1,
      (hsound.done err hdone).2⟩⟩, ?_⟩
  · intro hfree hnew
    rcases hmine with hopened | hheld
    · exact absurd (hopened.symm.trans hnew) (by simp)
    · exact absurd (hheld.symm.trans hfree) (by simp)
  · intro hidle
    rcases hends with hsame | ⟨_, howner, _⟩
    · exact ⟨hsame.trans (hsound.idle hidle).1, (hsound.idle hidle).2⟩
    · exact absurd (howner.symm.trans hidle) (by simp)
  · rcases hends with hsame | ⟨_, _, hle⟩
    · exact hsame.le.trans hsound.ends_le
    · exact hle
  · intro hbare
    rcases hends with hsame | ⟨hunderlying, _⟩
    · exact ⟨hsame.trans (hsound.bare hbare).1, (hsound.bare hbare).2⟩
    · exact absurd (hunderlying.symm.trans hbare) (by simp)
  · -- who else has a lock or is inside `closeOnce` is not concerned
    intro other hne
    refine ⟨id, hclosing other hne, fun hheld => ⟨rfl, rfl, fun hnew => ?_⟩,
      fun _ => id, fun hrunning => ⟨rfl, ?_, rfl⟩⟩
    · rcases hmine with hopened | hmine
      · exact absurd (hopened.symm.trans hnew) (by simp)
      · rw [hheld] at hmine
        cases hmine
        exact absurd rfl hne
    · rcases hends with hsame | ⟨_, howner, _⟩
      · exact hsame
      · rw [hrunning] at howner
        cases howner
        exact absurd rfl hne

/-- The locked section of `sendFrame`, with what `me` knows behind it. -/
def SendsWell (P : Primitives) (f : FrameAEAD) (globalID : GlobalID) (dst : Address)
    (server underlying : Bool) (me : ℕ) (t : FrameType) (metaBytes payload : Bytes)
    (K : LivePacketConn → Prop) (Q : Outcome EwpError Unit → LivePacketConn → Prop) :
    Prop :=
  ∀ padLen env p, LifeSound P f globalID dst server underlying p → K p →
    LifeSound P f globalID dst server underlying (p.setClosing (p.closing.setStream
      (sendFrameBody P t metaBytes payload padLen env p.conn.stream).2)) ∧
    LifeMoves me p (p.setClosing (p.closing.setStream
      (sendFrameBody P t metaBytes payload padLen env p.conn.stream).2)) ∧
    Q (sendFrameBody P t metaBytes payload padLen env p.conn.stream).1
      (p.setClosing (p.closing.setStream
        (sendFrameBody P t metaBytes payload padLen env p.conn.stream).2))

/-- A frame that cannot be encoded leaves everything as it was, and one that is handed
over has to fit. -/
theorem sendsWell_of
    {t : FrameType} {metaBytes payload : Bytes} {K : LivePacketConn → Prop}
    {Q : Outcome EwpError Unit → LivePacketConn → Prop}
    (hshape : ∀ p wire, LifeSound P f globalID dst server underlying p → K p →
      SubSession globalID dst server
        (p.conn.handed ++ [⟨t, metaBytes, payload, wire⟩]))
    (hmine : ∀ p, K p → p.conn.opened = true ∨ p.openedMu = some me)
    (hend : t = frameUDPEnd → underlying = true ∧
      ∀ p, K p → p.once = .running me ∧ p.conn.ends = 0)
    (hkept : ∀ outcome p u, outcome ≠ .ok () → p.closing.QuietMoves me u → K p →
      Q outcome (p.setClosing u))
    (hsent : ∀ outcome p s wire,
      (outcome = .ok () ∨ ∃ e, outcome = .error (.transportSend e)) →
      s.handed = p.conn.handed ++ [⟨t, metaBytes, payload, wire⟩] → K p →
      Q outcome (p.setClosing (p.closing.setStream s))) :
    SendsWell P f globalID dst server underlying me t metaBytes payload K Q := by
  intro padLen env p hsound hnow
  have hledger := sendFrameBody_ledger hsound.conn.ledger t metaBytes payload padLen env
  have hlife := sendFrameBody_life (P := P) t metaBytes payload padLen env p.conn.stream
  have hhanded := sendFrameBody_handed (P := P) t metaBytes payload padLen env
    p.conn.stream
  generalize sendFrameBody P t metaBytes payload padLen env p.conn.stream = r
    at hledger hlife hhanded ⊢
  rcases hhanded with ⟨hfailed, hsend, hsame⟩ | ⟨wire, hnew, hout⟩
  · have hquiet : p.closing.QuietMoves me (p.closing.setStream r.2) :=
      ⟨.of_eq rfl hlife.1 hlife.2, hsend, hsame⟩
    have hclosing : (p.closing.setStream r.2).Sound :=
      hsound.closing.of_eq rfl hlife.1 hlife.2
    obtain ⟨hnext, hmoves⟩ := hsound.setQuiet hclosing hquiet
    exact ⟨hnext, hmoves, hkept r.1 p _ hfailed hquiet hnow⟩
  · obtain ⟨hnext, hmoves⟩ := hsound.setSent me hledger hlife hnew
      (hshape p wire hsound hnow) (hmine p hnow)
      fun htype => ⟨(hend htype).1, (hend htype).2 p hnow⟩
    exact ⟨hnext, hmoves, hsent r.1 p r.2 wire hout hnew hnow⟩

/-- A send knows `K` before its test of `closed` and `K'` behind it. -/
theorem onClosing_sendFrame
    {t : FrameType} {metaBytes payload : Bytes} {padLen : ℤ}
    {K K' : LivePacketConn → Prop} {Q : Outcome EwpError Unit → LivePacketConn → Prop}
    {p : LivePacketConn} (hK : Keeps me K) (hK' : Keeps me K')
    (hQ : ∀ outcome, Keeps me (Q outcome))
    (hopen : ∀ p, K p → p.conn.stream.closed = false → K' p)
    (hrefused : ∀ p, K p → p.conn.stream.closed = true →
      Q (.error (.io .closedPipe)) p)
    (hsends : SendsWell P f globalID dst server underlying me t metaBytes payload K' Q)
    (hnow : K p) :
    LiveGrants P f globalID dst server underlying me
      (fun outcome p => LostAndClosed outcome p.closing ∧ Q outcome p) p
      (onClosing (sendFrameSteps P me t metaBytes payload padLen)) := by
  unfold sendFrameSteps
  rw [Proc.bind_eq, onClosing_bind]
  refine Proc.GrantsWhen.bind (onClosing_quiet hK hnow (closedTest_grants _)) ?_
  rintro closed p ⟨hclosed, hnow⟩
  split
  · rename_i hset
    exact ⟨nofun, hrefused p hnow (hclosed.trans hset)⟩
  rename_i hunset
  have hnow' : K' p := hopen p hnow (hclosed.trans (by simpa using hunset))
  rw [Proc.bind_eq, onClosing_bind]
  refine Proc.GrantsWhen.bind
    (onClosing_quiet hK' hnow' (writeMu_grants .lockWrite (some me) _)) ?_
  rintro _ p ⟨_, hnow⟩
  rw [Proc.bind_eq, onClosing_bind]
  have hbody : LiveGrants P f globalID dst server underlying me Q p
      (onClosing (Proc.atomic .sendBody (fun env u =>
        ((sendFrameBody P t metaBytes payload padLen env.stream u.stream).1,
          u.setStream
            (sendFrameBody P t metaBytes payload padLen env.stream u.stream).2)))) := by
    rw [onClosing, Proc.embed_atomic]
    exact Proc.GrantsWhen.atomic fun env p' hrelies hsound _ =>
      hsends padLen env.stream p' hsound (hK'.others hrelies hnow)
  refine Proc.GrantsWhen.bind hbody ?_
  intro outcome p hafter
  rw [Proc.bind_eq, onClosing_bind]
  refine Proc.GrantsWhen.bind
    (onClosing_quiet (hQ outcome) hafter (closeIfLost_grants me outcome _)) ?_
  rintro _ p ⟨hlost, hafter⟩
  rw [Proc.bind_eq, onClosing_bind]
  have hkeeps : Keeps me (fun p => LostAndClosed outcome p.closing ∧ Q outcome p) :=
    ⟨fun hrelies h => ⟨fun hgone => hrelies.closing.ended (h.1 hgone),
        (hQ outcome).others hrelies h.2⟩,
      fun hmoves h => ⟨fun hgone => hmoves.moves.ended (h.1 hgone),
        (hQ outcome).stream hmoves h.2⟩⟩
  exact Proc.GrantsWhen.bind
    (onClosing_quiet hkeeps ⟨hlost, hafter⟩ (writeMu_grants .unlockWrite none _))
    fun _ _ hboth => hboth.2

/-! ## Opening -/

/-- `me` has `openedMu` and has not set `opened`; `A` holds of the frames and of the
flag. -/
structure Opening (me : ℕ) (A : List SentFrame → Bool → Prop) (p : LivePacketConn) :
    Prop where
  held : p.openedMu = some me
  unopened : p.conn.opened = false
  log : A p.conn.handed p.conn.stream.closed

theorem opening_keeps
    {A : List SentFrame → Bool → Prop} (hA : ∀ log, A log false → A log true) :
    Keeps me (Opening me A) := by
  have hgrown : ∀ {log : List SentFrame} {b b' : Bool}, (b = true → b' = true) →
      A log b → A log b' := by
    intro log b b' hle hlog
    cases b with
    | true =>
        rw [hle rfl]
        exact hlog
    | false =>
        cases b' with
        | true => exact hA log hlog
        | false => exact hlog
  constructor
  · intro p p' hrelies hopening
    have hsame := hrelies.holder hopening.held
    refine ⟨hsame.openedMu.trans hopening.held,
      hsame.opened.trans hopening.unopened, ?_⟩
    rw [hsame.handed hopening.unopened]
    exact hgrown hrelies.closing.closed hopening.log
  · intro p t hmoves hopening
    have hlog : (p.setClosing t).conn.handed = p.conn.handed := hmoves.handed
    refine ⟨hopening.held, hopening.unopened, ?_⟩
    rw [hlog]
    exact hgrown hmoves.moves.closed hopening.log

/-- What `SendUDPNew` leaves behind. -/
def AfterNew (outcome : Outcome EwpError Unit) (log : List SentFrame)
    (closed : Bool) : Prop :=
  (outcome = .ok () → log ≠ []) ∧
    (outcome ≠ .ok () →
      log = [] ∨ closed = true ∨ ∃ e, outcome = .error (.transportSend e))

/-- `UDP_NEW` is the first frame of the log, if it gets there. -/
theorem sendsWell_new
    {metaBytes payload : Bytes} (hbuild : buildUDPMeta globalID dst = .ok metaBytes) :
    SendsWell P f globalID dst server underlying me frameUDPNew metaBytes payload
      (Opening me (fun log _ => log = []))
      (fun outcome => Opening me (AfterNew outcome)) := by
  refine sendsWell_of ?_ (fun _ hopening => Or.inr hopening.held) ?_ ?_ ?_
  · intro p wire hsound hopening
    have hclient : server = false := by
      cases server with
      | false => rfl
      | true =>
          exact absurd (hsound.conn.server_opened rfl) (by simp [hopening.unopened])
    subst hclient
    rw [hopening.log, List.nil_append]
    exact .client ⟨rfl, hbuild⟩ (by simp)
  · intro hend
    exact absurd hend (by decide)
  · intro outcome p u hfailed hquiet hopening
    have hlog : (p.setClosing u).conn.handed = p.conn.handed := hquiet.handed
    exact ⟨hopening.held, hopening.unopened, fun hok => absurd hok hfailed,
      fun _ => Or.inl (hlog.trans hopening.log)⟩
  · intro outcome p s wire hout hnew hopening
    refine ⟨hopening.held, hopening.unopened, fun _ => ?_, fun hbad => ?_⟩
    · change s.handed ≠ []
      simp [hnew]
    · exact Or.inr (Or.inr (hout.resolve_left hbad))

/-- `me` has `openedMu`; as long as `opened` is not set, it may send `UDP_NEW`, or
finds the stream closed. -/
structure Locked (me : ℕ) (p : LivePacketConn) : Prop where
  held : p.openedMu = some me
  log : p.conn.opened = false → p.conn.handed = [] ∨ p.conn.stream.closed = true

theorem locked_keeps : Keeps me (Locked me) := by
  constructor
  · intro p p' hrelies hlocked
    have hsame := hrelies.holder hlocked.held
    refine ⟨hsame.openedMu.trans hlocked.held, fun hnew => ?_⟩
    rw [hsame.opened] at hnew
    rw [hsame.handed hnew]
    exact (hlocked.log hnew).imp_right hrelies.closing.closed
  · intro p t hmoves hlocked
    have hlog : (p.setClosing t).conn.handed = p.conn.handed := hmoves.handed
    refine ⟨hlocked.held, fun hnew => ?_⟩
    rw [hlog]
    exact (hlocked.log hnew).imp_right hmoves.moves.closed

/-- The holder of `openedMu` sets `opened` or gives up the lock. -/
theorem LifeSound.setOpening
    {p : LivePacketConn} (hsound : LifeSound P f globalID dst server underlying p)
    (me : ℕ) (opened : Bool) (mu : Option ℕ)
    (hheld : ∀ other, other ≠ me → p.openedMu ≠ some other)
    (hgrows : p.conn.opened = true → opened = true)
    (hopened : opened = true → server = true ∨ p.conn.handed ≠ [])
    (hunopened : mu = none → opened = false →
      p.conn.handed = [] ∨ p.conn.stream.closed = true) :
    LifeSound P f globalID dst server underlying
        { p with conn := { p.conn with opened := opened }, openedMu := mu } ∧
      LifeMoves me p
        { p with conn := { p.conn with opened := opened }, openedMu := mu } :=
  ⟨{ hsound with
      conn := { hsound.conn with
        server_opened := fun hserver => hgrows (hsound.conn.server_opened hserver)
        opened := hopened }
      unopened := hunopened },
    fun other hne => ⟨hgrows, .refl other _, fun h => absurd h (hheld other hne),
      fun _ => id, fun _ => ⟨rfl, rfl, rfl⟩⟩⟩

theorem ne_of_held
    {p : LivePacketConn} (hheld : p.openedMu = some me) (other : ℕ)
    (hne : other ≠ me) : p.openedMu ≠ some other := by
  intro hother
  rw [hheld] at hother
  cases hother
  exact hne rfl

theorem openSession_grants
    {p : LivePacketConn}
    (hnow : Opening me (fun log closed => log = [] ∨ closed = true) p)
    (payload : Bytes) :
    LiveGrants P f globalID dst server underlying me (fun _ => Locked me) p
      (openSession P me globalID dst payload) := by
  have hsend : LiveGrants P f globalID dst server underlying me
      (fun outcome p => LostAndClosed outcome p.closing ∧
        Opening me (AfterNew outcome) p) p
      (onClosing (SendCall.steps P me (.udpNew globalID dst payload))) := by
    change LiveGrants P f globalID dst server underlying me _ p (onClosing
      (sendAddressedOver (sendFrameSteps P me) frameUDPNew globalID dst payload))
    unfold sendAddressedOver
    cases hbuild : buildUDPMeta globalID dst with
    | error e =>
        obtain ⟨rfl, _⟩ := (buildUDPMeta_error_iff globalID dst e).mp hbuild
        refine ⟨nofun, hnow.held, hnow.unopened, nofun, fun _ => ?_⟩
        exact hnow.log.imp_right Or.inl
    | ok metaBytes =>
        refine onClosing_sendFrame (opening_keeps fun _ => Or.imp_right fun _ => rfl)
          (opening_keeps fun _ => id) (fun outcome => opening_keeps ?_) ?_ ?_
          (sendsWell_new hbuild) hnow
        · exact fun log hlog => ⟨hlog.1, fun hbad =>
            (hlog.2 hbad).imp_right fun h => h.elim nofun Or.inr⟩
        · intro p hopening hclosed
          refine ⟨hopening.held, hopening.unopened, hopening.log.resolve_right ?_⟩
          simp [hclosed]
        · exact fun p hopening _ => ⟨hopening.held, hopening.unopened, nofun,
            fun _ => hopening.log.imp_right Or.inl⟩
  refine Proc.GrantsWhen.bind hsend ?_
  rintro outcome p ⟨hlost, hafter⟩
  have hfailed : outcome ≠ .ok () → Locked me p := by
    refine fun hbad => ⟨hafter.held, fun _ => (hafter.log.2 hbad).imp_right ?_⟩
    rintro (hclosed | hgone)
    · exact hclosed
    · exact (hlost hgone).closed
  cases outcome with
  | ok u =>
      have hset : LiveGrants P f globalID dst server underlying me
          (fun _ => Locked me) p (Proc.atomic .setOpened (fun _ p =>
            ((), { p with conn := { p.conn with opened := true } }))) := by
        refine Proc.GrantsWhen.atomic fun env p' hrelies hsound _ => ?_
        have hafter' := (opening_keeps fun log hlog =>
          ⟨hlog.1, fun hbad => absurd rfl hbad⟩).others hrelies hafter
        obtain ⟨hnext, hmoves⟩ := hsound.setOpening me true p'.openedMu
          (ne_of_held hafter'.held) (fun _ => rfl) (fun _ => Or.inr (hafter'.log.1 rfl))
          (fun hnone _ => absurd (hafter'.held.symm.trans hnone) (by simp))
        exact ⟨hnext, hmoves, hafter'.held, nofun⟩
      exact Proc.GrantsWhen.bind hset fun _ _ hlocked => hlocked
  | error e => exact hfailed nofun
  | panic => exact hfailed nofun

theorem ensureOpenSteps_grants (p : LivePacketConn) (payload : Bytes) :
    LiveGrants P f globalID dst server underlying me (fun _ _ => True) p
      (ensureOpenSteps P me payload) := by
  have hlock : LiveGrants P f globalID dst server underlying me
      (fun _ => Locked me) p (Proc.atomic .lockOpened (fun _ p =>
        ((), { p with openedMu := some me }))) := by
    refine Proc.GrantsWhen.atomic fun env p' _ hsound hready => ?_
    have hnone : p'.openedMu = none := by simpa [LiveLabel.ready] using hready
    obtain ⟨hnext, hmoves⟩ := hsound.setOpening me p'.conn.opened (some me)
      (by simp [hnone]) id hsound.conn.opened nofun
    exact ⟨hnext, hmoves, rfl, hsound.unopened hnone⟩
  refine Proc.GrantsWhen.bind hlock ?_
  intro _ p hlocked
  have htest : LiveGrants P f globalID dst server underlying me
      (fun seen p => Locked me p ∧ p.conn.opened = seen.1 ∧ seen.2.1 = globalID ∧
        seen.2.2 = dst) p
      (Proc.observe .openedTest
        (fun p => (p.conn.opened, p.conn.globalID, p.conn.defaultDst))) :=
    look_grants p fun p' hrelies hsound =>
      ⟨locked_keeps.others hrelies hlocked, rfl, hsound.conn.id_eq, hsound.conn.dst_eq⟩
  refine Proc.GrantsWhen.bind htest ?_
  rintro ⟨opened, seenID, seenDst⟩ p ⟨hlocked, hseen, rfl, rfl⟩
  have hmiddle : LiveGrants P f seenID seenDst server underlying me
      (fun _ => Locked me) p (openUnless P me opened seenID seenDst payload) := by
    cases opened with
    | true => exact hlocked
    | false => exact openSession_grants ⟨hlocked.held, hseen, hlocked.log hseen⟩ payload
  refine Proc.GrantsWhen.bind hmiddle ?_
  intro outcome p hlocked
  have hunlock : LiveGrants P f seenID seenDst server underlying me
      (fun _ _ => True) p (Proc.atomic .unlockOpened (fun _ p =>
        ((), { p with openedMu := none }))) := by
    refine Proc.GrantsWhen.atomic fun env p' hrelies hsound _ => ?_
    have hlocked' := locked_keeps.others hrelies hlocked
    obtain ⟨hnext, hmoves⟩ := hsound.setOpening me p'.conn.opened none
      (ne_of_held hlocked'.held) id hsound.conn.opened fun _ => hlocked'.log
    exact ⟨hnext, hmoves, trivial⟩
  exact Proc.GrantsWhen.bind hunlock fun _ _ _ => trivial

/-! ## Frames of the open sub-session -/

/-- A frame of the open sub-session; only the goroutine inside `closeOnce` sends
`UDP_END`, and once. -/
theorem sendsWell_follow
    {t : FrameType} {metaBytes payload : Bytes} {K : LivePacketConn → Prop}
    {Q : Outcome EwpError Unit → LivePacketConn → Prop}
    (hfollows : ∀ wire, SentFrame.Follows globalID ⟨t, metaBytes, payload, wire⟩)
    (hopened : ∀ p, K p → p.conn.opened = true)
    (hend : t = frameUDPEnd → underlying = true ∧
      ∀ p, K p → p.once = .running me ∧ p.conn.ends = 0)
    (hQ : ∀ outcome p u, K p → Q outcome (p.setClosing u)) :
    SendsWell P f globalID dst server underlying me t metaBytes payload K Q :=
  sendsWell_of
    (fun p wire hsound hnow => hsound.conn.shape.append
      (hsound.conn.opened (hopened p hnow)) (hfollows wire))
    (fun p hnow => Or.inl (hopened p hnow)) hend
    (fun outcome p u _ _ hnow => hQ outcome p u hnow)
    (fun outcome p _ _ _ _ hnow => hQ outcome p _ hnow)

theorem opened_keeps : Keeps me (fun p => p.conn.opened = true) :=
  ⟨fun hrelies => hrelies.opened, fun _ => id⟩

theorem sendUDPData_grants
    {p : LivePacketConn} (hopened : p.conn.opened = true) (target : Address)
    (b : Bytes) :
    LiveGrants P f globalID dst server underlying me (fun _ _ => True) p
      (onClosing (SendCall.steps P me (.udpData globalID target b))) := by
  change LiveGrants P f globalID dst server underlying me _ p (onClosing
    (sendAddressedOver (sendFrameSteps P me) frameUDPData globalID target b))
  unfold sendAddressedOver
  cases hbuild : buildUDPMeta globalID target with
  | error e => trivial
  | ok metaBytes =>
      have hdata : ¬frameUDPData = frameUDPEnd := by decide
      have hsends : SendsWell P f globalID dst server underlying me frameUDPData
          metaBytes b (fun p => p.conn.opened = true) (fun _ _ => True) :=
        sendsWell_follow (fun wire => .data target rfl hbuild) (fun _ => id)
          (fun h => absurd h hdata) fun _ _ _ _ => trivial
      exact (onClosing_sendFrame opened_keeps opened_keeps
        (fun _ => ⟨fun _ => id, fun _ => id⟩) (fun _ h _ => h) (fun _ _ _ => trivial)
        hsends hopened).mono id fun _ _ _ => trivial

theorem writeToAddressSteps_grants
    (p : LivePacketConn) (b : Bytes) (target : Address) :
    LiveGrants P f globalID dst server underlying me (fun _ _ => True) p
      (writeToAddressSteps P me b target) := by
  have htest : LiveGrants P f globalID dst server underlying me
      (fun seen p => seen.2 = globalID ∧ (seen.1 = false → p.conn.opened = true)) p
      (Proc.observe .openedTest
        (fun p => (!p.conn.isServer && !p.conn.opened, p.conn.globalID))) := by
    refine look_grants p fun p' _ hsound => ⟨hsound.conn.id_eq, fun hseen => ?_⟩
    cases hopened : p'.conn.opened with
    | true => rfl
    | false =>
        have hserver : p'.conn.isServer = true := by simpa [hopened] using hseen
        rw [hsound.conn.server_eq] at hserver
        exact hopened.symm.trans (hsound.conn.server_opened hserver)
  refine Proc.GrantsWhen.bind htest ?_
  rintro ⟨unopened, seenID⟩ p ⟨rfl, hopened⟩
  cases unopened with
  | true =>
      refine Proc.GrantsWhen.bind (ensureOpenSteps_grants p b) ?_
      intro outcome p _
      cases outcome <;> trivial
  | false =>
      refine Proc.GrantsWhen.bind (sendUDPData_grants (hopened rfl) target b) ?_
      intro outcome p _
      cases outcome <;> trivial

/-! ## The closer -/

/-- The goroutine inside `closeOnce`, before it has called `underlying.Close`. -/
structure Inside (me : ℕ) (p : LivePacketConn) : Prop where
  once : p.once = .running me
  closes : p.underlyingCloses = 0

theorem inside_keeps : Keeps me (Inside me) := by
  constructor
  · intro p p' hrelies hinside
    have hsame := hrelies.own hinside.once
    exact ⟨hsame.once.trans hinside.once, hsame.closes.trans hinside.closes⟩
  · exact fun _ hinside => ⟨hinside.once, hinside.closes⟩

/-- Before `UDP_END`. -/
structure Ending (me : ℕ) (p : LivePacketConn) : Prop extends Inside me p where
  ends : p.conn.ends = 0
  opened : p.conn.opened = true

theorem ending_keeps : Keeps me (Ending me) := by
  constructor
  · intro p p' hrelies hending
    exact ⟨inside_keeps.others hrelies hending.toInside,
      (hrelies.own hending.once).ends.trans hending.ends,
      hrelies.opened hending.opened⟩
  · intro p t hmoves hending
    have hlog : (p.setClosing t).conn.handed = p.conn.handed := hmoves.handed
    refine ⟨inside_keeps.stream hmoves hending.toInside, ?_, hending.opened⟩
    rw [PacketConn.ends, hlog]
    exact hending.ends

theorem sendUDPEnd_grants {p : LivePacketConn} (hending : Ending me p) :
    LiveGrants P f globalID dst server true me (fun _ => Inside me) p
      (onClosing (SendCall.steps P me (.udpEnd globalID))) := by
  have hsends : SendsWell P f globalID dst server true me frameUDPEnd globalID.val []
      (Ending me) (fun _ => Inside me) :=
    sendsWell_follow (fun wire => .finish rfl rfl rfl) (fun _ h => h.opened)
      (fun _ => ⟨rfl, fun _ h => ⟨h.once, h.ends⟩⟩) fun _ _ _ h => ⟨h.once, h.closes⟩
  exact (onClosing_sendFrame ending_keeps ending_keeps (fun _ => inside_keeps)
    (fun _ h _ => h) (fun _ h _ => h.toInside) hsends hending).mono id fun _ _ h => h.2

/-- What the owner of `closeOnce` does to `closeOnce` concerns no other owner. -/
theorem LifeSound.setOwned
    {p : LivePacketConn} (hsound : LifeSound P f globalID dst server underlying p)
    (once : OnceState (Option EwpError)) {closes : ℕ}
    (howner : p.once = .running me) (hidle : once ≠ .idle) (hle : closes ≤ 1)
    (hbare : underlying = false → closes = 0)
    (hdone : ∀ err, once = .done err → p.closing.Ended ∧
      closes = if underlying then 1 else 0) :
    LifeSound P f globalID dst server underlying
        { p with once := once, underlyingCloses := closes } ∧
      LifeMoves me p { p with once := once, underlyingCloses := closes } := by
  refine ⟨{ hsound with
    idle := fun h => absurd h hidle
    closes_le := hle
    bare := fun h => ⟨(hsound.bare h).1, hbare h⟩
    done := hdone }, fun other hne => ?_⟩
  refine ⟨id, .refl other _, fun _ => ⟨rfl, rfl, fun _ => rfl⟩, fun err h => ?_,
    fun h => ?_⟩
  · rw [howner] at h
    cases h
  · rw [howner] at h
    cases h
    exact absurd rfl hne

theorem closeBoth_grants {p : LivePacketConn} (hinside : Inside me p) :
    LiveGrants P f globalID dst server underlying me
      (fun _ p => ∃ err, p.once = .done err) p (closeBoth underlying me) := by
  refine Proc.GrantsWhen.bind
    (onClosing_quiet inside_keeps hinside (closeSteps_grants me _)) ?_
  rintro err p ⟨hended, hinside⟩
  have hunderlying : LiveGrants P f globalID dst server underlying me
      (fun _ p => p.once = .running me ∧ p.closing.Ended ∧
        p.underlyingCloses = if underlying then 1 else 0) p
      (closeUnderlyingConn underlying err) := by
    cases underlying with
    | false => exact ⟨hinside.once, hended, hinside.closes⟩
    | true =>
        rw [closeUnderlyingConn, if_pos rfl]
        refine Proc.GrantsWhen.atomic fun env p' hrelies hsound _ => ?_
        have hinside' := inside_keeps.others hrelies hinside
        have hone : p'.underlyingCloses + 1 = 1 := by rw [hinside'.closes]
        obtain ⟨hnext, hmoves⟩ := hsound.setOwned p'.once hinside'.once
          (by simp [hinside'.once]) hone.le nofun (by simp [hinside'.once])
        exact ⟨hnext, hmoves, hinside'.once, hrelies.closing.ended hended, hone⟩
  refine Proc.GrantsWhen.bind hunderlying ?_
  rintro err p ⟨howner, hended, hcloses⟩
  refine Proc.GrantsWhen.atomic fun env p' hrelies hsound _ => ?_
  have hsame := hrelies.own howner
  obtain ⟨hnext, hmoves⟩ := hsound.setOwned (.done err)
    (hsame.once.trans howner) nofun hsound.closes_le (fun h => (hsound.bare h).2)
    fun _ _ => ⟨hrelies.closing.ended hended, hsame.closes.trans hcloses⟩
  exact ⟨hnext, hmoves, err, rfl⟩

theorem closeBody_grants
    {p : LivePacketConn} (hinside : Inside me p) (hends : p.conn.ends = 0) :
    LiveGrants P f globalID dst server underlying me
      (fun _ p => ∃ err, p.once = .done err) p (closeBody P underlying me) := by
  have htest : LiveGrants P f globalID dst server underlying me
      (fun seen p => Inside me p ∧ seen.2 = globalID ∧
        (seen.1 = true → Ending me p)) p
      (Proc.observe .openedTest (fun p => (p.conn.opened, p.conn.globalID))) := by
    refine look_grants p fun p' hrelies hsound => ?_
    have hinside' := inside_keeps.others hrelies hinside
    exact ⟨hinside', hsound.conn.id_eq, fun hopened =>
      ⟨hinside', (hrelies.own hinside.once).ends.trans hends, hopened⟩⟩
  refine Proc.GrantsWhen.bind htest ?_
  rintro ⟨opened, seenID⟩ p ⟨hinside, rfl, hending⟩
  dsimp only
  split
  · rename_i hboth
    obtain ⟨hopened, rfl⟩ := Bool.and_eq_true_iff.mp hboth
    exact Proc.GrantsWhen.bind (sendUDPEnd_grants (hending hopened))
      fun _ _ hinside => closeBoth_grants hinside
  · exact closeBoth_grants hinside

/-- The first goroutine comes in, and no other comes past before it has left. -/
theorem closeEnter_grants (p : LivePacketConn) :
    LiveGrants P f globalID dst server underlying me
      (fun first p => if first then Inside me p ∧ p.conn.ends = 0
        else ∃ err, p.once = .done err) p
      (Proc.atomic .closeEnter (fun _ p =>
        if p.once = .idle then (true, { p with once := .running me })
        else (false, p))) := by
  refine Proc.GrantsWhen.atomic fun env p' _ hsound hready => ?_
  cases honce : p'.once with
  | idle =>
      obtain ⟨hends, hcloses⟩ := hsound.idle honce
      rw [if_pos rfl]
      refine ⟨{ hsound with idle := nofun, done := nofun }, fun other _ =>
        ⟨id, .refl other _, fun _ => ⟨rfl, rfl, fun _ => rfl⟩, fun err h => ?_,
          fun h => ?_⟩, ⟨rfl, hcloses⟩, hends⟩
      · rw [honce] at h
        cases h
      · rw [honce] at h
        cases h
  | running owner => simp [LiveLabel.ready, honce, OnceState.isRunning] at hready
  | done err =>
      rw [if_neg (by simp)]
      exact ⟨hsound, fun other _ => .refl other p', err, honce⟩

theorem packetClose_grants (p : LivePacketConn) :
    LiveGrants P f globalID dst server underlying me
      (fun err p => p.once = .done err) p (packetClose P underlying me) := by
  have hdo : LiveGrants P f globalID dst server underlying me
      (fun _ p => ∃ err, p.once = .done err) p (closeOnceDo P underlying me) := by
    refine Proc.GrantsWhen.bind (closeEnter_grants p) ?_
    intro first p hfirst
    cases first with
    | true => exact closeBody_grants hfirst.1 hfirst.2
    | false => exact hfirst
  refine Proc.GrantsWhen.bind hdo ?_
  rintro _ p ⟨err, hdone⟩
  refine look_grants p fun p' hrelies _ => ?_
  have hdone' := hrelies.done err hdone
  rw [LivePacketConn.closeErr, hdone']

theorem PacketCall.grants (p : LivePacketConn) (call : PacketCall) :
    LiveGrants P f globalID dst server underlying me
      (fun result p => ∀ err, result = .closed err → p.once = .done err) p
      (call.proc P underlying me) := by
  cases call with
  | write b target =>
      exact Proc.GrantsWhen.bind (writeToAddressSteps_grants p b target)
        fun _ _ _ => nofun
  | recv =>
      have hkeeps : Keeps me (fun _ => True) := ⟨fun _ => id, fun _ => id⟩
      exact Proc.GrantsWhen.bind (onClosing_quiet hkeeps trivial (recvSteps_grants _))
        fun _ _ _ => nofun
  | close =>
      refine Proc.GrantsWhen.bind (packetClose_grants p) ?_
      intro err p hdone err' herr'
      cases herr'
      exact hdone

end Life

end SingEwp
