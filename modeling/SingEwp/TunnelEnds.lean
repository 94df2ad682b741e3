import SingEwp.PacketLifecycle
import SingEwp.ReliableSession
import SingEwp.StreamConn

/-!
# Both ends of a TCP tunnel

`Read`, `Write` and `Close` of the two `streamConn` of a session, called by any
number of goroutines.  `Read` holds `readMu` from its first to its last step; in
between it receives frames, puts the data of one into `readBuf` and copies from
there.  Everything else goes on in the meantime: `Close` and the writes do not
take the lock.

The bytes that the calls of `Read` return are accounted for by who holds the
lock.  While it is free, what has been returned and what `readBuf` holds make up
the data of all frames received.  The holder knows more than the others: nobody
else receives on its side or touches `readBuf`.
-/

namespace SingEwp

variable {P : Primitives}

/-! ## The calls -/

/-- The part of a `streamConn` that `Read` uses. -/
structure ReadEnd where
  readMu : Option ℕ := none
  readBuf : Bytes := []
  /-- What the calls of `Read` have returned, in order, with the goroutine. -/
  reads : List (ℕ × Bytes) := []

structure Tunnel where
  pair : LinkedPair
  ends : Side → ReadEnd := fun _ => {}
  once : Side → OnceState (Option EwpError) := fun _ => .idle

inductive TunnelLabel where
  | stream (label : DuplexLabel)
  | readLock (side : Side)
  | bufTest (side : Side)
  | bufStore (side : Side)
  | readReturn (side : Side)
  | closeEnter (side : Side)
  | closeReturn (side : Side)
  | closeWait (side : Side)

abbrev TunnelProc (α : Type) := Proc TunnelLabel LiveEnv Tunnel α

namespace Tunnel

def setPair (pair : LinkedPair) (t : Tunnel) : Tunnel := { t with pair := pair }

def setEnd (side : Side) (e : ReadEnd) (t : Tunnel) : Tunnel :=
  { t with ends := Function.update t.ends side e }

def setOnce (side : Side) (once : OnceState (Option EwpError)) (t : Tunnel) : Tunnel :=
  { t with once := Function.update t.once side once }

/-- One side's stream has moved on. -/
def putStream (side : Side) (s : SecureStream) (t : Tunnel) : Tunnel :=
  t.setPair (t.pair.put side s)

def takeLock (side : Side) (me : ℕ) (t : Tunnel) : Tunnel :=
  t.setEnd side { t.ends side with readMu := some me }

def unlock (side : Side) (t : Tunnel) : Tunnel :=
  t.setEnd side { t.ends side with readMu := none }

def storeBuf (side : Side) (payload : Bytes) (t : Tunnel) : Tunnel :=
  t.setEnd side { t.ends side with readBuf := payload }

/-- `copy(p, c.readBuf)` and the return, which gives up the lock. -/
def giveOut (side : Side) (me n : ℕ) (t : Tunnel) : Tunnel :=
  t.setEnd side
    { readMu := none
      readBuf := (t.ends side).readBuf.drop n
      reads := (t.ends side).reads ++ [(me, (t.ends side).readBuf.take n)] }

end Tunnel

def onPair {α : Type} (p : Proc DuplexLabel StreamEnv LinkedPair α) :
    TunnelProc α :=
  p.embed TunnelLabel.stream (fun env _ => env.stream) Tunnel.pair
    (fun _ => Tunnel.setPair)

/-- A turn of a `Recv` that has passed its test; `none` is a `ReadMessage` that
still waits. -/
def pollRecv (P : Primitives) (side : Side) :
    TunnelProc (Option (Except EwpError Event)) :=
  Proc.atomic (.stream (side, .recv)) (fun env t =>
    if LinkedPair.Ready (side, .recv) env.stream t.pair then
      let result :=
        recvOpened P (t.pair.transport side env.stream) (t.pair.stream side)
      (some result.1, t.putStream side result.2)
    else (none, t))

/-- The loops that wait are followed for a number of turns. -/
def awaitRecv (P : Primitives) (side : Side) :
    ℕ → TunnelProc (Option (Except EwpError Event))
  | 0 => pure none
  | turns + 1 => do
      match ← pollRecv P side with
      | none => awaitRecv P side turns
      | some result => pure (some result)

def tunnelRecv (P : Primitives) (side : Side) (turns : ℕ) :
    TunnelProc (Option (Except EwpError Event)) := do
  let closed ← Proc.observe (.stream (side, .closedTest))
    (fun t => (t.pair.stream side).closed)
  if closed then pure (some (.error (.io .closedPipe)))
  else awaitRecv P side turns

/-- The loop of `Read`, under the lock. -/
def fillTunnelBuf (P : Primitives) (side : Side) :
    ℕ → TunnelProc (Option (Except EwpError Unit))
  | 0 => pure none
  | turns + 1 => do
      let readBuf ← Proc.observe (.bufTest side) (fun t => (t.ends side).readBuf)
      if readBuf ≠ [] then pure (some (.ok ()))
      else
        match ← tunnelRecv P side turns with
        | none => pure none
        | some (.error e) => pure (some (.error e))
        | some (.ok ev) =>
            if ev.type = frameTCPData then
              if ev.payload.bytes = [] then fillTunnelBuf P side turns
              else do
                Proc.atomic (.bufStore side)
                  (fun _ t => ((), t.storeBuf side ev.payload.bytes))
                fillTunnelBuf P side turns
            else if ev.type ∈ [framePaddingOnly, framePing, framePong] then
              fillTunnelBuf P side turns
            else pure (some (.error (.unexpectedFrame ev.type.code)))

def lockRead (side : Side) (me : ℕ) : ℕ → TunnelProc Bool
  | 0 => pure false
  | turns + 1 => do
      let taken ← Proc.atomic (.readLock side) (fun _ t =>
        if (t.ends side).readMu = none then (true, t.takeLock side me)
        else (false, t))
      if taken then pure true else lockRead side me turns

/-- `Read` into a buffer of `n` bytes by the goroutine `me`; `none` is a call that
still waits. -/
def tunnelRead (P : Primitives) (turns : ℕ) (side : Side) (me n : ℕ) :
    TunnelProc (Option (Except EwpError Bytes)) := do
  let locked ← lockRead side me turns
  if locked then
    match ← fillTunnelBuf P side turns with
    | none => pure none
    | some (.error e) => do
        Proc.atomic (.readReturn side) (fun _ t => ((), t.unlock side))
        pure (some (.error e))
    | some (.ok ()) => do
        let bytes ← Proc.atomic (.readReturn side) (fun _ t =>
          ((t.ends side).readBuf.take n, t.giveOut side me n))
        pure (some (.ok bytes))
  else pure none

/-- `Close` by the goroutine `me`; `none` is a call that waits for the one inside
`closeOnce`, or, as an answer of the underlying connection, that there is none. -/
def tunnelClose (side : Side) (me : ℕ) :
    TunnelProc (Option (Option EwpError)) := do
  let first ← Proc.atomic (.closeEnter side) (fun _ t =>
    if t.once side = .idle then (true, t.setOnce side (.running me))
    else (false, t))
  if first then do
    let err ← Proc.atomic (.stream (side, .close)) (fun env t =>
      (if (t.pair.stream side).closed then none else env.trClose,
        t.putStream side (t.pair.stream side).close))
    Proc.atomic (.closeReturn side) (fun env t =>
      (some (err <|> env.underlyingClose),
        t.setOnce side (.done (err <|> env.underlyingClose))))
  else
    Proc.observe (.closeWait side) (fun t =>
      match t.once side with
      | .done err => some err
      | _ => none)

inductive TunnelCall where
  | write (p : Bytes)
  | read (n : ℕ)
  | ping (cookie : Bytes)
  | pong (cookie : Bytes)
  | coverPad (padLen : ℤ)
  | close
  deriving DecidableEq

inductive TunnelAnswer where
  | wrote (n : ℕ) (outcome : Outcome EwpError Unit)
  | read (result : Option (Except EwpError Bytes))
  | sent (outcome : Outcome EwpError Unit)
  | closed (result : Option (Option EwpError))
  deriving DecidableEq

def keepalive (P : Primitives) (side : Side) (call : SendCall) :
    TunnelProc TunnelAnswer := do
  let outcome ← onPair (inSession side (call.proc P))
  pure (.sent outcome)

def TunnelCall.proc (P : Primitives) (turns : ℕ) (side : Side) (me : ℕ) :
    TunnelCall → TunnelProc TunnelAnswer
  | .write p => do
      let (n, outcome) ← onPair (inSession side (streamWrite P p))
      pure (.wrote n outcome)
  | .read n => do
      let result ← tunnelRead P turns side me n
      pure (.read result)
  | .ping cookie => keepalive P side (.ping cookie)
  | .pong cookie => keepalive P side (.pong cookie)
  | .coverPad padLen => keepalive P side (.coverPad padLen)
  | .close => do
      let result ← tunnelClose side me
      pure (.closed result)

/-- The data that `Read` takes from an event. -/
def Event.data (ev : Event) : Bytes :=
  if ev.type = frameTCPData then ev.payload.bytes else []

namespace Tunnel

variable {side : Side} {s : SecureStream} {e : ReadEnd} {t : Tunnel}

def received (t : Tunnel) (side : Side) : List ReceivedFrame :=
  (t.pair.stream side).received

/-- The data of the frames received. -/
def arrived (t : Tunnel) (side : Side) : Bytes :=
  (t.received side).flatMap (fun r => r.event.data)

/-- What the calls of `Read` have returned. -/
def out (t : Tunnel) (side : Side) : Bytes :=
  (t.ends side).reads.flatMap Prod.snd

/-- What one goroutine's calls of `Read` have returned. -/
def readBy (t : Tunnel) (side : Side) (thread : ℕ) : List (ℕ × Bytes) :=
  (t.ends side).reads.filter (fun entry => entry.1 = thread)

@[simp] theorem putStream_ends (dir : Side) :
    (t.putStream side s).ends dir = t.ends dir := rfl

@[simp] theorem putStream_self : (t.putStream side s).pair.stream side = s :=
  LinkedPair.put_stream_self side s t.pair

@[simp] theorem putStream_peer :
    (t.putStream side s).pair.stream side.peer = t.pair.stream side.peer :=
  LinkedPair.put_stream_peer side s t.pair

@[simp] theorem setEnd_pair : (t.setEnd side e).pair = t.pair := rfl

@[simp] theorem setEnd_self : (t.setEnd side e).ends side = e :=
  Function.update_self _ _ _

@[simp] theorem setEnd_peer : (t.setEnd side e).ends side.peer = t.ends side.peer :=
  Function.update_of_ne side.peer_ne _ _

end Tunnel

/-- What holds of one side at every moment. -/
structure EndSound (t : Tunnel) (side : Side) : Prop where
  typed : ∀ e ∈ (t.pair.stream side).handed, e.type ∈ tunnelTypes
  part : t.out side ++ (t.ends side).readBuf <+: t.arrived side
  free : (t.ends side).readMu = none →
    t.out side ++ (t.ends side).readBuf = t.arrived side

/-- What no action undoes. -/
structure EndGrows (side : Side) (t t' : Tunnel) : Prop where
  closed : StaysClosed (t.pair.stream side) (t'.pair.stream side)
  received : t.received side <+: t'.received side
  frozen : (t.pair.stream side).closed = true → t'.received side = t.received side
  reads : (t.ends side).reads <+: (t'.ends side).reads

/-- What only the holder of the lock changes. -/
structure EndKept (side : Side) (t t' : Tunnel) : Prop where
  ends : t'.ends side = t.ends side
  received : t'.received side = t.received side

/-- What the goroutine `me` can count on. -/
structure TunnelRelies (me : ℕ) (t t' : Tunnel) : Prop where
  grows : ∀ side, EndGrows side t t'
  own : ∀ side, (t.ends side).readMu = some me → EndKept side t t'
  entries : ∀ side, t'.readBy side me = t.readBy side me

/-- What the goroutine `me` does. -/
structure TunnelMoves (me : ℕ) (t t' : Tunnel) : Prop where
  grows : ∀ side, EndGrows side t t'
  others : ∀ side owner, owner ≠ me → (t.ends side).readMu = some owner →
    EndKept side t t'
  entries : ∀ side thread, thread ≠ me → t'.readBy side thread = t.readBy side thread

def TunnelSound (t : Tunnel) : Prop := ∀ side, EndSound t side

theorem EndGrows.refl (side : Side) (t : Tunnel) : EndGrows side t t :=
  ⟨id, List.prefix_refl _, fun _ => rfl, List.prefix_refl _⟩

theorem EndGrows.trans
    {side : Side} {a b c : Tunnel} (hab : EndGrows side a b)
    (hbc : EndGrows side b c) : EndGrows side a c where
  closed := hab.closed.trans hbc.closed
  received := hab.received.trans hbc.received
  frozen := fun h => (hbc.frozen (hab.closed h)).trans (hab.frozen h)
  reads := hab.reads.trans hbc.reads

theorem TunnelRelies.refl (me : ℕ) (t : Tunnel) : TunnelRelies me t t :=
  ⟨fun side => .refl side t, fun _ _ => ⟨rfl, rfl⟩, fun _ => rfl⟩

theorem TunnelRelies.trans
    {me : ℕ} {a b c : Tunnel} (hab : TunnelRelies me a b)
    (hbc : TunnelRelies me b c) : TunnelRelies me a c where
  grows := fun side => (hab.grows side).trans (hbc.grows side)
  own := by
    intro side hown
    have hfirst := hab.own side hown
    have hsecond := hbc.own side (by rw [hfirst.ends]; exact hown)
    exact ⟨hsecond.ends.trans hfirst.ends, hsecond.received.trans hfirst.received⟩
  entries := fun side => (hbc.entries side).trans (hab.entries side)

theorem TunnelMoves.relied
    {mover me : ℕ} {t t' : Tunnel} (hne : mover ≠ me)
    (hmoves : TunnelMoves mover t t') : TunnelRelies me t t' :=
  ⟨hmoves.grows, fun side => hmoves.others side me hne.symm,
    fun side => hmoves.entries side me hne.symm⟩

section Steps

variable {me : ℕ} {side : Side} {t t' : Tunnel}

/-- An action that leaves the reading alone. -/
theorem TunnelMoves.of_kept
    (hkept : ∀ dir, EndKept dir t t')
    (hclosed : ∀ dir, StaysClosed (t.pair.stream dir) (t'.pair.stream dir)) :
    TunnelMoves me t t' where
  grows := fun dir => ⟨hclosed dir, by rw [(hkept dir).received],
    fun _ => (hkept dir).received, by rw [(hkept dir).ends]⟩
  others := fun dir _ _ _ => hkept dir
  entries := fun dir _ _ => by rw [Tunnel.readBy, (hkept dir).ends]; rfl

theorem EndSound.of_kept
    (hsound : EndSound t side) (hkept : EndKept side t t')
    (htyped : ∀ e ∈ (t'.pair.stream side).handed, e.type ∈ tunnelTypes) :
    EndSound t' side where
  typed := htyped
  part := by
    rw [Tunnel.out, Tunnel.arrived, hkept.ends, hkept.received]
    exact hsound.part
  free := by
    rw [Tunnel.out, Tunnel.arrived, hkept.ends, hkept.received]
    exact hsound.free

/-- A stream that sends or closes. -/
theorem TunnelSound.putStream
    (hsound : TunnelSound t) (side : Side) {s : SecureStream}
    (hreceived : s.received = (t.pair.stream side).received)
    (hstays : StaysClosed (t.pair.stream side) s)
    (htyped : ∀ e ∈ s.handed, e ∈ (t.pair.stream side).handed ∨
      e.type ∈ tunnelTypes) :
    TunnelSound (t.putStream side s) ∧ TunnelMoves me t (t.putStream side s) := by
  have hkept : ∀ dir, EndKept dir t (t.putStream side s) := by
    intro dir
    rcases Side.eq_or_eq_peer side dir with rfl | rfl
    · exact ⟨rfl, by simpa [Tunnel.received] using hreceived⟩
    · exact ⟨rfl, by simp [Tunnel.received]⟩
  refine ⟨?_, .of_kept hkept ?_⟩
  · intro dir
    refine (hsound dir).of_kept (hkept dir) ?_
    intro e he
    rcases Side.eq_or_eq_peer side dir with rfl | rfl
    · rw [Tunnel.putStream_self] at he
      exact (htyped e he).elim ((hsound dir).typed e) id
    · rw [Tunnel.putStream_peer] at he
      exact (hsound _).typed e he
  · intro dir
    rcases Side.eq_or_eq_peer side dir with rfl | rfl
    · rw [Tunnel.putStream_self]
      exact hstays
    · rw [Tunnel.putStream_peer]
      exact id

/-- The holder of the lock, or the goroutine that takes it, changes its end. -/
theorem TunnelSound.setEnd
    (hsound : TunnelSound t) {e : ReadEnd}
    (hmine : (t.ends side).readMu = some me ∨ (t.ends side).readMu = none)
    (hreads : ∃ own, e.reads = (t.ends side).reads ++ own ∧
      ∀ entry ∈ own, entry.1 = me)
    (hpart : e.reads.flatMap Prod.snd ++ e.readBuf <+: t.arrived side)
    (hfree : e.readMu = none →
      e.reads.flatMap Prod.snd ++ e.readBuf = t.arrived side) :
    TunnelSound (t.setEnd side e) ∧ TunnelMoves me t (t.setEnd side e) := by
  have hpeer : EndKept side.peer t (t.setEnd side e) := ⟨by simp, rfl⟩
  obtain ⟨own, hown, hentries⟩ := hreads
  refine ⟨?_, ?_, ?_, ?_⟩
  · intro dir
    rcases Side.eq_or_eq_peer side dir with rfl | rfl
    · refine ⟨(hsound dir).typed, ?_, ?_⟩
      · rw [Tunnel.out, Tunnel.setEnd_self]
        exact hpart
      · rw [Tunnel.out, Tunnel.setEnd_self]
        exact hfree
    · exact (hsound _).of_kept hpeer (hsound _).typed
  · intro dir
    refine ⟨id, List.prefix_refl _, fun _ => rfl, ?_⟩
    rcases Side.eq_or_eq_peer side dir with rfl | rfl
    · rw [Tunnel.setEnd_self, hown]
      exact List.prefix_append _ _
    · rw [Tunnel.setEnd_peer]
  · intro dir owner hne hheld
    rcases Side.eq_or_eq_peer side dir with rfl | rfl
    · rcases hmine with hlock | hfree
      · exact absurd (Option.some.inj (hheld.symm.trans hlock)) hne
      · exact absurd (hheld.symm.trans hfree) (by simp)
    · exact hpeer
  · intro dir thread hne
    rcases Side.eq_or_eq_peer side dir with rfl | rfl
    · rw [Tunnel.readBy, Tunnel.setEnd_self, hown, List.filter_append]
      have hnone : own.filter (fun entry => entry.1 = thread) = [] := by
        rw [List.filter_eq_nil_iff]
        intro entry hentry
        simp [hentries entry hentry, hne.symm]
      rw [hnone, List.append_nil]
      rfl
    · rw [Tunnel.readBy, Tunnel.setEnd_peer]
      rfl

end Steps

/-! ## Those who do not read -/

/-- The actions of a call that sends frames of certain types only. -/
inductive SendsOnly (P : Primitives) (types : List FrameType) :
    StreamLabel → (StreamEnv → SecureStream → SecureStream) → Prop where
  | closedTest : SendsOnly P types .closedTest (fun _ s => s)
  | chunkDraw : SendsOnly P types .chunkDraw (fun _ s => s)
  | sendLocked (t : FrameType) (ht : t ∈ types) (metaBytes payload : Bytes)
      (padLen : ℤ) :
      SendsOnly P types .sendLocked
        (fun env s => (sendFrameLocked P t metaBytes payload padLen env s).2)

section SendsOnly

variable {types : List FrameType}

theorem sendFrame_sendsOnly
    {t : FrameType} (ht : t ∈ types) (metaBytes payload : Bytes) (padLen : ℤ) :
    Proc.Acts (SendsOnly P types) (sendFrame P t metaBytes payload padLen) := by
  unfold sendFrame
  apply Proc.Acts.bind (Proc.Acts.atomic SendsOnly.closedTest)
  intro closed
  split
  · trivial
  · exact Proc.Acts.atomic (SendsOnly.sendLocked t ht metaBytes payload padLen)

theorem sendTCPData_sendsOnly
    (hdata : frameTCPData ∈ types) (payload : Bytes) :
    Proc.Acts (SendsOnly P types) (sendTCPData P payload) := by
  have hchunks : ∀ (fuel : ℕ) (payload : Bytes),
      Proc.Acts (SendsOnly P types) (sendChunks P fuel payload) := by
    intro fuel
    induction fuel with
    | zero => exact fun _ => trivial
    | succ fuel ih =>
        intro payload
        unfold sendChunks
        split
        · trivial
        · apply Proc.Acts.bind (Proc.Acts.atomic SendsOnly.chunkDraw)
          intro chunk
          apply Proc.Acts.bind (sendFrame_sendsOnly hdata _ _ _)
          intro result
          split
          · exact ih _
          · trivial
  unfold sendTCPData
  split
  · exact sendFrame_sendsOnly hdata _ _ _
  · exact hchunks _ _

theorem streamWrite_sendsOnly (hdata : frameTCPData ∈ types) (p : Bytes) :
    Proc.Acts (SendsOnly P types) (streamWrite P p) := by
  have hchunks : ∀ (fuel : ℕ) (p : Bytes) (written : ℕ),
      Proc.Acts (SendsOnly P types) (writeChunks P fuel p written) := by
    intro fuel
    induction fuel with
    | zero => exact fun _ _ => trivial
    | succ fuel ih =>
        intro p written
        unfold writeChunks
        split
        · trivial
        · apply Proc.Acts.bind (sendTCPData_sendsOnly hdata (p.take maxPayload))
          intro outcome
          cases outcome with
          | ok value => exact ih _ _
          | error e => trivial
          | panic => trivial
  unfold streamWrite
  split
  · trivial
  · exact hchunks _ _ _

/-- Sending neither receives nor opens a closed stream. -/
theorem SendsOnly.effect
    {label : StreamLabel} {update : StreamEnv → SecureStream → SecureStream}
    (haction : SendsOnly P types label update) (env : StreamEnv)
    (s : SecureStream) :
    (update env s).received = s.received ∧ StaysClosed s (update env s) ∧
      ∀ e ∈ (update env s).handed, e ∈ s.handed ∨ e.type ∈ types := by
  cases haction with
  | closedTest => exact ⟨rfl, id, fun _ => Or.inl⟩
  | chunkDraw => exact ⟨rfl, id, fun _ => Or.inl⟩
  | sendLocked t ht metaBytes payload padLen =>
      have hemit : ∀ (cap : ℕ) (fr : Frame), fr.type = t →
          ∀ e ∈ (s.emit P cap fr).handed, e ∈ s.handed ∨ e.type ∈ types := by
        intro cap fr htype e he
        refine (List.mem_append.mp he).imp_right ?_
        intro hnew
        rw [List.mem_singleton.mp hnew]
        exact htype ▸ ht
      have hstep := sendFrameLocked_step P t metaBytes payload padLen env s
      dsimp only
      generalize sendFrameLocked P t metaBytes payload padLen env s = r at hstep ⊢
      cases hstep with
      | kept outcome cap failed => exact ⟨rfl, id, fun _ => Or.inl⟩
      | taken cap fr htype hmeta hpayload hsend =>
          exact ⟨rfl, id, hemit cap fr htype⟩
      | refused cap fr htype hmeta hpayload e hsend =>
          refine ⟨SecureStream.close_received _, fun _ =>
            SecureStream.close_closed _, ?_⟩
          dsimp only
          rw [SecureStream.close_handed]
          exact hemit cap fr htype

end SendsOnly

abbrev TunnelGrants {α : Type} (me : ℕ) (Post : α → Tunnel → Prop) (t : Tunnel)
    (p : TunnelProc α) : Prop :=
  Proc.Grants (TunnelRelies me) (fun _ => TunnelMoves me) TunnelSound Post t p

section Grants

variable {me : ℕ} {side : Side}

theorem onPair_grants
    {α : Type} {p : StreamProc α} (hacts : Proc.Acts (SendsOnly P tunnelTypes) p)
    (t : Tunnel) :
    TunnelGrants me (fun _ _ => True) t (onPair (inSession side p)) := by
  refine Proc.Grants.of_acts ?_ ((hacts.embed _ _ _ _).embed _ _ _ _) t
  rintro _ _ ⟨_, _, ⟨label, update, haction, rfl, rfl⟩, rfl, rfl⟩ env t hsound
  obtain ⟨hreceived, hstays, htyped⟩ :=
    haction.effect (t.pair.transport side env.stream) (t.pair.stream side)
  exact hsound.putStream side hreceived hstays htyped

theorem setOnce_sound
    {t : Tunnel} (hsound : TunnelSound t) (side : Side)
    (once : OnceState (Option EwpError)) :
    TunnelSound (t.setOnce side once) ∧ TunnelMoves me t (t.setOnce side once) := by
  have hkept : ∀ dir, EndKept dir t (t.setOnce side once) := fun _ => ⟨rfl, rfl⟩
  exact ⟨fun dir => (hsound dir).of_kept (hkept dir) (hsound dir).typed,
    .of_kept hkept (fun _ => id)⟩

theorem tunnelClose_grants (t : Tunnel) :
    TunnelGrants me (fun _ _ => True) t (tunnelClose side me) := by
  have hstill : ∀ t, TunnelSound t → TunnelSound t ∧ TunnelMoves me t t :=
    fun t hsound => ⟨hsound, .of_kept (fun _ => ⟨rfl, rfl⟩) (fun _ => id)⟩
  have henter : TunnelGrants me (fun _ _ => True) t
      (Proc.atomic (.closeEnter side) (fun _ t =>
        if t.once side = .idle then (true, t.setOnce side (.running me))
        else (false, t))) := by
    apply Proc.Grants.atomic
    intro _ t _ hsound
    split
    · obtain ⟨hnext, hmoves⟩ := setOnce_sound hsound side (.running me)
      exact ⟨hnext, hmoves, trivial⟩
    · obtain ⟨hnext, hmoves⟩ := hstill t hsound
      exact ⟨hnext, hmoves, trivial⟩
  unfold tunnelClose
  refine Proc.Grants.bind henter ?_
  intro first t _
  split
  · have hstream : TunnelGrants me (fun _ _ => True) t
        (Proc.atomic (.stream (side, .close)) (fun env t =>
          (if (t.pair.stream side).closed then none else env.trClose,
            t.putStream side (t.pair.stream side).close))) := by
      apply Proc.Grants.atomic
      intro env t _ hsound
      obtain ⟨hnext, hmoves⟩ := hsound.putStream side
        (SecureStream.close_received _) (fun _ => SecureStream.close_closed _)
        (fun e he => Or.inl (by rwa [SecureStream.close_handed] at he))
      exact ⟨hnext, hmoves, trivial⟩
    refine Proc.Grants.bind hstream ?_
    intro err t _
    apply Proc.Grants.atomic
    intro env t _ hsound
    obtain ⟨hnext, hmoves⟩ := setOnce_sound hsound side _
    exact ⟨hnext, hmoves, trivial⟩
  · apply Proc.Grants.atomic
    intro _ t _ hsound
    obtain ⟨hnext, hmoves⟩ := hstill t hsound
    exact ⟨hnext, hmoves, trivial⟩

/-! ## The reader -/

/-- The goroutine holds the lock and has received `data` that is not in `readBuf`
yet. -/
structure Holds (side : Side) (me : ℕ) (data : Bytes) (t : Tunnel) : Prop where
  lock : (t.ends side).readMu = some me
  before : t.readBy side me = []
  whole : t.out side ++ (t.ends side).readBuf ++ data = t.arrived side

/-- The goroutine finds `readBuf` empty. -/
structure Wants (side : Side) (me : ℕ) (data : Bytes) (t : Tunnel) : Prop
    extends Holds side me data t where
  empty : (t.ends side).readBuf = []

/-- Why `Read` fails. -/
def ReadOver (side : Side) (t : Tunnel) : Prop :=
  ((t.pair.stream side).closed = true ∧ t.arrived side <+: t.out side) ∨
    ∃ r ∈ t.received side, r.event.type ∉ tunnelTypes

theorem EndGrows.out
    {t t' : Tunnel} (hgrows : EndGrows side t t') : t.out side <+: t'.out side := by
  obtain ⟨later, hlater⟩ := hgrows.reads
  rw [Tunnel.out, Tunnel.out, ← hlater, List.flatMap_append]
  exact List.prefix_append _ _

theorem ReadOver.grown
    {t t' : Tunnel} (hover : ReadOver side t) (hgrows : EndGrows side t t') :
    ReadOver side t' := by
  rcases hover with ⟨hclosed, hall⟩ | ⟨r, hr, htype⟩
  · refine Or.inl ⟨hgrows.closed hclosed, ?_⟩
    rw [Tunnel.arrived, hgrows.frozen hclosed]
    exact hall.trans hgrows.out
  · exact Or.inr ⟨r, hgrows.received.subset hr, htype⟩

theorem Holds.relied
    {data : Bytes} {t t' : Tunnel} (hholds : Holds side me data t)
    (hrelies : TunnelRelies me t t') :
    Holds side me data t' ∧ t'.ends side = t.ends side := by
  have hkept := hrelies.own side hholds.lock
  refine ⟨⟨?_, (hrelies.entries side).trans hholds.before, ?_⟩, hkept.ends⟩
  · rw [hkept.ends]
    exact hholds.lock
  · rw [Tunnel.out, Tunnel.arrived, hkept.ends, hkept.received]
    exact hholds.whole

theorem Wants.relied
    {data : Bytes} {t t' : Tunnel} (hwants : Wants side me data t)
    (hrelies : TunnelRelies me t t') : Wants side me data t' := by
  obtain ⟨hholds, hsame⟩ := hwants.toHolds.relied hrelies
  exact ⟨hholds, by rw [hsame]; exact hwants.empty⟩

theorem recvOpened_received (env : StreamEnv) (s : SecureStream) :
    (∃ e, (recvOpened P env s).1 = .error e ∧
        (recvOpened P env s).2.received = s.received) ∨
      ∃ df ev wire, env.readMessage = .ok wire ∧
        (recvOpened P env s).1 = .ok ev ∧
        (recvOpened P env s).2.received = s.received ++ [⟨df, ev⟩] := by
  unfold recvOpened
  split
  · exact Or.inl ⟨_, rfl, SecureStream.close_received _⟩
  rename_i wire hread
  split
  · exact Or.inl ⟨_, rfl, SecureStream.close_received _⟩
  rename_i df recv hdec
  dsimp only
  split
  · exact Or.inl ⟨_, rfl, SecureStream.close_received _⟩
  · exact Or.inr ⟨df, _, wire, hread, rfl, rfl⟩

/-- The holder of the lock receives. -/
theorem TunnelSound.receive
    {t : Tunnel} {s : SecureStream} (hsound : TunnelSound t)
    (hlock : (t.ends side).readMu = some me)
    (hhanded : s.handed = (t.pair.stream side).handed)
    (hstays : StaysClosed (t.pair.stream side) s)
    (hgrows : (t.pair.stream side).received <+: s.received)
    (hfrozen : (t.pair.stream side).closed = true →
      s.received = (t.pair.stream side).received) :
    TunnelSound (t.putStream side s) ∧ TunnelMoves me t (t.putStream side s) := by
  have hself : (t.putStream side s).received side = s.received := by
    rw [Tunnel.received, Tunnel.putStream_self]
  have hpeer : EndKept side.peer t (t.putStream side s) :=
    ⟨rfl, by simp [Tunnel.received]⟩
  refine ⟨?_, ?_, ?_, fun _ _ _ => rfl⟩
  · intro dir
    rcases Side.eq_or_eq_peer side dir with rfl | rfl
    · refine ⟨?_, ?_, ?_⟩
      · rw [Tunnel.putStream_self, hhanded]
        exact (hsound dir).typed
      · obtain ⟨later, hlater⟩ := hgrows
        refine (hsound dir).part.trans ?_
        rw [Tunnel.arrived, Tunnel.arrived, hself, ← hlater, List.flatMap_append]
        exact List.prefix_append _ _
      · intro hfree
        exact absurd (hlock.symm.trans hfree) (by simp)
    · refine (hsound _).of_kept hpeer ?_
      rw [Tunnel.putStream_peer]
      exact (hsound _).typed
  · intro dir
    rcases Side.eq_or_eq_peer side dir with rfl | rfl
    · refine ⟨?_, ?_, ?_, List.prefix_refl _⟩
      · rw [Tunnel.putStream_self]
        exact hstays
      · rw [hself]
        exact hgrows
      · rw [hself]
        exact hfrozen
    · refine ⟨?_, by rw [hpeer.received], fun _ => hpeer.received,
        List.prefix_refl _⟩
      rw [Tunnel.putStream_peer]
      exact id
  · intro dir owner hne hheld
    rcases Side.eq_or_eq_peer side dir with rfl | rfl
    · rw [hlock] at hheld
      exact absurd (Option.some.inj hheld).symm hne
    · exact hpeer

/-- What a `Recv` under the lock leaves behind. -/
structure RecvLeaves (side : Side) (me : ℕ)
    (result : Option (Except EwpError Event)) (t : Tunnel) : Prop where
  waits : result = none → Wants side me [] t
  failed : ∀ e, result = some (.error e) →
    Wants side me [] t ∧ (t.pair.stream side).closed = true
  event : ∀ ev, result = some (.ok ev) →
    Wants side me ev.data t ∧ ∃ r ∈ t.received side, r.event = ev

theorem pollRecv_grants {t : Tunnel} (hwants : Wants side me [] t) :
    TunnelGrants me (RecvLeaves side me) t (pollRecv P side) := by
  apply Proc.Grants.atomic
  intro env t' hrelies hsound
  have hwants' := hwants.relied hrelies
  by_cases hready : LinkedPair.Ready (side, .recv) env.stream t'.pair
  · simp only [if_pos hready]
    obtain ⟨_, hhanded, _⟩ := recvOpened_sender (P := P)
      (t'.pair.transport side env.stream) (t'.pair.stream side)
    obtain ⟨hlife, hfatal⟩ := recvOpened_life (P := P)
      (t'.pair.transport side env.stream) (t'.pair.stream side)
    have hreceived := recvOpened_received (P := P)
      (t'.pair.transport side env.stream) (t'.pair.stream side)
    have hclosedRead : (t'.pair.stream side).closed = true →
        (t'.pair.transport side env.stream).readMessage =
          .error (.io .closedPipe) := by
      intro hclosed
      simp [LinkedPair.transport, hclosed]
    generalize hresult : recvOpened P (t'.pair.transport side env.stream)
      (t'.pair.stream side) = result at hhanded hlife hfatal hreceived ⊢
    rcases hreceived with ⟨e, herr, hsame⟩ | ⟨df, ev, wire, hread, hev, hnew⟩
    · obtain ⟨hnext, hmoves⟩ := hsound.receive hwants'.lock hhanded hlife.stays
        (by rw [hsame]) (fun _ => hsame)
      refine ⟨hnext, hmoves, fun h => (by cases h), ?_, ?_⟩
      · intro e' _
        refine ⟨⟨⟨hwants'.lock, hwants'.before, ?_⟩, hwants'.empty⟩, ?_⟩
        · have hwhole := hwants'.whole
          rw [Tunnel.arrived, Tunnel.received, Tunnel.putStream_self, hsame]
          exact hwhole
        · rw [Tunnel.putStream_self]
          exact hfatal ⟨e, herr⟩
      · intro ev hev
        rw [herr] at hev
        cases hev
    · obtain ⟨hnext, hmoves⟩ := hsound.receive hwants'.lock hhanded hlife.stays
        (by rw [hnew]; exact List.prefix_append _ _)
        (fun hclosed => absurd hread (by rw [hclosedRead hclosed]; simp))
      refine ⟨hnext, hmoves, fun h => (by cases h), ?_, ?_⟩
      · intro e he
        rw [hev] at he
        cases he
      · intro ev' hev'
        rw [hev] at hev'
        cases hev'
        have hself : (t'.putStream side result.2).received side =
            t'.received side ++ [⟨df, ev⟩] := by
          rw [Tunnel.received, Tunnel.putStream_self, hnew]
          rfl
        refine ⟨⟨⟨hwants'.lock, hwants'.before, ?_⟩, hwants'.empty⟩, ⟨df, ev⟩, ?_,
          rfl⟩
        · have hwhole := hwants'.whole
          rw [List.append_nil] at hwhole
          rw [Tunnel.arrived, hself, List.flatMap_append]
          change t'.out side ++ (t'.ends side).readBuf ++ ev.data =
            t'.arrived side ++ _
          rw [hwhole]
          simp
        · rw [hself]
          exact List.mem_append_right _ (List.mem_singleton_self _)
  · simp only [if_neg hready]
    exact ⟨hsound, .of_kept (fun _ => ⟨rfl, rfl⟩) (fun _ => id),
      fun _ => hwants', fun e h => (by cases h), fun ev h => by cases h⟩

theorem tunnelRecv_grants {t : Tunnel} (hwants : Wants side me [] t) (turns : ℕ) :
    TunnelGrants me (RecvLeaves side me) t (tunnelRecv P side turns) := by
  have hawait : ∀ (turns : ℕ) (t : Tunnel), Wants side me [] t →
      TunnelGrants me (RecvLeaves side me) t (awaitRecv P side turns) := by
    intro turns
    induction turns with
    | zero =>
        intro t hwants
        exact ⟨fun _ => hwants, fun e h => (by cases h), fun ev h => by cases h⟩
    | succ turns ih =>
        intro t hwants
        refine Proc.Grants.bind (pollRecv_grants hwants) ?_
        intro result t hleaves
        cases result with
        | none => exact ih t (hleaves.waits rfl)
        | some result => exact hleaves
  have htest : TunnelGrants me
      (fun closed t => Wants side me [] t ∧
        (closed = true → (t.pair.stream side).closed = true)) t
      (Proc.observe (.stream (side, .closedTest))
        (fun t => (t.pair.stream side).closed)) := by
    apply Proc.Grants.atomic
    intro _ t' hrelies hsound
    exact ⟨hsound, .of_kept (fun _ => ⟨rfl, rfl⟩) (fun _ => id),
      hwants.relied hrelies, id⟩
  unfold tunnelRecv
  refine Proc.Grants.bind htest ?_
  rintro closed t ⟨hwants, hclosed⟩
  split
  · rename_i hover
    exact ⟨fun h => (by cases h), fun _ _ => ⟨hwants, hclosed hover⟩,
      fun ev h => by cases h⟩
  · exact hawait turns t hwants

/-- What the loop of `Read` leaves behind. -/
structure FillLeaves (side : Side) (me : ℕ) (result : Option (Except EwpError Unit))
    (t : Tunnel) : Prop where
  filled : result = some (.ok ()) → Holds side me [] t
  failed : ∀ e, result = some (.error e) → Holds side me [] t ∧ ReadOver side t

theorem Holds.noData
    {data : Bytes} {t : Tunnel} (hholds : Holds side me data t)
    (hdata : data = []) : Holds side me [] t :=
  hdata ▸ hholds

theorem storeBuf_grants
    {t : Tunnel} {payload : Bytes} (hwants : Wants side me payload t) :
    TunnelGrants me (fun _ => Holds side me []) t
      (Proc.atomic (.bufStore side) (fun _ t => ((), t.storeBuf side payload))) := by
  apply Proc.Grants.atomic
  intro _ t' hrelies hsound
  have hwants' := hwants.relied hrelies
  have hwhole := hwants'.whole
  rw [hwants'.empty, List.append_nil] at hwhole
  have hstored : (t'.ends side).reads.flatMap Prod.snd ++ payload =
      t'.arrived side := hwhole
  obtain ⟨hnext, hmoves⟩ := hsound.setEnd
    (e := { t'.ends side with readBuf := payload }) (Or.inl hwants'.lock)
    ⟨[], by simp, by simp⟩ (by rw [hstored]) (fun _ => hstored)
  refine ⟨hnext, hmoves, ?_, ?_, ?_⟩
  · simpa [Tunnel.storeBuf] using hwants'.lock
  · simpa [Tunnel.storeBuf, Tunnel.readBy] using hwants'.before
  · rw [List.append_nil, Tunnel.out, Tunnel.storeBuf, Tunnel.setEnd_self]
    exact hstored

theorem fillTunnelBuf_grants
    {t : Tunnel} (hholds : Holds side me [] t) (turns : ℕ) :
    TunnelGrants me (FillLeaves side me) t (fillTunnelBuf P side turns) := by
  induction turns generalizing t with
  | zero => exact ⟨fun h => (by cases h), fun e h => by cases h⟩
  | succ turns ih =>
      have htest : TunnelGrants me
          (fun readBuf t => Holds side me [] t ∧ (t.ends side).readBuf = readBuf) t
          (Proc.observe (.bufTest side) (fun t => (t.ends side).readBuf)) := by
        apply Proc.Grants.atomic
        intro _ t' hrelies hsound
        exact ⟨hsound, .of_kept (fun _ => ⟨rfl, rfl⟩) (fun _ => id),
          (hholds.relied hrelies).1, rfl⟩
      unfold fillTunnelBuf
      refine Proc.Grants.bind htest ?_
      rintro readBuf t ⟨hholds, rfl⟩
      split
      · exact ⟨fun _ => hholds, fun e h => by cases h⟩
      · rename_i hempty
        rw [not_not] at hempty
        refine Proc.Grants.bind (tunnelRecv_grants ⟨hholds, hempty⟩ turns) ?_
        intro result t hleaves
        rcases result with _ | e | ev
        · exact ⟨fun h => (by cases h), fun e h => by cases h⟩
        · obtain ⟨hwants, hclosed⟩ := hleaves.failed e rfl
          refine ⟨fun h => (by cases h), fun _ _ => ⟨hwants.toHolds, ?_⟩⟩
          have hwhole := hwants.whole
          rw [hwants.empty, List.append_nil, List.append_nil] at hwhole
          exact Or.inl ⟨hclosed, by rw [hwhole]⟩
        · obtain ⟨hwants, r, hr, hev⟩ := hleaves.event ev rfl
          dsimp only
          split
          · rename_i htype
            have hdata : ev.data = ev.payload.bytes := if_pos htype
            rw [hdata] at hwants
            split
            · rename_i hnone
              exact ih (hwants.toHolds.noData hnone)
            · exact Proc.Grants.bind (storeBuf_grants hwants) (fun _ _ => ih)
          · rename_i htype
            have hdata : ev.data = [] := if_neg htype
            have hholds := hwants.toHolds.noData hdata
            split
            · exact ih hholds
            · rename_i hcover
              refine ⟨fun h => (by cases h), fun _ _ => ⟨hholds, Or.inr ⟨r, hr, ?_⟩⟩⟩
              rw [hev]
              simp only [tunnelTypes, List.mem_cons, List.not_mem_nil, or_false]
                at hcover ⊢
              tauto

theorem lockRead_grants
    {t : Tunnel} (hbefore : t.readBy side me = []) (turns : ℕ) :
    TunnelGrants me (fun locked t => locked = true → Holds side me [] t) t
      (lockRead side me turns) := by
  induction turns generalizing t with
  | zero => exact fun h => by cases h
  | succ turns ih =>
      have htry : TunnelGrants me
          (fun taken t => t.readBy side me = [] ∧
            (taken = true → Holds side me [] t)) t
          (Proc.atomic (.readLock side) (fun _ t =>
            if (t.ends side).readMu = none then (true, t.takeLock side me)
            else (false, t))) := by
        apply Proc.Grants.atomic
        intro _ t' hrelies hsound
        have hbefore' := (hrelies.entries side).trans hbefore
        by_cases hfree : (t'.ends side).readMu = none
        · simp only [if_pos hfree]
          have hwhole := (hsound side).free hfree
          obtain ⟨hnext, hmoves⟩ := hsound.setEnd
            (e := { t'.ends side with readMu := some me }) (Or.inr hfree)
            ⟨[], by simp, by simp⟩ (by rw [← hwhole]; rfl) (fun h => by cases h)
          have hsame : (t'.takeLock side me).readBy side me = [] := by
            rw [Tunnel.readBy, Tunnel.takeLock, Tunnel.setEnd_self]
            exact hbefore'
          refine ⟨hnext, hmoves, hsame, fun _ => ⟨?_, hsame, ?_⟩⟩
          · rw [Tunnel.takeLock, Tunnel.setEnd_self]
          · rw [List.append_nil, Tunnel.out, Tunnel.takeLock, Tunnel.setEnd_self]
            exact hwhole
        · simp only [if_neg hfree]
          exact ⟨hsound, .of_kept (fun _ => ⟨rfl, rfl⟩) (fun _ => id), hbefore',
            fun h => by cases h⟩
      unfold lockRead
      refine Proc.Grants.bind htry ?_
      rintro taken t ⟨hbefore, hholds⟩
      split
      · rename_i htaken
        exact fun _ => hholds htaken
      · exact ih hbefore

/-- What a `Read` that has returned stands for. -/
structure ReadLeaves (side : Side) (me : ℕ) (result : Option (Except EwpError Bytes))
    (t : Tunnel) : Prop where
  data : ∀ bytes, result = some (.ok bytes) → t.readBy side me = [(me, bytes)]
  failed : ∀ e, result = some (.error e) →
    t.readBy side me = [] ∧ ReadOver side t

theorem ReadLeaves.grown
    {result : Option (Except EwpError Bytes)} {t t' : Tunnel}
    (hleaves : ReadLeaves side me result t) (hrelies : TunnelRelies me t t') :
    ReadLeaves side me result t' where
  data := fun bytes hresult =>
    (hrelies.entries side).trans (hleaves.data bytes hresult)
  failed := fun e hresult =>
    ⟨(hrelies.entries side).trans (hleaves.failed e hresult).1,
      (hleaves.failed e hresult).2.grown (hrelies.grows side)⟩

theorem tunnelRead_grants
    {t : Tunnel} (hbefore : t.readBy side me = []) (turns n : ℕ) :
    TunnelGrants me (ReadLeaves side me) t (tunnelRead P turns side me n) := by
  have hwaits : ∀ t, ReadLeaves side me none t :=
    fun t => ⟨fun bytes h => (by cases h), fun e h => by cases h⟩
  unfold tunnelRead
  refine Proc.Grants.bind (lockRead_grants hbefore turns) ?_
  intro locked t hlocked
  split
  · rename_i htaken
    refine Proc.Grants.bind (fillTunnelBuf_grants (hlocked htaken) turns) ?_
    intro result t hleaves
    rcases result with _ | e | _
    · exact hwaits t
    · obtain ⟨hholds, hover⟩ := hleaves.failed e rfl
      have hunlock : TunnelGrants me
          (fun _ t => t.readBy side me = [] ∧ ReadOver side t) t
          (Proc.atomic (.readReturn side) (fun _ t => ((), t.unlock side))) := by
        apply Proc.Grants.atomic
        intro _ t' hrelies hsound
        obtain ⟨hholds', _⟩ := hholds.relied hrelies
        have hover' := hover.grown (hrelies.grows side)
        have hwhole := hholds'.whole
        rw [List.append_nil] at hwhole
        obtain ⟨hnext, hmoves⟩ := hsound.setEnd
          (e := { t'.ends side with readMu := none }) (Or.inl hholds'.lock)
          ⟨[], by simp, by simp⟩ (by rw [← hwhole]; rfl) (fun _ => hwhole)
        refine ⟨hnext, hmoves, ?_, hover'.grown (hmoves.grows side)⟩
        rw [Tunnel.readBy, Tunnel.unlock, Tunnel.setEnd_self]
        exact hholds'.before
      refine Proc.Grants.bind hunlock ?_
      intro _ t hfailed
      exact ⟨fun bytes h => (by cases h), fun _ _ => hfailed⟩
    · have hgive : TunnelGrants me
          (fun bytes t => t.readBy side me = [(me, bytes)]) t
          (Proc.atomic (.readReturn side) (fun _ t =>
            ((t.ends side).readBuf.take n, t.giveOut side me n))) := by
        apply Proc.Grants.atomic
        intro _ t' hrelies hsound
        obtain ⟨hholds', _⟩ := (hleaves.filled rfl).relied hrelies
        have hwhole := hholds'.whole
        rw [List.append_nil] at hwhole
        have hgiven : ((t'.ends side).reads ++
            [(me, (t'.ends side).readBuf.take n)]).flatMap Prod.snd ++
              (t'.ends side).readBuf.drop n = t'.arrived side := by
          rw [List.flatMap_append, List.append_assoc, ← hwhole]
          simp [Tunnel.out]
        obtain ⟨hnext, hmoves⟩ := hsound.setEnd
          (e := { readMu := none
                  readBuf := (t'.ends side).readBuf.drop n
                  reads := (t'.ends side).reads ++
                    [(me, (t'.ends side).readBuf.take n)] })
          (Or.inl hholds'.lock) ⟨_, rfl, by simp⟩ (by rw [hgiven]) (fun _ => hgiven)
        refine ⟨hnext, hmoves, ?_⟩
        have hbefore := hholds'.before
        rw [Tunnel.readBy] at hbefore
        rw [Tunnel.readBy, Tunnel.giveOut, Tunnel.setEnd_self, List.filter_append,
          hbefore]
        simp
      refine Proc.Grants.bind hgive ?_
      intro bytes t hentry
      refine ⟨fun bytes' h => ?_, fun e h => by cases h⟩
      cases h
      exact hentry
  · exact hwaits t

end Grants

end SingEwp
