import SingEwp.StreamRuns
import SingEwp.Waiting

/-!
# Failures close a stream

Any number of `Send*`, `Recv` and `Close` calls on one stream.  `Recv` is split
here at its test of `closed`, so that a stream may be closed under a receiver
that has passed the test.  A call that fails in the transport or in decoding, and
`Close`, leave the stream closed, and the transport with it.

Closing is one action here, the two stores of `Close` at once: between them other
calls find the flag set and the transport still open.  Where that moment matters,
`SingEwp.StreamClosing` takes `Close` apart.
-/

namespace SingEwp

variable {P : Primitives}

/-- `Recv` after its test of `closed`. -/
def recvOpened (P : Primitives) (env : StreamEnv) (s : SecureStream) :
    Except EwpError Event × SecureStream :=
  match env.readMessage with
  | .error e => (.error e, s.close)
  | .ok wire =>
      match (decodeFrame P wire s.recv).1 with
      | .error e => (.error (.decodeFrame e), s.close)
      | .ok (df, recv) =>
          let s := s.countReceived recv wire
          match eventOf df with
          | .error e => (.error e, s.close)
          | .ok ev => (.ok ev, { s with received := s.received ++ [⟨df, ev⟩] })

theorem recv_eq (env : StreamEnv) (s : SecureStream) :
    recv P env s =
      if s.closed then (.error (.io .closedPipe), s) else recvOpened P env s :=
  rfl

/-- A call on the stream. -/
inductive StreamCall where
  | send (call : SendCall)
  | recv
  | close

namespace StreamCall

def proc (P : Primitives) : StreamCall → StreamProc StreamResult
  | .send call => do
      let outcome ← call.proc P
      pure (.sent outcome)
  | .recv => do
      let closed ← Proc.observe .closedTest SecureStream.closed
      if closed then pure (.received (.error (.io .closedPipe)))
      else
        Proc.atomic .recv (fun env s =>
          (.received (recvOpened P env s).1, (recvOpened P env s).2))
  | .close => Proc.atomic .close (fun _ s => (.closed, s.close))

end StreamCall

def callPool (P : Primitives) (s : SecureStream) (calls : List StreamCall) :
    Pool StreamLabel StreamEnv SecureStream StreamResult where
  shared := s
  threads := calls.map (StreamCall.proc P)

/-- The results that a call has on a stream that is over only, be it that the call
has ended the stream or that it has found it closed. -/
def StreamResult.Fatal : StreamResult → Prop
  | .received (.error _) => True
  | .sent (.error (.transportSend _)) => True
  | .closed => True
  | _ => False

/-! ## Closing once -/

/-- The transport has been closed as often as the stream. -/
def ClosedOnce (s : SecureStream) : Prop :=
  s.trCloses = if s.closed then 1 else 0

/-- A closed stream stays closed. -/
def StaysClosed (s s' : SecureStream) : Prop := s.closed = true → s'.closed = true

theorem StaysClosed.trans
    {a b c : SecureStream} (hab : StaysClosed a b) (hbc : StaysClosed b c) :
    StaysClosed a c :=
  fun ha => hbc (hab ha)

theorem ClosedOnce.close {s : SecureStream} (honce : ClosedOnce s) :
    ClosedOnce s.close := by
  unfold ClosedOnce SecureStream.close at *
  by_cases hclosed : s.closed = true
  · simpa [hclosed] using honce
  · simpa [hclosed] using honce

theorem SecureStream.close_of_closed {s : SecureStream}
    (hclosed : s.closed = true) : s.close = s := by
  simp [SecureStream.close, hclosed]

/-- What every action of a call does to the life of the stream. -/
structure KeepsLife (s s' : SecureStream) : Prop where
  once : ClosedOnce s → ClosedOnce s'
  stays : StaysClosed s s'

theorem KeepsLife.close_of_eq
    {s s' : SecureStream} (hcloses : s'.trCloses = s.trCloses)
    (hclosed : s'.closed = s.closed) : KeepsLife s s'.close where
  once := by
    intro honce
    apply ClosedOnce.close
    rw [ClosedOnce, hcloses, hclosed]
    exact honce
  stays := fun _ => s'.close_closed

theorem KeepsLife.of_eq
    {s s' : SecureStream} (hcloses : s'.trCloses = s.trCloses)
    (hclosed : s'.closed = s.closed) : KeepsLife s s' where
  once := by
    intro honce
    rw [ClosedOnce, hcloses, hclosed]
    exact honce
  stays := fun hs => hclosed.trans hs

theorem sendFrameLocked_life
    (t : FrameType) (metaBytes payload : Bytes) (padLen : ℤ) (env : StreamEnv)
    (s : SecureStream) :
    KeepsLife s (sendFrameLocked P t metaBytes payload padLen env s).2 ∧
      ((∃ e, (sendFrameLocked P t metaBytes payload padLen env s).1 =
          .error (.transportSend e)) →
        (sendFrameLocked P t metaBytes payload padLen env s).2.closed =
          true) := by
  have hstep := sendFrameLocked_step P t metaBytes payload padLen env s
  generalize sendFrameLocked P t metaBytes payload padLen env s = r at hstep ⊢
  cases hstep with
  | kept outcome cap failed =>
      refine ⟨.of_eq rfl rfl, ?_⟩
      rintro ⟨e, rfl⟩
      rcases failed with hpanic | ⟨e', hencode⟩
      · cases hpanic
      · cases hencode
  | taken cap fr htype hmeta hpayload hsend =>
      refine ⟨.of_eq rfl rfl, ?_⟩
      rintro ⟨e, he⟩
      cases he
  | refused cap fr htype hmeta hpayload e hsend =>
      exact ⟨.close_of_eq rfl rfl, fun _ => SecureStream.close_closed _⟩

theorem recvOpened_life (env : StreamEnv) (s : SecureStream) :
    KeepsLife s (recvOpened P env s).2 ∧
      ((∃ e, (recvOpened P env s).1 = .error e) →
        (recvOpened P env s).2.closed = true) := by
  unfold recvOpened
  split
  · exact ⟨.close_of_eq rfl rfl, fun _ => SecureStream.close_closed _⟩
  split
  · exact ⟨.close_of_eq rfl rfl, fun _ => SecureStream.close_closed _⟩
  dsimp only
  split
  · exact ⟨.close_of_eq rfl rfl, fun _ => SecureStream.close_closed _⟩
  · refine ⟨.of_eq rfl rfl, ?_⟩
    rintro ⟨e, he⟩
    cases he

/-! ## The methods over any `sendFrame` -/

/-- A target is encoded unless its name is too long. -/
theorem buildUDPMeta_error_iff
    (globalID : GlobalID) (target : Address) (e : EwpError) :
    buildUDPMeta globalID target = .error e ↔
      e = .domainLen ∧ maxDomainLen < target.domain.length := by
  unfold buildUDPMeta
  by_cases hgiven : (target.isDomain || target.addr.isValid) = true
  · rw [if_pos hgiven]
    by_cases hlong : maxDomainLen < target.domain.length
    · have hdomain : target.domain ≠ [] := by
        rintro hnil
        simp [hnil] at hlong
      simp [Address.append, Address.isDomain, hdomain, hlong, eq_comm]
    · have hencodable : target.Encodable := by
        unfold Address.Encodable
        cases hdomain : target.isDomain with
        | true => exact Or.inl ⟨rfl, not_lt.mp hlong⟩
        | false => exact Or.inr ⟨rfl, by simpa [hdomain] using hgiven⟩
      obtain ⟨buf, hbuf⟩ := (Address.append_ok_iff target).mpr hencodable
      have hle := Address.encodedLen_le hencodable
      rw [← Address.append_length hbuf] at hle
      rw [Address.append_eq_map, hbuf]
      have hshort : ¬maxMetaLen < (globalID.val ++ buf).length := by
        simp [globalID.property] at hle ⊢
        omega
      simp only [Except.map, if_neg hshort]
      simp [hlong]
  · rw [if_neg hgiven]
    have hnil : target.domain = [] := by
      by_contra hdomain
      simp [Address.isDomain, hdomain] at hgiven
    simp [hnil]

section Over

variable {ℓ ε σ : Type}
variable {send : FrameType → Bytes → Bytes → ℤ → Proc ℓ ε σ (Outcome EwpError Unit)}
variable {draw : ℕ → Proc ℓ ε σ ℕ}
variable {ready : ℓ → σ → Bool} {R : σ → σ → Prop} {G : ℓ → σ → σ → Prop}
variable {I : σ → Prop} {Post : Outcome EwpError Unit → σ → Prop}

/-- What every `sendFrame` of a method leaves, the method leaves. -/
theorem SendCall.over_grants
    (hsend : ∀ t metaBytes payload padLen s,
      Proc.GrantsWhen ready R G I Post s (send t metaBytes payload padLen))
    (hdraw : ∀ len s, Proc.GrantsWhen ready R G I (fun _ _ => True) s (draw len))
    (hok : ∀ s, Post (.ok ()) s) (hbuild : ∀ s, Post (.error .domainLen) s)
    (call : SendCall) (s : σ) :
    Proc.GrantsWhen ready R G I Post s (call.over send draw) := by
  have hchunks : ∀ fuel payload s, Proc.GrantsWhen ready R G I Post s
      (sendChunksOver send draw fuel payload) := by
    intro fuel
    induction fuel with
    | zero => exact fun _ s => hok s
    | succ fuel ih =>
        intro payload s
        unfold sendChunksOver
        split
        · exact hok s
        · refine Proc.GrantsWhen.bind (hdraw _ s) fun chunk s _ => ?_
          refine Proc.GrantsWhen.bind (hsend _ _ _ _ s) fun outcome s hpost => ?_
          split
          · exact ih _ s
          · exact hpost
  have haddressed : ∀ t globalID target payload,
      Proc.GrantsWhen ready R G I Post s
        (sendAddressedOver send t globalID target payload) := by
    intro t globalID target payload
    unfold sendAddressedOver
    cases hmeta : buildUDPMeta globalID target with
    | error e =>
        obtain ⟨rfl, _⟩ := (buildUDPMeta_error_iff globalID target e).mp hmeta
        exact hbuild s
    | ok metaBytes => exact hsend _ _ _ _ s
  cases call with
  | tcpData payload =>
      change Proc.GrantsWhen ready R G I Post s (sendTCPDataOver send draw payload)
      unfold sendTCPDataOver
      split
      · exact hsend _ _ _ _ s
      · exact hchunks _ _ s
  | udpNew globalID target initial => exact haddressed _ _ _ _
  | udpData globalID target payload => exact haddressed _ _ _ _
  | probeResp globalID observed => exact haddressed _ _ _ _
  | _ => exact hsend _ _ _ _ s

end Over

/-! ## Fatal results -/

/-- A send that failed in the transport has left the stream closed. -/
def SendFatal (outcome : Outcome EwpError Unit) (s : SecureStream) : Prop :=
  (∃ e, outcome = .error (.transportSend e)) → s.closed = true

abbrev LifeGrants {α : Type} (Post : α → SecureStream → Prop) (s : SecureStream)
    (p : StreamProc α) : Prop :=
  Proc.Grants StaysClosed (fun _ => StaysClosed) ClosedOnce Post s p

theorem observe_grants
    {α : Type} {Post : α → SecureStream → Prop} {label : StreamLabel}
    {read : SecureStream → α} (s : SecureStream)
    (hread : ∀ s, Post (read s) s) :
    LifeGrants Post s (Proc.observe label read) :=
  Proc.Grants.atomic fun _ s' _ honce => ⟨honce, id, hread s'⟩

theorem sendFrame_grants
    (s : SecureStream) (t : FrameType) (metaBytes payload : Bytes)
    (padLen : ℤ) :
    LifeGrants SendFatal s (sendFrame P t metaBytes payload padLen) := by
  have htest : LifeGrants (fun _ _ => True) s
      (Proc.observe .closedTest SecureStream.closed) :=
    observe_grants s (fun _ => trivial)
  refine Proc.Grants.bind htest ?_
  intro closed s' _
  split
  · rintro ⟨e, he⟩
    cases he
  · apply Proc.Grants.atomic
    intro env s'' _ honce
    obtain ⟨hlife, hfatal⟩ :=
      sendFrameLocked_life t metaBytes payload padLen env s''
    exact ⟨hlife.once honce, hlife.stays, hfatal⟩

theorem SendCall.grants (s : SecureStream) (call : SendCall) :
    LifeGrants SendFatal s (call.proc P) := by
  rw [call.proc_eq_over P, LifeGrants, Proc.grants_iff_grantsWhen]
  apply SendCall.over_grants
  · intro t metaBytes payload padLen s
    exact Proc.grants_iff_grantsWhen.mp (sendFrame_grants s t metaBytes payload padLen)
  · exact fun _ s => Proc.GrantsWhen.atomic fun _ _ _ honce _ => ⟨honce, id, trivial⟩
  · rintro s ⟨e, he⟩
    cases he
  · rintro s ⟨e, he⟩
    cases he

/-- A fatal result leaves the stream closed. -/
def ClosedIfFatal (result : StreamResult) (s : SecureStream) : Prop :=
  result.Fatal → s.closed = true

theorem ClosedIfFatal.grown
    {result : StreamResult} {s s' : SecureStream} (hstays : StaysClosed s s')
    (hfatal : ClosedIfFatal result s) : ClosedIfFatal result s' :=
  fun hresult => hstays (hfatal hresult)

theorem StreamCall.grants (s : SecureStream) (call : StreamCall) :
    LifeGrants ClosedIfFatal s (call.proc P) := by
  cases call with
  | send call =>
      refine Proc.Grants.bind (call.grants s) ?_
      intro outcome s' hfatal hresult
      rcases outcome with _ | e | _
      · exact hresult.elim
      · cases e with
        | transportSend e => exact hfatal ⟨e, rfl⟩
        | _ => exact hresult.elim
      · exact hresult.elim
  | recv =>
      have htest : LifeGrants (fun closed s => closed = true → s.closed = true)
          s (Proc.observe .closedTest SecureStream.closed) :=
        observe_grants s (fun _ => id)
      refine Proc.Grants.bind htest ?_
      intro closed s' hclosed
      split
      · rename_i hset
        exact fun _ => hclosed hset
      · apply Proc.Grants.atomic
        intro env s'' _ honce
        obtain ⟨hlife, hfatal⟩ := recvOpened_life (P := P) env s''
        refine ⟨hlife.once honce, hlife.stays, ?_⟩
        intro hresult
        cases hout : (recvOpened P env s'').1 with
        | error e => exact hfatal ⟨e, hout⟩
        | ok ev =>
            rw [hout] at hresult
            exact hresult.elim
  | close =>
      apply Proc.Grants.atomic
      intro env s' _ honce
      exact ⟨honce.close, fun _ => s'.close_closed, fun _ => s'.close_closed⟩

/-! ## The actions of the calls -/

/-- `Recv` has passed its test in the third of the actions a call can take. -/
inductive CallAction (P : Primitives) :
    StreamLabel → (StreamEnv → SecureStream → SecureStream) → Prop where
  | stream {label update} (action : StreamAction P label update) :
      CallAction P label update
  | recvOpened : CallAction P .recv (fun env s => (recvOpened P env s).2)

theorem StreamAction.staysClosed
    {label : StreamLabel} {update : StreamEnv → SecureStream → SecureStream}
    (haction : StreamAction P label update) (env : StreamEnv)
    (s : SecureStream) : StaysClosed s (update env s) := by
  cases haction with
  | closedTest => exact id
  | chunkDraw => exact id
  | sendLocked t metaBytes payload padLen =>
      exact (sendFrameLocked_life t metaBytes payload padLen env s).1.stays
  | recv =>
      intro hclosed
      simp [recv_eq, hclosed]
  | close => exact fun _ => s.close_closed

theorem CallAction.staysClosed
    {label : StreamLabel} {update : StreamEnv → SecureStream → SecureStream}
    (haction : CallAction P label update) (env : StreamEnv)
    (s : SecureStream) : StaysClosed s (update env s) := by
  cases haction with
  | stream action => exact action.staysClosed env s
  | recvOpened => exact (recvOpened_life env s).1.stays

theorem StreamCall.acts (call : StreamCall) :
    Proc.Acts (CallAction P) (call.proc P) := by
  cases call with
  | send call =>
      exact ((call.acts P).mono fun _ _ => .stream).bind fun _ => trivial
  | recv =>
      refine Proc.Acts.bind (Proc.Acts.atomic (.stream .closedTest)) ?_
      intro closed
      split
      · trivial
      · exact Proc.Acts.atomic .recvOpened
  | close => exact Proc.Acts.atomic (.stream .close)

end SingEwp
