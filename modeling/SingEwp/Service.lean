import SingEwp.HandshakeAgreement
import SingEwp.PacketConn

/-!
# The handshake drivers

`handleTransport` of `server.go` and `handshake` of `client.go`, with a record of
what they do to their transport.  Deadlines are left out, and so is the source
address in the metadata.  Both drivers answer a failed handshake with silence:
they close the transport and the server has sent nothing, the client nothing but
its ClientHello.
-/

namespace SingEwp

variable {P : Primitives}

/-- A call on the `MessageTransport`; a send records whether the transport took
the message. -/
inductive TransportCall where
  | readMessage
  | sendMessage (msg : Bytes) (taken : Bool)
  | close
  deriving DecidableEq

namespace TransportCall

/-- The messages passed to `SendMessage`. -/
def offered (calls : List TransportCall) : List Bytes :=
  calls.filterMap fun
    | .sendMessage msg _ => some msg
    | _ => none

/-- The messages that the transport took. -/
def sent (calls : List TransportCall) : List Bytes :=
  calls.filterMap fun
    | .sendMessage msg true => some msg
    | _ => none

def closes (calls : List TransportCall) : ℕ := calls.count .close

end TransportCall

/-! ## The server -/

structure Metadata where
  userUUID : Uuid
  destination : Address

/-- A call of the `Handler`. -/
inductive HandlerCall where
  | newConnection (stream : SecureStream) (metadata : Metadata)
  | newPacketConnection (conn : PacketEnd) (metadata : Metadata)

/-- What `handleTransport` obtains from outside: the first message, what
`AcceptClientHelloWithReplay` needs, the transport's send, the messages that
follow, and how the transport ends when there are no more of them. -/
structure ServeEnv (P : Primitives) where
  hello : Except EwpError Bytes
  accept : AcceptEnv P
  send : Bytes → Option EwpError
  inbox : List Bytes
  lost : Option EwpError

/-- How `handleTransport` ends: in a call of the handler, with an error, or not
yet, when it waits for the first frame. -/
structure ServeRun where
  calls : List TransportCall
  handled : Option HandlerCall := none
  err : Option EwpError := none
  panicked : Bool := false
  replay : Option ReplayCache

/-- What a stream has done to its transport by way of closing it. -/
def SecureStream.closeCalls (s : SecureStream) : List TransportCall :=
  List.replicate s.trCloses .close

/-- The `CommandUDP` arm of `handleTransport`. -/
def serveUDP (P : Primitives) (metadata : Metadata) (s : SecureStream)
    (inbox : List Bytes) (lost : Option EwpError) (run : ServeRun) : ServeRun :=
  match recvQueued P s inbox with
  | none =>
      match lost with
      | none => { run with calls := run.calls ++ [.readMessage] }
      | some e =>
          let s := (recv P (readingEnv (.error e)) s).2.close
          { run with
            calls := run.calls ++ [.readMessage] ++ s.closeCalls
            err := some (.readUDPNew e) }
  | some (.error e, s, _) =>
      { run with
        calls := run.calls ++ [.readMessage] ++ s.close.closeCalls
        err := some (.readUDPNew e) }
  | some (.ok ev, s, inbox) =>
      if ev.type ≠ frameUDPNew then
        { run with
          calls := run.calls ++ [.readMessage] ++ s.close.closeCalls
          err := some (.expectedUDPNew ev.type.code) }
      else
        { run with
          calls := run.calls ++ [.readMessage]
          handled := some (.newPacketConnection
            ⟨newServerPacketConn s ev.globalID
              (ev.address.getD metadata.destination) ev.payload, inbox⟩
            metadata) }

/-- The dispatch at the end of `handleTransport`. -/
def dispatch (P : Primitives) (keys : SessionKeys) (ch : ClientHello)
    (inbox : List Bytes) (lost : Option EwpError) (run : ServeRun) : ServeRun :=
  let stream := newServerSecureStream keys
  let metadata : Metadata := { userUUID := ch.uuid, destination := ch.address }
  if ch.command = commandTCP then
    { run with handled := some (.newConnection stream metadata) }
  else if ch.command = commandUDP then
    serveUDP P metadata stream inbox lost run
  else
    { run with
      calls := run.calls ++ stream.close.closeCalls
      err := some (.unsupportedCommand ch.command.code) }

def handleTransport (P : Primitives) (lookup : Option UUIDLookup)
    (replay : Option ReplayCache) (env : ServeEnv P) : ServeRun :=
  match lookup with
  | none =>
      { calls := [.close], err := some .noUsersConfigured, replay := replay }
  | some lookup =>
      match env.hello with
      | .error e =>
          { calls := [.readMessage, .close]
            err := some (.readClientHello e), replay := replay }
      | .ok helloIn =>
          match acceptClientHelloWithReplay P helloIn lookup replay
            env.accept with
          | (.error e, replay) =>
              { calls := [.readMessage, .close]
                err := some (.acceptClientHello e), replay := replay }
          | (.ok (helloOut, res), replay) =>
              match env.send helloOut with
              | some e =>
                  { calls := [.readMessage, .sendMessage helloOut false, .close]
                    err := some (.sendServerHello e), replay := replay }
              | none =>
                  match res.clientHello with
                  | none =>
                      { calls := [.readMessage, .sendMessage helloOut true]
                        panicked := true, replay := replay }
                  | some ch =>
                      dispatch P res.keys ch env.inbox env.lost
                        { calls := [.readMessage, .sendMessage helloOut true]
                          replay := replay }

/-! ## The client -/

/-- What `handshake` obtains from outside; the send of `write` is the
transport's. -/
structure DialEnv (P : Primitives) where
  write : WriteHelloEnv P
  reply : Except EwpError Bytes
  readNow : ℤ

structure DialRun where
  calls : List TransportCall
  result : Outcome EwpError SecureStream

/-- The send of a ClientHello, if there was one. -/
def helloCalls (send : Bytes → Option EwpError) (sent : Option SentHello) :
    List TransportCall :=
  sent.toList.map fun sent => .sendMessage sent.wire (send sent.wire).isNone

def clientHandshake (P : Primitives) (uuid : Uuid) (cmd : Command)
    (dst : Address) (env : DialEnv P) : DialRun :=
  let write := writeClientHello P uuid cmd dst env.write
  let sends := helloCalls env.write.send write.2
  match write.1 with
  | .error e =>
      { calls := sends ++ [.close], result := .error (.writeClientHello e) }
  | .ok state =>
      match env.reply with
      | .error e =>
          { calls := sends ++ [.readMessage, .close]
            result := .error (.readServerHello e) }
      | .ok shBytes =>
          match (readServerHello P state shBytes env.readNow).1 with
          | .error e =>
              { calls := sends ++ [.readMessage, .close]
                result := .error (.processServerHello e) }
          | .panic => { calls := sends ++ [.readMessage], result := .panic }
          | .ok res =>
              { calls := sends ++ [.readMessage]
                result := .ok (newClientSecureStream res.keys) }

/-! ## What the drivers have done when they fail -/

namespace TransportCall

@[simp] theorem sent_append (calls more : List TransportCall) :
    sent (calls ++ more) = sent calls ++ sent more :=
  List.filterMap_append

@[simp] theorem offered_append (calls more : List TransportCall) :
    offered (calls ++ more) = offered calls ++ offered more :=
  List.filterMap_append

@[simp] theorem closes_append (calls more : List TransportCall) :
    closes (calls ++ more) = closes calls + closes more :=
  List.count_append

@[simp] theorem sent_readMessage_cons (calls : List TransportCall) :
    sent (.readMessage :: calls) = sent calls := rfl

end TransportCall

open TransportCall

/-- The errors `handleTransport` returns without having sent a ServerHello. -/
def BeforeServerHello (e : EwpError) : Prop :=
  e = .noUsersConfigured ∨ (∃ cause, e = .readClientHello cause) ∨
    (∃ cause, e = .acceptClientHello cause) ∨ ∃ cause, e = .sendServerHello cause

@[simp] theorem sent_closeCalls (s : SecureStream) : sent s.closeCalls = [] := by
  simp [SecureStream.closeCalls, sent]

theorem serveUDP_after
    (metadata : Metadata) (s : SecureStream) (inbox : List Bytes)
    (lost : Option EwpError) {run : ServeRun} (hopen : run.err = none) :
    sent (serveUDP P metadata s inbox lost run).calls = sent run.calls ∧
      ∀ e, (serveUDP P metadata s inbox lost run).err = some e →
        ¬BeforeServerHello e := by
  have hread : sent [] = [] := rfl
  unfold serveUDP
  split
  · split
    · simp [hopen, hread]
    · simp [BeforeServerHello]
  · simp [BeforeServerHello]
  · split
    · simp [BeforeServerHello]
    · simp [hopen, hread]

theorem dispatch_after
    (keys : SessionKeys) (ch : ClientHello) (inbox : List Bytes)
    (lost : Option EwpError) {run : ServeRun} (hopen : run.err = none) :
    sent (dispatch P keys ch inbox lost run).calls = sent run.calls ∧
      ∀ e, (dispatch P keys ch inbox lost run).err = some e →
        ¬BeforeServerHello e := by
  unfold dispatch
  dsimp only
  split
  · simp [hopen]
  split
  · exact serveUDP_after _ _ inbox lost hopen
  · simp [BeforeServerHello]

/-- How a run of `handleTransport` stands to its ServerHello: it has failed
before it and been silent, or the ServerHello is the one message sent. -/
inductive ServeRun.Silent (run : ServeRun) : Prop where
  | early (e : EwpError) (herr : run.err = some e)
      (hbefore : BeforeServerHello e) (hhandled : run.handled = none)
      (hcloses : closes run.calls = 1) (hsent : sent run.calls = [])
      (hoffered : (∀ cause, e ≠ .sendServerHello cause) →
        offered run.calls = [])
  | answered (reply : Bytes) (hsent : sent run.calls = [reply])
      (hlate : ∀ e, run.err = some e → ¬BeforeServerHello e)

theorem handleTransport_silent
    (P : Primitives) (lookup : Option UUIDLookup) (replay : Option ReplayCache)
    (env : ServeEnv P) : (handleTransport P lookup replay env).Silent := by
  unfold handleTransport
  cases lookup with
  | none => exact .early _ rfl (Or.inl rfl) rfl rfl rfl (fun _ => rfl)
  | some lookup =>
      cases env.hello with
      | error e =>
          exact .early _ rfl (Or.inr (Or.inl ⟨e, rfl⟩)) rfl rfl rfl
            (fun _ => rfl)
      | ok helloIn =>
          dsimp only
          cases acceptClientHelloWithReplay P helloIn lookup replay
            env.accept with
          | mk accepted replay =>
              cases accepted with
              | error e =>
                  exact .early _ rfl (Or.inr (Or.inr (Or.inl ⟨e, rfl⟩))) rfl rfl
                    rfl (fun _ => rfl)
              | ok answer =>
                  obtain ⟨helloOut, res⟩ := answer
                  dsimp only
                  cases env.send helloOut with
                  | some e =>
                      exact .early _ rfl (Or.inr (Or.inr (Or.inr ⟨e, rfl⟩))) rfl
                        rfl rfl (fun hsend => absurd rfl (hsend e))
                  | none =>
                      cases res.clientHello with
                      | none => exact .answered helloOut rfl (by simp)
                      | some ch =>
                          obtain ⟨hsent, hlate⟩ := dispatch_after (P := P)
                            res.keys ch env.inbox env.lost
                            (rfl : (ServeRun.mk [.readMessage,
                              .sendMessage helloOut true] none none false
                              replay).err = none)
                          exact .answered helloOut hsent hlate

theorem writeClientHello_keys
    {uuid : Uuid} {cmd : Command} {dst : Address} {env : WriteHelloEnv P}
    {state : ClientHandshakeState P}
    (hwrite : (writeClientHello P uuid cmd dst env).1 = .ok state) :
    state.x25519Priv ≠ none ∧ state.mlkemPriv ≠ none := by
  unfold writeClientHello at hwrite
  dsimp only at hwrite
  repeat' split at hwrite
  all_goals cases hwrite
  exact ⟨by simp, by simp⟩

/-- The private keys are there to be used. -/
theorem readServerHello_no_panic
    {state : ClientHandshakeState P} (hx25519 : state.x25519Priv ≠ none)
    (hmlkem : state.mlkemPriv ≠ none) (msg : Bytes) (now : ℤ) :
    (readServerHello P state msg now).1 ≠ .panic := by
  unfold readServerHello
  dsimp only
  repeat' split
  all_goals first
    | contradiction
    | simp

@[simp] theorem closes_helloCalls
    (send : Bytes → Option EwpError) (sent : Option SentHello) :
    closes (helloCalls send sent) = 0 := by
  cases sent <;> simp [closes, helloCalls]

@[simp] theorem offered_helloCalls
    (send : Bytes → Option EwpError) (sent : Option SentHello) :
    offered (helloCalls send sent) = (sent.map SentHello.wire).toList := by
  cases sent <;> simp [offered, helloCalls]

theorem clientHandshake_silent
    (P : Primitives) (uuid : Uuid) (cmd : Command) (dst : Address)
    (env : DialEnv P) :
    (clientHandshake P uuid cmd dst env).result ≠ .panic ∧
      ∀ e, (clientHandshake P uuid cmd dst env).result = .error e →
        closes (clientHandshake P uuid cmd dst env).calls = 1 ∧
        offered (clientHandshake P uuid cmd dst env).calls =
          ((writeClientHello P uuid cmd dst env.write).2.map
            SentHello.wire).toList := by
  have hclose : closes [.close] = 1 ∧ offered [.close] = [] := ⟨rfl, rfl⟩
  have hread : closes [.readMessage, .close] = 1 ∧
      offered [.readMessage, .close] = [] := ⟨rfl, rfl⟩
  unfold clientHandshake
  dsimp only
  cases hwrite : (writeClientHello P uuid cmd dst env.write).1 with
  | error e => simp [hclose]
  | ok state =>
      obtain ⟨hx25519, hmlkem⟩ := writeClientHello_keys hwrite
      cases env.reply with
      | error e => simp [hread]
      | ok shBytes =>
          dsimp only
          cases houtcome : (readServerHello P state shBytes env.readNow).1 with
          | error e => simp [hread]
          | panic =>
              exact absurd houtcome
                (readServerHello_no_panic hx25519 hmlkem shBytes env.readNow)
          | ok res => simp

/-- A driver that fails has closed its transport.  If the ServerHello is not
out, the server has sent nothing and called no handler, and a client has offered
at most its ClientHello. -/
theorem failed_handshakes_are_silent (P : Primitives) :
    (∀ (lookup : Option UUIDLookup) (replay : Option ReplayCache)
        (env : ServeEnv P),
      (∀ e, (handleTransport P lookup replay env).err = some e →
        BeforeServerHello e →
        sent (handleTransport P lookup replay env).calls = [] ∧
          closes (handleTransport P lookup replay env).calls = 1 ∧
          (handleTransport P lookup replay env).handled = none ∧
          ((∀ cause, e ≠ .sendServerHello cause) →
            offered (handleTransport P lookup replay env).calls = [])) ∧
      (sent (handleTransport P lookup replay env).calls = [] →
        ∃ e, (handleTransport P lookup replay env).err = some e ∧
          BeforeServerHello e)) ∧
    ∀ (uuid : Uuid) (cmd : Command) (dst : Address) (env : DialEnv P),
      (clientHandshake P uuid cmd dst env).result ≠ .panic ∧
      ∀ e, (clientHandshake P uuid cmd dst env).result = .error e →
        closes (clientHandshake P uuid cmd dst env).calls = 1 ∧
        offered (clientHandshake P uuid cmd dst env).calls =
          ((writeClientHello P uuid cmd dst env.write).2.map
            SentHello.wire).toList := by
  refine ⟨?_, clientHandshake_silent P⟩
  intro lookup replay env
  cases handleTransport_silent P lookup replay env with
  | early e herr hbefore hhandled hcloses hsent hoffered =>
      refine ⟨?_, fun _ => ⟨e, herr, hbefore⟩⟩
      intro e' herr' _
      cases herr.symm.trans herr'
      exact ⟨hsent, hcloses, hhandled, hoffered⟩
  | answered reply hsent hlate =>
      refine ⟨fun e herr hbefore => absurd hbefore (hlate e herr), ?_⟩
      intro hnone
      rw [hsent] at hnone
      cases hnone

namespace Transparent

def strayEnv : ServeEnv suite where
  hello := .ok [1, 2, 3]
  accept := acceptEnv 1000
  send := fun _ => none
  inbox := []
  lost := none

def droppedEnv : DialEnv suite where
  write := writeEnv
  reply := .error (.io .eof)
  readNow := 1000

/-- A server that gets three stray bytes, and a client whose server hangs up. -/
theorem failed_handshakes_are_silent_stray :
    (sent (handleTransport suite (some (makeUUIDLookup suite [user])) none
        strayEnv).calls = [] ∧
      closes (handleTransport suite (some (makeUUIDLookup suite [user])) none
        strayEnv).calls = 1 ∧
      (handleTransport suite (some (makeUUIDLookup suite [user])) none
        strayEnv).handled = none) ∧
    closes (clientHandshake suite user commandTCP (hello 1000).address
      droppedEnv).calls = 1 := by
  obtain ⟨hserver, hclient⟩ := failed_handshakes_are_silent suite
  obtain ⟨hsent, hcloses, hhandled, _⟩ :=
    (hserver (some (makeUUIDLookup suite [user])) none strayEnv).1
      (.acceptClientHello .handshakeShort) rfl
      (Or.inr (Or.inr (Or.inl ⟨_, rfl⟩)))
  refine ⟨⟨hsent, hcloses, hhandled⟩, ?_⟩
  obtain ⟨wire, henc⟩ := hello_encodes 1000
  have hwrite := writeClientHello_writeEnv henc
  refine ((hclient user commandTCP (hello 1000).address droppedEnv).2
    (.readServerHello (.io .eof)) ?_).1
  simp only [clientHandshake, droppedEnv, hwrite]

end Transparent

end SingEwp
