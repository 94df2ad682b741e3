import SingEwp.HandshakeCompletion
import SingEwp.PacketSessions
import SingEwp.Service
import SingEwp.TunnelDelivery

/-!
# Dialing a service

`DialConn` and `DialPacketConn` of `client.go` and `HandleConn` of `server.go`, over
connections that deliver the written bytes in any fragments.  Both sides frame the
handshake and what follows with the same `LengthFramer`, which never reads beyond
the message it returns.  Bytes that come in together with a handshake message are
therefore still there for the tunnel.

Put together, a client that dials with the ID of a user reaches the handler: the
metadata name the user and the destination, and each side reads what the other
writes.
-/

namespace SingEwp

variable {P : Primitives}

/-! ## The two ends over byte streams -/

/-- The messages that have arrived whole, and what the framer reports behind
them. -/
def framerMessages : ℕ → Conn → List Bytes × Option EwpError
  | 0, _ => ([], none)
  | fuel + 1, c =>
      match framerRead c with
      | none => ([], none)
      | some (.error e, _) => ([], some e)
      | some (.ok msg, c) =>
          (msg :: (framerMessages fuel c).1, (framerMessages fuel c).2)

/-- The environment of a client whose writes succeed. -/
def WriteHelloEnv.framed (env : WriteHelloEnv P) : WriteHelloEnv P :=
  { env with send := framerAccept }

/-- `handshake` over a framer: the bytes it writes and, when the answer has come,
what it returns and the rest of the connection. -/
def dialOver (P : Primitives) (uuid : Uuid) (cmd : Command) (dst : Address)
    (env : WriteHelloEnv P) (readNow : ℤ) (conn : Conn) :
    Bytes × Option (Outcome EwpError SecureStream × Conn) :=
  let write := writeClientHello P uuid cmd dst env.framed
  let wrote := match write.2 with
    | none => []
    | some sent => (framerSend none none sent.wire).2
  match write.1 with
  | .error e => (wrote, some (.error (.writeClientHello e), conn))
  | .ok _ =>
      (wrote, (framerRead conn).map (fun (reply, conn) =>
        ((clientHandshake P uuid cmd dst ⟨env.framed, reply, readNow⟩).result,
          conn)))

/-- What the dialling functions make of the stream. -/
def Dialed {α : Type} (make : SecureStream → Conn → α)
    (dialed : Bytes × Option (Outcome EwpError SecureStream × Conn)) :
    Bytes × Option (Outcome EwpError α) :=
  (dialed.1, dialed.2.map (fun (result, conn) =>
    match result with
    | .ok stream => .ok (make stream conn)
    | .error e => .error e
    | .panic => .panic))

def dialConn (P : Primitives) (uuid : Uuid) (dst : Address)
    (env : WriteHelloEnv P) (readNow : ℤ) (conn : Conn) :
    Bytes × Option (Outcome EwpError StreamConn) :=
  Dialed (fun stream conn => { stream := stream, conn := conn })
    (dialOver P uuid commandTCP dst env readNow conn)

/-- `HandleConn`, with the rest of the connection; `none` while it waits for the
ClientHello. -/
def handleConn (P : Primitives) (lookup : Option UUIDLookup)
    (replay : Option ReplayCache) (accept : AcceptEnv P) (conn : Conn) :
    Option (ServeRun × Conn) :=
  let serve hello conn :=
    let messages := framerMessages (conn.pending.length + 1) conn
    (handleTransport P lookup replay
      ⟨hello, accept, framerAccept, messages.1, messages.2⟩, conn)
  match lookup with
  | none => some (serve (.ok []) conn)
  | some _ => (framerRead conn).map (fun (hello, conn) => serve hello conn)

/-! ## Messages -/

/-- A ClientHello with the longest address and the longest pad is far shorter than
what the framer takes. -/
theorem encodeClientHello_length_le
    {ch : ClientHello} {draws : HelloPadDraws} {wire : Bytes}
    (henc : encodeClientHello P ch draws = .ok wire) :
    wire.length ≤ maxFrameSize := by
  unfold encodeClientHello at henc
  cases happ : ch.address.append [] with
  | error e => simp [happ] at henc
  | ok addrBuf =>
      simp only [happ] at henc
      split at henc
      · cases henc
      · rename_i pad _
        rw [if_neg (not_lt.mpr (helloInner_fits happ pad))] at henc
        have haddrMax :=
          Address.encodedLen_le (ch.address.append_ok_iff.mp ⟨_, happ⟩)
        rw [← Address.append_length happ] at haddrMax
        have hpadLen : (suggestPadLen minHandshakePad maxHandshakePad
            draws.size).toNat ≤ 1024 :=
          Int.toNat_le.mpr (suggestPadLen_le minHandshakePad maxHandshakePad
            draws.size (by simp) (by simp) (by simp))
        rw [← Except.ok.inj henc, List.length_append, List.length_append,
          P.aeadSeal_length, helloInner_length, FixedBytes.length_val, helloHeader]
        simp only [List.length_append, FixedBytes.length_val, putBE_length]
        generalize (suggestPadLen minHandshakePad maxHandshakePad
          draws.size).toNat = padLen at hpadLen ⊢
        simp at haddrMax ⊢
        omega

/-- Nothing stands in the way of a client with the ID `uuid`: keys can be
generated, the nonce is new to the cache, the clocks agree, and no user earlier in
the list has the same MAC by chance. -/
structure HonestDial (P : Primitives) (before : List Uuid) (uuid : Uuid)
    (cmd : Command) (dst : Address) (env : WriteHelloEnv P)
    (cache : Option ReplayCache) (accept : AcceptEnv P) (readNow : ℤ) : Prop where
  keys : P.HonestKeysWork
  address : dst.Encodable
  client : ∃ x25519Priv mlkemPriv nonce, env.x25519 = some x25519Priv ∧
    env.mlkem = some mlkemPriv ∧ env.nonce handshakeNonce = some nonce ∧
    ∀ c, cache = some c →
      c.entries.live accept.markNow (makeReplayKey uuid nonce) = false
  pad : ∀ n, env.pad.bytes n ≠ none
  server : ∃ serverPriv, accept.x25519 = some serverPriv
  first : ∀ sent, (writeClientHello P uuid cmd dst env.framed).2 = some sent →
    ∀ v ∈ before, ¬Verifies P v sent.wire
  clientClock : 0 ≤ env.now ∧ env.now < 2 ^ 32
  serverClock : 0 ≤ accept.helloNow ∧ accept.helloNow < 2 ^ 32
  request : |env.now - accept.checkNow| ≤ 120
  answer : |accept.helloNow - readNow| ≤ 120

/-- What the two sides have of a handshake that is complete. -/
structure Connected (P : Primitives) (users : List Uuid) (uuid : Uuid)
    (cmd : Command) (dst : Address) (env : WriteHelloEnv P)
    (cache : Option ReplayCache) (accept : AcceptEnv P) (readNow : ℤ)
    (keys : SessionKeys) (hello reply : Bytes) : Prop where
  hello_fits : hello.length ≤ maxFrameSize
  reply_fits : reply.length ≤ maxFrameSize
  /-- The client has sent the hello, and takes the reply. -/
  client : ∃ state ch, writeClientHello P uuid cmd dst env.framed =
      (.ok state, some ⟨ch, hello⟩) ∧
    clientHandshake P uuid cmd dst ⟨env.framed, .ok reply, readNow⟩ =
      { calls := [.sendMessage hello true, .readMessage]
        result := .ok (newClientSecureStream keys) }
  /-- The server takes the hello and dispatches what it asks for. -/
  server : ∀ (inbox : List Bytes) (lost : Option EwpError), ∃ ch replay,
    ch.uuid = uuid ∧ ch.command = cmd ∧ ch.address = dst.wireNorm ∧
    handleTransport P (some (makeUUIDLookup P users)) cache
        ⟨.ok hello, accept, framerAccept, inbox, lost⟩ =
      dispatch P keys ch inbox lost
        { calls := [.readMessage, .sendMessage reply true], replay := replay }

section Handshake

variable {before : List Uuid} {uuid : Uuid} {cmd : Command} {dst : Address}
variable {env : WriteHelloEnv P} {cache : Option ReplayCache}
variable {accept : AcceptEnv P} {readNow : ℤ}

theorem HonestDial.connects
    (hdial : HonestDial P before uuid cmd dst env cache accept readNow)
    (hcmd : cmd = commandTCP ∨ cmd = commandUDP) (after : List Uuid) :
    ∃ keys hello reply, Connected P (before ++ uuid :: after) uuid cmd dst env
      cache accept readNow keys hello reply := by
  obtain ⟨x25519Priv, mlkemPriv, nonce, hx25519, hmlkem, hnonce, hunseen⟩ :=
    hdial.client
  obtain ⟨serverPriv, hserver⟩ := hdial.server
  set ch := freshClientHello P uuid cmd dst x25519Priv mlkemPriv nonce env.now
    with hch
  obtain ⟨hello, henc⟩ := encodeClientHello_succeeds P
    (show ch.address.Encodable from hdial.address) hdial.pad
  have hfits := encodeClientHello_length_le henc
  -- the client
  have hknown : ¬(cmd ≠ commandTCP ∧ cmd ≠ commandUDP) := by tauto
  have hsize : ¬(P.mlkemPublicBytes mlkemPriv).length ≠ mlkem768PubLen :=
    not_not.mpr (hdial.keys.mlkem_length mlkemPriv)
  have hsent : framerAccept hello = none := (framerAccept_none_iff hello).mpr hfits
  set state : ClientHandshakeState P :=
    { uuid := uuid
      nonce := nonce
      x25519Priv := some x25519Priv
      mlkemPriv := some mlkemPriv
      hello := ch } with hstate
  have hwrite : writeClientHello P uuid cmd dst env.framed =
      (.ok state, some ⟨ch, hello⟩) := by
    simp only [writeClientHello, WriteHelloEnv.framed, if_neg hknown, hx25519,
      hmlkem, hnonce, if_neg hsize, ← hch, henc, hsent, hstate]
  -- the server
  have hbefore := hdial.first _ (congrArg Prod.snd hwrite)
  have hlong := encodeClientHello_length_gt henc
  have hlookup : makeUUIDLookup P (before ++ uuid :: after) _ _ = .ok uuid :=
    makeUUIDLookup_first
      (fun v hv hmac => hbefore v hv ⟨by simp at hlong ⊢; omega, hmac⟩)
      (encodeClientHello_mac henc)
  have htime : (ch.timestamp.toNat : ℤ) = env.now :=
    unixUint32_toNat hdial.clientClock.1 hdial.clientClock.2
  have hauth : authenticateClientHello P hello _ accept.checkNow = _ :=
    authenticateClientHello_of_lookup henc hlookup hcmd
      (by rw [absDiff_eq_abs, htime]; exact hdial.request)
  obtain ⟨reply, served, hanswer⟩ : ∃ reply served,
      answerClientHello P uuid ch.wireNorm accept = .ok (reply, served) :=
    answerClientHello_succeeds hdial.keys hserver rfl rfl uuid
  have haccept := acceptClientHelloWithReplay_succeeds hauth hanswer hunseen
  -- the answer
  have hfresh : absDiff (unixUint32 accept.helloNow).toNat readNow ≤
      handshakeTimestampWindow := by
    rw [absDiff_eq_abs, unixUint32_toNat hdial.serverClock.1 hdial.serverClock.2]
    exact hdial.answer
  obtain ⟨hrequest, result, hread, hsame⟩ := readServerHello_answer hdial.keys
    state hanswer rfl rfl rfl rfl rfl rfl rfl hfresh
  have hreplyFits : reply.length ≤ maxFrameSize := by
    obtain ⟨_, _, _, _, _, _, _, hreply, _⟩ := answerClientHello_ok hanswer
    rw [hreply, encodeServerHello_length]
    simp
  refine ⟨served.keys, hello, reply, hfits, hreplyFits, ⟨state, ch, hwrite, ?_⟩, ?_⟩
  · simp only [clientHandshake, hwrite, hread, hsame, helloCalls]
    simp [WriteHelloEnv.framed, hsent]
  · intro inbox lost
    refine ⟨ch.wireNorm, (acceptClientHelloWithReplay P hello
      (makeUUIDLookup P (before ++ uuid :: after)) cache accept).2, rfl, rfl, rfl, ?_⟩
    have hpair : acceptClientHelloWithReplay P hello
        (makeUUIDLookup P (before ++ uuid :: after)) cache accept =
          (.ok (reply, served), (acceptClientHelloWithReplay P hello
            (makeUUIDLookup P (before ++ uuid :: after)) cache accept).2) :=
      Prod.ext haccept rfl
    rw [handleTransport]
    simp only
    rw [hpair]
    simp only [(framerAccept_none_iff reply).mpr hreplyFits, hrequest]

end Handshake

/-! ## Connections -/

/-- Whatever the other side writes, the reader gets it: nothing but data in order,
and everything once it has all come in. -/
def Delivers (P : Primitives) (keys : SessionKeys) (writer : Side)
    (c : StreamConn) : Prop :=
  ∀ (ps : List Bytes) (covers : List CoverCall) (schedule : List (ℕ × StreamEnv)),
    (tunnelPool P keys writer ps covers).Admits TunnelGuard schedule →
    ∀ ops : List ReaderOp, (∀ n, ReaderOp.read n ∈ ops → 0 < n) →
    c.conn.pending ++ arrivals ops <+: wireBytes
      ((tunnelPool P keys writer ps covers).run schedule).shared.handed →
    (∀ result ∈ (readerRun P ops c).1, ReadFine result) ∧
    returned (readerRun P ops c).1 <+: ps.flatten ∧
    ((∃ result, ((tunnelPool P keys writer ps covers).run schedule).threads[0]? =
        some (.ret result)) →
      c.conn.pending ++ arrivals ops = wireBytes
        ((tunnelPool P keys writer ps covers).run schedule).shared.handed →
      ∀ n, 0 < n → (streamRead P n (readerRun P ops c).2).1 = none →
        returned (readerRun P ops c).1 = ps.flatten)

theorem delivers_of_fresh
    {keys : SessionKeys} {writer : Side} {c : StreamConn}
    (hstream : c.stream = newSecureStream keys writer.peer)
    (hbuf : c.readBuf = []) (hlive : c.conn.ended = none) :
    Delivers P keys writer c := by
  intro ps covers schedule hguard ops hsizes harrived
  obtain ⟨_, hopen, hwithin, hwriter⟩ := tunnelPool_run hguard rfl
  have hlog : TunnelLog P (newSecureStream keys writer).send
      ((tunnelPool P keys writer ps covers).run schedule).shared.handed :=
    ⟨hopen.ledger.frames, hopen.types, hopen.sizes⟩
  obtain ⟨tail, htail⟩ := harrived
  rw [List.append_assoc] at htail
  have hstart : Reading (newSecureStream keys writer).send
      ((tunnelPool P keys writer ps covers).run schedule).shared.handed 0
      (arrivals ops ++ tail) [] c := by
    refine ⟨Nat.zero_le _, ?_, ?_, hlive, htail, by simp [hbuf]⟩
    · rw [hstream]
      cases writer <;> rfl
    · rw [hstream]
      cases writer <;> rfl
  obtain ⟨hfine, k, hreading⟩ := readerRun_reading hlog hsizes hstart
  rw [List.nil_append] at hreading
  refine ⟨hfine, hreading.out_isPrefix.trans hwithin, ?_⟩
  rintro ⟨result, hdone⟩ hall n hn hwait
  rw [← List.append_assoc, hall] at htail
  obtain rfl : tail = [] := by simpa using htail
  rw [← (hwriter result hdone).1]
  exact hreading.out_eq_of_wait hlog hn hwait

/-- A TCP connection that has been dialled and is served: whatever else is under
way behind the handshake messages. -/
structure ServedConn (P : Primitives) (users : List Uuid) (uuid : Uuid)
    (dst : Address) (env : WriteHelloEnv P) (cache : Option ReplayCache)
    (accept : AcceptEnv P) (readNow : ℤ) (keys : SessionKeys) (reply : Bytes) :
    Prop where
  /-- Until the whole answer is there `DialConn` waits, having written its hello. -/
  waits : ∀ (conn : Conn) (later : Bytes), conn.ended = none → later ≠ [] →
    conn.pending ++ later = lengthFrame reply →
    (dialConn P uuid dst env readNow conn).2 = none
  server : ∀ (conn : Conn) (rest : Bytes), conn.ended = none →
    conn.pending = (dialConn P uuid dst env readNow conn).1 ++ rest →
    ∃ run conn',
      handleConn P (some (makeUUIDLookup P users)) cache accept conn =
        some (run, conn') ∧
      run.handled = some (.newConnection (newServerSecureStream keys)
        ⟨uuid, dst.wireNorm⟩) ∧
      TransportCall.sent run.calls = [reply] ∧ run.err = none ∧
      conn'.pending = rest ∧
      Delivers P keys .client { stream := newServerSecureStream keys, conn := conn' }
  client : ∀ (conn : Conn) (rest : Bytes), conn.ended = none →
    conn.pending = lengthFrame reply ++ rest →
    ∃ c, (dialConn P uuid dst env readNow conn).2 = some (.ok c) ∧
      c.stream = newClientSecureStream keys ∧ c.conn.pending = rest ∧
      Delivers P keys .server c

section Connections

variable {users : List Uuid} {uuid : Uuid} {cmd : Command} {dst : Address}
variable {env : WriteHelloEnv P} {cache : Option ReplayCache}
variable {accept : AcceptEnv P} {readNow : ℤ} {keys : SessionKeys}
variable {hello reply : Bytes}

theorem Connected.dialOver_eq
    (hconn : Connected P users uuid cmd dst env cache accept readNow keys hello
      reply) (conn : Conn) :
    dialOver P uuid cmd dst env readNow conn =
      (lengthFrame hello, (framerRead conn).map (fun r =>
        ((clientHandshake P uuid cmd dst ⟨env.framed, r.1, readNow⟩).result,
          r.2))) := by
  obtain ⟨state, ch, hwrite, _⟩ := hconn.client
  have hsend : (framerSend none none hello).2 = lengthFrame hello := by
    simp only [framerSend, if_neg (not_lt.mpr hconn.hello_fits)]
  simp only [dialOver, hwrite, hsend]

theorem Connected.dialOver_reply
    (hconn : Connected P users uuid cmd dst env cache accept readNow keys hello
      reply) {conn : Conn} {rest : Bytes}
    (hpending : conn.pending = lengthFrame reply ++ rest) :
    ∃ conn', (dialOver P uuid cmd dst env readNow conn).2 =
        some (.ok (newClientSecureStream keys), conn') ∧
      conn'.pending = rest ∧ conn'.ended = conn.ended := by
  obtain ⟨conn', hread, hrest, hended⟩ :=
    framerRead_lengthFrame hconn.reply_fits hpending
  obtain ⟨_, _, _, hhandshake⟩ := hconn.client
  refine ⟨conn', ?_, hrest, hended⟩
  rw [hconn.dialOver_eq, hread, Option.map_some, hhandshake]

theorem Connected.handleConn_eq
    (hconn : Connected P users uuid cmd dst env cache accept readNow keys hello
      reply) {conn : Conn} {rest : Bytes}
    (hpending : conn.pending = lengthFrame hello ++ rest) :
    ∃ conn' ch replay, conn'.pending = rest ∧ conn'.ended = conn.ended ∧
      ch.uuid = uuid ∧ ch.command = cmd ∧ ch.address = dst.wireNorm ∧
      handleConn P (some (makeUUIDLookup P users)) cache accept conn =
        some (dispatch P keys ch
          (framerMessages (conn'.pending.length + 1) conn').1
          (framerMessages (conn'.pending.length + 1) conn').2
          { calls := [.readMessage, .sendMessage reply true], replay := replay },
          conn') := by
  obtain ⟨conn', hread, hrest, hended⟩ :=
    framerRead_lengthFrame hconn.hello_fits hpending
  obtain ⟨ch, replay, huuid, hcommand, haddress, hserve⟩ := hconn.server
    (framerMessages (conn'.pending.length + 1) conn').1
    (framerMessages (conn'.pending.length + 1) conn').2
  refine ⟨conn', ch, replay, hrest, hended, huuid, hcommand, haddress, ?_⟩
  simp only [handleConn, hread, Option.map_some, hserve]

end Connections

/-- A client that dials with the ID of a user reaches the handler with its
destination, and each side reads what the other writes, also what came in
together with the handshake messages. -/
theorem dial_conn_served
    (P : Primitives) (before after : List Uuid) (uuid : Uuid) (dst : Address)
    (env : WriteHelloEnv P) (cache : Option ReplayCache) (accept : AcceptEnv P)
    (readNow : ℤ)
    (hdial : HonestDial P before uuid commandTCP dst env cache accept readNow) :
    ∃ keys reply, ServedConn P (before ++ uuid :: after) uuid dst env cache accept
      readNow keys reply := by
  obtain ⟨keys, hello, reply, hconn⟩ := hdial.connects (Or.inl rfl) after
  refine ⟨keys, reply, ?_, ?_, ?_⟩
  · intro conn later hlive hmore hpending
    have hshort : conn.pending.length < 4 + reply.length := by
      have hlen := congrArg List.length hpending
      rw [List.length_append, lengthFrame_length] at hlen
      have := List.length_pos_iff.mpr hmore
      omega
    have hwait := framerRead_waits hconn.reply_fits hlive
      (hpending.trans (List.append_nil _).symm) hshort
    rw [dialConn, Dialed, hconn.dialOver_eq, hwait]
    rfl
  · intro conn rest hlive hpending
    rw [dialConn, Dialed, hconn.dialOver_eq] at hpending
    obtain ⟨conn', ch, replay, hrest, hended, huuid, hcommand, haddress, hhandle⟩ :=
      hconn.handleConn_eq hpending
    refine ⟨_, conn', hhandle, ?_, ?_, ?_, hrest,
      delivers_of_fresh rfl rfl (hended.trans hlive)⟩
    · simp only [dispatch, hcommand, if_true, huuid, haddress]
    · simp only [dispatch, hcommand, if_true]
      rfl
    · simp only [dispatch, hcommand, if_true]
  · intro conn rest hlive hpending
    obtain ⟨conn', hdialed, hrest, hended⟩ := hconn.dialOver_reply hpending
    refine ⟨{ stream := newClientSecureStream keys, conn := conn' }, ?_, rfl, hrest,
      delivers_of_fresh rfl rfl (hended.trans hlive)⟩
    rw [dialConn, Dialed, hdialed]
    rfl

namespace Transparent

/-- A user list of one, an empty cache and clocks two minutes apart. -/
theorem honestDial (cmd : Command) :
    HonestDial suite [] user cmd (hello 1000).address writeEnv
      (some (newReplayCache replayWindow)) (acceptEnv 1120) 1000 where
  keys := honestKeysWork
  address := by simp [hello, Address.Encodable]
  client := ⟨_, _, _, rfl, rfl, rfl, fun c hc => by cases hc; rfl⟩
  pad := writeEnv_serves.pad
  server := ⟨_, rfl⟩
  first := by simp
  clientClock := ⟨by decide, by decide⟩
  serverClock := ⟨by decide, by decide⟩
  request := by decide
  answer := by decide

end Transparent

theorem dial_conn_served_hello :
    ∃ keys reply, ServedConn Transparent.suite [Transparent.user] Transparent.user
      (Transparent.hello 1000).address Transparent.writeEnv
      (some (newReplayCache replayWindow)) (Transparent.acceptEnv 1120) 1000 keys
      reply :=
  dial_conn_served Transparent.suite [] [] Transparent.user _ _ _ _ _
    (Transparent.honestDial commandTCP)

/-! ## Packet connections -/

section PacketConnections

variable {globalID : GlobalID} {dst : Address} {keys : SessionKeys}

end PacketConnections

end SingEwp
