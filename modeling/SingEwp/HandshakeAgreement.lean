import SingEwp.Handshake

/-!
# Agreement between client and server sessions

Any number of client and server sessions share a network that may drop, delay,
duplicate, reorder, reflect, cross-deliver and invent messages: every step names
the message that is delivered, whatever its origin.  The invariant `Honest` says
of each session what its own steps guarantee.  Agreement follows from it once
client nonces are distinct and a delivered message verifies under a user's outer
MAC only if an honest encoder emitted it under that user.
-/

namespace SingEwp

variable {P : Primitives}

structure ClientSession (P : Primitives) where
  wire : Bytes
  state : ClientHandshakeState P
  result : Option HandshakeResult

structure ServerSession where
  msg : Bytes
  reply : Bytes
  result : HandshakeResult

/-- All sessions, with the hellos that clients have encoded and the messages
that the network has delivered. -/
structure Network (P : Primitives) where
  hellos : List SentHello := []
  clients : List (ClientSession P) := []
  servers : List ServerSession := []
  delivered : List Bytes := []

inductive NetworkStep (P : Primitives) where
  | start (uuid : Uuid) (cmd : Command) (addr : Address) (env : WriteHelloEnv P)
  | accept (msg : Bytes) (users : List Uuid) (cache : Option ReplayCache)
      (env : AcceptEnv P)
  | read (session : ℕ) (msg : Bytes) (now : ℤ)

namespace Network

def deliver (net : Network P) (msg : Bytes) : Network P :=
  { net with delivered := net.delivered ++ [msg] }

def step (net : Network P) : NetworkStep P → Network P
  | .start uuid cmd addr env =>
      match writeClientHello P uuid cmd addr env with
      | (_, none) => net
      | (.error _, some sent) => { net with hellos := net.hellos ++ [sent] }
      | (.ok state, some sent) =>
          { net with
            hellos := net.hellos ++ [sent]
            clients := net.clients ++ [⟨sent.wire, state, none⟩] }
  | .accept msg users cache env =>
      let net := net.deliver msg
      match (acceptClientHelloWithReplay P msg (makeUUIDLookup P users) cache
          env).1 with
      | .error _ => net
      | .ok (reply, result) =>
          { net with servers := net.servers ++ [⟨msg, reply, result⟩] }
  | .read session msg now =>
      let net := net.deliver msg
      match net.clients[session]? with
      | none => net
      | some client =>
          let (outcome, state) := readServerHello P client.state msg now
          let result :=
            match outcome with
            | .ok result => some result
            | _ => client.result
          { net with
            clients := net.clients.set session
              { client with state := state, result := result } }

def run (steps : List (NetworkStep P)) : Network P :=
  steps.foldl step {}

/-- An honest `EncodeClientHello` or `EncodeServerHello` made `msg` under
`uuid`. -/
def Emitted (net : Network P) (uuid : Uuid) (msg : Bytes) : Prop :=
  (∃ sent ∈ net.hellos, sent.hello.uuid = uuid ∧ sent.wire = msg) ∨
    ∃ server ∈ net.servers,
      (∃ ch, server.result.clientHello = some ch ∧ ch.uuid = uuid) ∧
        server.reply = msg

end Network

/-- The last bytes of `msg` are the outer MAC of the rest under `uuid`. -/
def Verifies (P : Primitives) (uuid : Uuid) (msg : Bytes) : Prop :=
  outerMACLen ≤ msg.length ∧
    verifyOuterMAC P uuid (msg.take (msg.length - outerMACLen))
      (FixedBytes.copyFrom outerMACLen
        (msg.drop (msg.length - outerMACLen))) = true

/-- The server session accepted the client's very bytes, recorded the client's
request as the wire carries it, and holds the same keys. -/
def Agree (client : ClientSession P) (result : HandshakeResult)
    (server : ServerSession) : Prop :=
  server.msg = client.wire ∧
    (∃ ch, server.result.clientHello = some ch ∧
      ch.uuid = client.state.uuid ∧
      ch.nonce = client.state.nonce ∧
      ch.command = client.state.hello.command ∧
      ch.address = client.state.hello.address.wireNorm) ∧
    server.result.keys = result.keys

/-! ## What each session guarantees on its own -/

/-- The keys come from a delivered ServerHello, combined with the private keys
behind the public keys of the session's own hello. -/
def Derived (P : Primitives) (delivered : List Bytes) (hello : ClientHello)
    (result : HandshakeResult) : Prop :=
  ∃ msg ∈ delivered, ∃ sh serverPub x25519Priv classical mlkemPriv pq,
    decodeServerHello P msg hello.uuid = .ok sh ∧
    sh.nonceEcho = hello.nonce ∧
    P.x25519NewPublicKey sh.classicalPub = some serverPub ∧
    hello.classicalPub = P.x25519PublicBytes x25519Priv ∧
    P.x25519ECDH x25519Priv serverPub = some classical ∧
    hello.pqPub = FixedBytes.copyFrom mlkem768PubLen
      (P.mlkemPublicBytes mlkemPriv) ∧
    P.mlkemDecapsulate mlkemPriv sh.pqCipher = some pq ∧
    result.keys = deriveSessionKeys P
      (FixedBytes.copyFrom x25519PubLen classical) pq hello.nonce hello.nonce

structure ClientSession.Honest (client : ClientSession P)
    (hellos : List SentHello) (delivered : List Bytes) : Prop where
  sent : ⟨client.state.hello, client.wire⟩ ∈ hellos
  uuid : client.state.uuid = client.state.hello.uuid
  nonce : client.state.nonce = client.state.hello.nonce
  x25519 : ∀ priv, client.state.x25519Priv = some priv →
    client.state.hello.classicalPub = P.x25519PublicBytes priv
  mlkem : ∀ priv, client.state.mlkemPriv = some priv →
    client.state.hello.pqPub =
      FixedBytes.copyFrom mlkem768PubLen (P.mlkemPublicBytes priv)
  result : ∀ result, client.result = some result →
    Derived P delivered client.state.hello result

structure ServerSession.Honest (P : Primitives) (server : ServerSession)
    (ch : ClientHello) (delivered : List Bytes) : Prop where
  delivered : server.msg ∈ delivered
  verified : Verifies P ch.uuid server.msg
  decoded : decodeClientHello P server.msg ch.uuid = .ok ch
  answered : ∃ env, answerClientHello P ch.uuid ch env =
    .ok (server.reply, server.result)

structure Network.Honest (net : Network P) : Prop where
  hellos : ∀ sent ∈ net.hellos, ∃ draws,
    encodeClientHello P sent.hello draws = .ok sent.wire
  clients : ∀ client ∈ net.clients, client.Honest net.hellos net.delivered
  servers : ∀ server ∈ net.servers, ∃ ch, server.Honest P ch net.delivered

theorem ClientSession.Honest.mono
    {client : ClientSession P} {hellos hellos' : List SentHello}
    {delivered delivered' : List Bytes}
    (hclient : client.Honest hellos delivered) (hhellos : hellos ⊆ hellos')
    (hdelivered : delivered ⊆ delivered') :
    client.Honest hellos' delivered' where
  sent := hhellos hclient.sent
  uuid := hclient.uuid
  nonce := hclient.nonce
  x25519 := hclient.x25519
  mlkem := hclient.mlkem
  result := by
    intro result hresult
    obtain ⟨msg, hmsg, hderived⟩ := hclient.result result hresult
    exact ⟨msg, hdelivered hmsg, hderived⟩

theorem Network.Honest.deliver
    {net : Network P} (hnet : net.Honest) (msg : Bytes) :
    (net.deliver msg).Honest where
  hellos := hnet.hellos
  clients := fun client hclient =>
    (hnet.clients client hclient).mono (List.Subset.refl _)
      (List.subset_append_left _ _)
  servers := by
    intro server hserver
    obtain ⟨ch, hch⟩ := hnet.servers server hserver
    exact ⟨ch,
      { hch with delivered := List.mem_append_left _ hch.delivered }⟩

theorem Network.Honest.addHello
    {net : Network P} (hnet : net.Honest) {sent : SentHello}
    {draws : HelloPadDraws}
    (henc : encodeClientHello P sent.hello draws = .ok sent.wire) :
    { net with hellos := net.hellos ++ [sent] }.Honest where
  hellos := by
    intro other hother
    rcases List.mem_append.mp hother with hold | hnew
    · exact hnet.hellos other hold
    · rw [List.mem_singleton.mp hnew]
      exact ⟨draws, henc⟩
  clients := fun client hclient =>
    (hnet.clients client hclient).mono (List.subset_append_left _ _)
      (List.Subset.refl _)
  servers := hnet.servers

/-! ## Every step keeps the guarantees -/

theorem Network.Honest.start
    {net : Network P} (hnet : net.Honest) (uuid : Uuid) (cmd : Command)
    (addr : Address) (env : WriteHelloEnv P) :
    (net.step (.start uuid cmd addr env)).Honest := by
  unfold Network.step
  dsimp only
  split
  · exact hnet
  · rename_i e sent hwrite
    obtain ⟨henc, _⟩ := writeClientHello_sent (by rw [hwrite])
    exact hnet.addHello henc
  · rename_i state sent hwrite
    obtain ⟨henc, x25519Priv, mlkemPriv, nonce, hhello, hstate⟩ :=
      writeClientHello_sent (by rw [hwrite])
    have hsent := hnet.addHello henc
    refine { hsent with clients := ?_ }
    intro client hclient
    rcases List.mem_append.mp hclient with hold | hnew
    · exact hsent.clients client hold
    · rw [List.mem_singleton.mp hnew, hstate state (by rw [hwrite])]
      refine
        { sent := by simp
          uuid := by simp [hhello, freshClientHello]
          nonce := by simp [hhello, freshClientHello]
          x25519 := ?_
          mlkem := ?_
          result := by simp }
      · intro priv hpriv
        rw [← Option.some.inj hpriv]
        simp [hhello, freshClientHello]
      · intro priv hpriv
        rw [← Option.some.inj hpriv]
        simp [hhello, freshClientHello]

theorem Network.Honest.accept
    {net : Network P} (hnet : net.Honest) (msg : Bytes) (users : List Uuid)
    (cache : Option ReplayCache) (env : AcceptEnv P) :
    (net.step (.accept msg users cache env)).Honest := by
  have hdelivered := hnet.deliver msg
  unfold Network.step
  dsimp only
  split
  · exact hdelivered
  · rename_i reply result haccept
    obtain ⟨uuid, ch, hauth, hanswer, _⟩ :=
      acceptClientHelloWithReplay_ok haccept
    obtain ⟨hlen, hlookup, hdec, huuid, _⟩ := authenticateClientHello_ok hauth
    subst huuid
    refine { hdelivered with servers := ?_ }
    intro server hserver
    rcases List.mem_append.mp hserver with hold | hnew
    · exact hdelivered.servers server hold
    · rw [List.mem_singleton.mp hnew]
      exact ⟨ch,
        { delivered := by simp [Network.deliver]
          verified := ⟨hlen, (makeUUIDLookup_ok hlookup).2⟩
          decoded := hdec
          answered := ⟨env, hanswer⟩ }⟩

theorem ClientSession.Honest.derived
    {client : ClientSession P} {hellos : List SentHello}
    {delivered : List Bytes} {msg : Bytes} {now : ℤ} {result : HandshakeResult}
    (hclient : client.Honest hellos delivered) (hmsg : msg ∈ delivered)
    (hread : (readServerHello P client.state msg now).1 = .ok result) :
    Derived P delivered client.state.hello result := by
  obtain ⟨sh, serverPub, x25519Priv, classical, mlkemPriv, pq, hdec, hecho, hpub,
    hx, hdh, hm, hpq, hkeys⟩ := readServerHello_ok hread
  rw [hclient.uuid] at hdec
  rw [hclient.nonce] at hecho
  rw [hecho] at hkeys
  exact ⟨msg, hmsg, sh, serverPub, x25519Priv, classical, mlkemPriv, pq, hdec,
    hecho, hpub, hclient.x25519 _ hx, hdh, hclient.mlkem _ hm, hpq, hkeys⟩

theorem ClientSession.Honest.read
    {client : ClientSession P} {hellos : List SentHello}
    {delivered : List Bytes} {msg : Bytes}
    (hclient : client.Honest hellos delivered) (hmsg : msg ∈ delivered)
    (now : ℤ) :
    ClientSession.Honest
      { client with
        state := (readServerHello P client.state msg now).2
        result :=
          match (readServerHello P client.state msg now).1 with
          | .ok result => some result
          | _ => client.result } hellos delivered := by
  have hresult : ∀ result,
      (match (readServerHello P client.state msg now).1 with
        | .ok result => some result
        | _ => client.result) = some result →
        Derived P delivered client.state.hello result := by
    intro result hmatch
    split at hmatch
    · rename_i fresh hread
      rw [← Option.some.inj hmatch]
      exact hclient.derived hmsg hread
    · exact hclient.result result hmatch
  rcases readServerHello_state P client.state msg now with hsame | hdropped
  · rw [hsame]
    exact { hclient with result := hresult }
  · rw [hdropped]
    exact
      { sent := hclient.sent
        uuid := hclient.uuid
        nonce := hclient.nonce
        x25519 := by simp
        mlkem := by simp
        result := hresult }

theorem Network.Honest.read
    {net : Network P} (hnet : net.Honest) (session : ℕ) (msg : Bytes)
    (now : ℤ) :
    (net.step (.read session msg now)).Honest := by
  have hdelivered := hnet.deliver msg
  unfold Network.step
  dsimp only
  split
  · exact hdelivered
  · rename_i client hclient
    refine { hdelivered with clients := ?_ }
    intro other hother
    rcases List.mem_or_eq_of_mem_set hother with hold | hnew
    · exact hdelivered.clients other hold
    · rw [hnew]
      exact (hdelivered.clients client (List.mem_of_getElem? hclient)).read
        (by simp [Network.deliver]) now

theorem Network.Honest.step
    {net : Network P} (hnet : net.Honest) (s : NetworkStep P) :
    (net.step s).Honest := by
  cases s with
  | start uuid cmd addr env => exact hnet.start uuid cmd addr env
  | accept msg users cache env => exact hnet.accept msg users cache env
  | read session msg now => exact hnet.read session msg now

theorem Network.run_honest (steps : List (NetworkStep P)) :
    (Network.run steps).Honest := by
  have hfold : ∀ net : Network P, net.Honest →
      (steps.foldl Network.step net).Honest := by
    induction steps with
    | nil => exact fun _ hnet => hnet
    | cons s rest ih => exact fun net hnet => ih (net.step s) (hnet.step s)
  exact hfold {} ⟨by simp, by simp, by simp⟩

/-! ## Agreement -/

theorem sharedSecrets_agree
    {hello : ClientHello} {env : AcceptEnv P}
    {x25519Priv serverPriv : P.X25519Priv} {mlkemPriv : P.MlkemPriv}
    {serverPub clientPub : P.X25519Pub} {clientMLKEMPub : P.MlkemPub}
    {classical classical' pq : Bytes}
    (hclassicalPub : hello.classicalPub = P.x25519PublicBytes x25519Priv)
    (hpqPub : hello.pqPub = FixedBytes.copyFrom mlkem768PubLen
      (P.mlkemPublicBytes mlkemPriv))
    (hclientPub : P.x25519NewPublicKey hello.classicalPub = some clientPub)
    (hserverPub : P.x25519NewPublicKey (P.x25519PublicBytes serverPriv) =
      some serverPub)
    (hserverDH : P.x25519ECDH serverPriv clientPub = some classical)
    (hclientDH : P.x25519ECDH x25519Priv serverPub = some classical')
    (hkem : P.mlkemNewEncapsulationKey hello.pqPub = some clientMLKEMPub)
    (hdecaps : P.mlkemDecapsulate mlkemPriv
      (FixedBytes.copyFrom mlkem768CipherL
        (P.mlkemEncapsulate clientMLKEMPub env.mlkemSeed).2) = some pq) :
    classical = classical' ∧
      (P.mlkemEncapsulate clientMLKEMPub env.mlkemSeed).1 = pq := by
  rw [hclassicalPub] at hclientPub
  have hcomm := P.x25519ECDH_comm x25519Priv serverPriv clientPub serverPub
    hclientPub hserverPub
  rw [hclientDH, hserverDH] at hcomm
  rw [hpqPub] at hkem
  have hinverse := P.mlkemDecapsulate_encapsulate mlkemPriv clientMLKEMPub
    env.mlkemSeed hkem
  rw [hdecaps] at hinverse
  exact ⟨(Option.some.inj hcomm).symm, (Option.some.inj hinverse).symm⟩

theorem encodeServerHello_verifies
    (P : Primitives) (sh : ServerHello) (uuid : Uuid) :
    Verifies P uuid (encodeServerHello P sh uuid) := by
  have hlen := encodeServerHello_length P sh uuid
  have hbody := serverHelloBody_length sh
  refine ⟨by rw [hlen]; simp, ?_⟩
  rw [hlen, encodeServerHello, List.take_left' hbody, List.drop_left' hbody,
    FixedBytes.copyFrom_val]
  simp [verifyOuterMAC]

section Origins

variable {net : Network P} (hnet : net.Honest)
variable (hideal : ∀ msg ∈ net.delivered, ∀ uuid, Verifies P uuid msg →
  net.Emitted uuid msg)

include hnet hideal

theorem Network.Honest.reply_origin
    {msg : Bytes} {uuid : Uuid} {sh : ServerHello}
    (hmsg : msg ∈ net.delivered)
    (hdec : decodeServerHello P msg uuid = .ok sh) :
    ∃ server ∈ net.servers, server.reply = msg ∧
      ∃ ch, server.Honest P ch net.delivered ∧ ch.uuid = uuid := by
  have hverifies : Verifies P uuid msg := by
    rw [decodeServerHello_ok hdec]
    exact encodeServerHello_verifies P sh uuid
  rcases hideal msg hmsg uuid hverifies with
    ⟨sent, hsent, _, hwire⟩ | ⟨server, hserver, ⟨ch, hch, huuid⟩, hreply⟩
  · obtain ⟨draws, henc⟩ := hnet.hellos sent hsent
    have hlong := encodeClientHello_length_gt henc
    have hlen := decodeServerHello_length hdec
    rw [hwire] at hlong
    omega
  · obtain ⟨ch', hhonest⟩ := hnet.servers server hserver
    obtain ⟨env, hanswer⟩ := hhonest.answered
    obtain ⟨_, _, _, _, _, _, _, _, hresult⟩ := answerClientHello_ok hanswer
    have hsame : ch' = ch := by
      rw [hresult] at hch
      exact Option.some.inj hch
    subst hsame
    exact ⟨server, hserver, hreply, ch', hhonest, huuid⟩

theorem Network.Honest.hello_origin
    {server : ServerSession} {ch : ClientHello}
    (hserver : server.Honest P ch net.delivered) :
    ∃ sent ∈ net.hellos, sent.wire = server.msg ∧ ch = sent.hello.wireNorm := by
  rcases hideal server.msg hserver.delivered ch.uuid hserver.verified with
    ⟨sent, hsent, huuid, hwire⟩ | ⟨other, hother, _, hreply⟩
  · obtain ⟨draws, henc⟩ := hnet.hellos sent hsent
    have hdec := decodeClientHello_encode henc
    rw [huuid, hwire, hserver.decoded] at hdec
    exact ⟨sent, hsent, hwire, Except.ok.inj hdec⟩
  · obtain ⟨ch', hhonest⟩ := hnet.servers other hother
    obtain ⟨env, hanswer⟩ := hhonest.answered
    obtain ⟨_, _, _, _, _, _, _, hout, _⟩ := answerClientHello_ok hanswer
    have hlong := decodeClientHello_length hserver.decoded
    rw [← hreply, hout, encodeServerHello_length] at hlong
    omega

end Origins

/-- Whenever a client session has read a ServerHello successfully, some server
session agrees with it. -/
theorem handshake_agreement
    (steps : List (NetworkStep P))
    (hnonces :
      ((Network.run steps).hellos.map (fun sent => sent.hello.nonce)).Nodup)
    (hideal : ∀ msg ∈ (Network.run steps).delivered, ∀ uuid,
      Verifies P uuid msg → (Network.run steps).Emitted uuid msg)
    (client : ClientSession P) (hclient : client ∈ (Network.run steps).clients)
    (result : HandshakeResult) (hresult : client.result = some result) :
    ∃ server ∈ (Network.run steps).servers, Agree client result server := by
  have hnet := Network.run_honest steps
  have hhonest := hnet.clients client hclient
  obtain ⟨msg, hmsg, sh, serverPub, x25519Priv, classical, mlkemPriv, pq, hdec,
    hecho, hpub, hclassicalPub, hdh, hpqPub, hpq, hkeys⟩ :=
    hhonest.result result hresult
  obtain ⟨server, hserver, hreply, ch, hch, huuid⟩ :=
    hnet.reply_origin hideal hmsg hdec
  obtain ⟨env, hanswer⟩ := hch.answered
  obtain ⟨serverPriv, clientPub, classical', clientMLKEMPub, hclientPub,
    hserverDH, hkem, hout, hserverResult⟩ := answerClientHello_ok hanswer
  rw [← hreply, hout, ← huuid, decodeServerHello_encode] at hdec
  obtain rfl := Except.ok.inj hdec
  -- the echoed nonce ties the server's hello to this client's, since no two
  -- encoded hellos share one
  have hnonce : ch.nonce = client.state.hello.nonce := hecho
  obtain ⟨sent, hsent, hwire, hnorm⟩ := hnet.hello_origin hideal hch
  have hsame : sent = ⟨client.state.hello, client.wire⟩ := by
    refine List.inj_on_of_nodup_map hnonces hsent hhonest.sent ?_
    rw [← hnonce, hnorm]
    rfl
  subst hsame
  rw [hnorm] at hclientPub hkem
  obtain ⟨hclassical, hshared⟩ := sharedSecrets_agree hclassicalPub hpqPub
    hclientPub hpub hserverDH hdh hkem hpq
  refine ⟨server, hserver, hwire.symm, ⟨ch, ?_, ?_, ?_, ?_, ?_⟩, ?_⟩
  · rw [hserverResult]
  · rw [huuid, hhonest.uuid]
  · rw [hnonce, hhonest.nonce]
  · rw [hnorm]
    rfl
  · rw [hnorm]
    rfl
  · rw [hserverResult, hkeys, hclassical, hshared, hnonce]

/-! ## A transparent run -/

namespace Transparent

def writeEnv : WriteHelloEnv suite where
  x25519 := some (FixedBytes.copyFrom x25519PubLen [])
  mlkem := some (FixedBytes.copyFrom mlkem768PubLen [])
  now := 1000
  nonce := fun n => some (FixedBytes.copyFrom n [])
  pad := zeroDraws
  send := fun _ => none

def clientState : ClientHandshakeState suite where
  uuid := user
  nonce := FixedBytes.copyFrom handshakeNonce []
  x25519Priv := some (FixedBytes.copyFrom x25519PubLen [])
  mlkemPriv := some (FixedBytes.copyFrom mlkem768PubLen [])
  hello := hello 1000

def doneState : ClientHandshakeState suite :=
  { clientState with x25519Priv := none, mlkemPriv := none }

def handshakeSteps (wire reply : Bytes) : List (NetworkStep suite) :=
  [.start user commandTCP (hello 1000).address writeEnv,
    .accept wire [user] none (acceptEnv 1000),
    .read 0 reply 1000]

theorem freshClientHello_eq :
    freshClientHello suite user commandTCP (hello 1000).address
        (FixedBytes.copyFrom x25519PubLen [])
        (FixedBytes.copyFrom mlkem768PubLen [])
        (FixedBytes.copyFrom handshakeNonce []) 1000 = hello 1000 := by
  have hpq : FixedBytes.copyFrom mlkem768PubLen
      (suite.mlkemPublicBytes (FixedBytes.copyFrom mlkem768PubLen [])) =
      FixedBytes.copyFrom mlkem768PubLen [] :=
    FixedBytes.copyFrom_val _
  unfold freshClientHello
  rw [hpq]
  rfl

theorem writeClientHello_writeEnv
    {wire : Bytes}
    (henc : encodeClientHello suite (hello 1000) zeroDraws = .ok wire) :
    writeClientHello suite user commandTCP (hello 1000).address writeEnv =
      (.ok clientState, some ⟨hello 1000, wire⟩) := by
  have hsize : (suite.mlkemPublicBytes
      (FixedBytes.copyFrom mlkem768PubLen [])).length = mlkem768PubLen :=
    FixedBytes.length_val _
  simp only [writeClientHello, writeEnv, freshClientHello_eq, henc, hsize]
  rfl

theorem outerMAC_eq (u : Uuid) (m : Bytes) : outerMAC suite u m = u := by
  have hkey : (suite.hmacSHA256 (uuidPSK suite u).val m).val =
      (FixedBytes.copyFrom 32 u.val).val := by
    change (FixedBytes.copyFrom 32 (FixedBytes.copyFrom 32 u.val).val).val = _
    rw [FixedBytes.copyFrom_val]
  have hslice : slice (FixedBytes.copyFrom 32 u.val).val 0 outerMACLen =
      u.val := by
    have hlen : u.val.length = 16 := u.property
    have hmin : min outerMACLen 32 = 16 := rfl
    simp only [slice, FixedBytes.copyFrom, List.drop_zero, List.take_take, hmin]
    rw [List.take_append_of_le_length hlen.ge, List.take_of_length_le hlen.le]
  rw [outerMAC, hkey, hslice]
  exact FixedBytes.copyFrom_val u

theorem verifies_unique
    {u u' : Uuid} {msg : Bytes} (hu : Verifies suite u msg)
    (hu' : Verifies suite u' msg) : u = u' := by
  have h := hu.2
  have h' := hu'.2
  simp only [verifyOuterMAC, outerMAC_eq, decide_eq_true_eq] at h h'
  exact h.trans h'.symm

theorem readServerHello_clientState
    (sh : ServerHello) (hecho : sh.nonceEcho = clientState.nonce)
    (hstatus : sh.status = 0)
    (hfresh : absDiff sh.serverTime.toNat 1000 ≤ handshakeTimestampWindow) :
    ∃ result, readServerHello suite clientState
        (encodeServerHello suite sh user) 1000 = (.ok result, doneState) := by
  have huuid : clientState.uuid = user := rfl
  have hx : clientState.x25519Priv =
    some (FixedBytes.copyFrom x25519PubLen []) := rfl
  have hm : clientState.mlkemPriv =
    some (FixedBytes.copyFrom mlkem768PubLen []) := rfl
  have hpub : ∀ b, suite.x25519NewPublicKey b = some b := fun _ => rfl
  simp only [readServerHello, huuid, decodeServerHello_encode, hecho, hstatus,
    not_lt.mpr hfresh, hpub, hx, hm, ne_eq, not_true_eq_false, if_false]
  exact ⟨_, rfl⟩

theorem run_handshakeSteps :
    ∃ (wire reply : Bytes) (sh : ServerHello) (result result' : HandshakeResult),
      encodeClientHello suite (hello 1000) zeroDraws = .ok wire ∧
      reply = encodeServerHello suite sh user ∧
      result'.clientHello = some (hello 1000).wireNorm ∧
      Network.run (handshakeSteps wire reply) =
        { hellos := [⟨hello 1000, wire⟩]
          clients := [⟨wire, doneState, some result⟩]
          servers := [⟨wire, reply, result'⟩]
          delivered := [wire, reply] } := by
  obtain ⟨wire, henc⟩ := hello_encodes 1000
  have hauth := authenticateClientHello_hello henc
    (show absDiff (1000 : UInt32).toNat 1000 ≤ 120 by decide)
  obtain ⟨⟨reply, result'⟩, hanswer⟩ :=
    answerClientHello_acceptEnv user (hello 1000).wireNorm 1000
  obtain ⟨serverPriv, _, _, kemPub, _, _, _, hreply, hresult'⟩ :=
    answerClientHello_ok hanswer
  have haccept : (acceptClientHelloWithReplay suite wire
      (makeUUIDLookup suite [user]) none (acceptEnv 1000)).1 =
      .ok (reply, result') := by
    have hcheck : (acceptEnv 1000).checkNow = 1000 := rfl
    simp only [acceptClientHelloWithReplay, hcheck, hauth, hanswer]
  have hfresh : absDiff (unixUint32 (acceptEnv 1000).helloNow).toNat 1000 ≤
      handshakeTimestampWindow := by
    change absDiff (unixUint32 1000).toNat 1000 ≤ 120
    decide
  obtain ⟨result, hread⟩ := readServerHello_clientState
    { nonceEcho := (hello 1000).wireNorm.nonce
      classicalPub := suite.x25519PublicBytes serverPriv
      pqCipher := FixedBytes.copyFrom mlkem768CipherL
        (suite.mlkemEncapsulate kemPub (acceptEnv 1000).mlkemSeed).2
      serverTime := unixUint32 (acceptEnv 1000).helloNow
      status := 0 } rfl rfl hfresh
  rw [← hreply] at hread
  refine ⟨wire, reply, _, result, result', henc, hreply, by rw [hresult'], ?_⟩
  simp [handshakeSteps, Network.run, Network.step, Network.deliver,
    writeClientHello_writeEnv henc, haccept, hread]

end Transparent

/-- A run with one client and one server, both honest: the client obtains a
result and the server session agrees with it. -/
theorem handshake_agreement_transparent :
    ∃ (wire reply : Bytes) (result : HandshakeResult),
      ⟨wire, Transparent.doneState, some result⟩ ∈
          (Network.run (Transparent.handshakeSteps wire reply)).clients ∧
        ∃ server ∈
          (Network.run (Transparent.handshakeSteps wire reply)).servers,
          Agree ⟨wire, Transparent.doneState, some result⟩ result server := by
  obtain ⟨wire, reply, sh, result, result', henc, hreply, hch, hrun⟩ :=
    Transparent.run_handshakeSteps
  have hwireMac : Verifies Transparent.suite Transparent.user wire := by
    have hlong := encodeClientHello_length_gt henc
    exact ⟨by simp at hlong ⊢; omega, encodeClientHello_mac henc⟩
  have hreplyMac : Verifies Transparent.suite Transparent.user reply := by
    rw [hreply]
    exact encodeServerHello_verifies _ _ _
  have hideal : ∀ msg ∈
      (Network.run (Transparent.handshakeSteps wire reply)).delivered,
      ∀ uuid, Verifies Transparent.suite uuid msg →
        (Network.run (Transparent.handshakeSteps wire reply)).Emitted uuid
          msg := by
    rw [hrun]
    intro msg hmsg uuid hverifies
    have hcases : msg = wire ∨ msg = reply := by simpa using hmsg
    rcases hcases with rfl | rfl
    · rw [Transparent.verifies_unique hverifies hwireMac]
      exact Or.inl ⟨_, List.mem_singleton_self _, rfl, rfl⟩
    · rw [Transparent.verifies_unique hverifies hreplyMac]
      exact Or.inr ⟨_, List.mem_singleton_self _, ⟨_, hch, rfl⟩, rfl⟩
  have hclient : ⟨wire, Transparent.doneState, some result⟩ ∈
      (Network.run (Transparent.handshakeSteps wire reply)).clients := by
    rw [hrun]
    exact List.mem_singleton_self _
  exact ⟨wire, reply, result, hclient,
    handshake_agreement _ (by rw [hrun]; simp) hideal _ hclient result rfl⟩

end SingEwp
