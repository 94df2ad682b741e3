import SingEwp.HandshakeAgreement
import SingEwp.StreamRuns

/-!
# Honest handshakes complete

When nothing interferes, the three calls of a handshake succeed one after the
other: the server finds the user behind the outer MAC, recovers the request as
the wire carries it, and answers; the client accepts the answer; and the two
streams built from the results face each other.
-/

namespace SingEwp

variable {P : Primitives}

/-- What the key agreements do for keys that were generated properly. -/
structure Primitives.HonestKeysWork (P : Primitives) : Prop where
  x25519_parses : ∀ priv,
    ∃ pub, P.x25519NewPublicKey (P.x25519PublicBytes priv) = some pub
  x25519_agrees : ∀ priv priv' pub,
    P.x25519NewPublicKey (P.x25519PublicBytes priv') = some pub →
      ∃ secret, P.x25519ECDH priv pub = some secret
  mlkem_length : ∀ priv, (P.mlkemPublicBytes priv).length = mlkem768PubLen
  mlkem_parses : ∀ priv, ∃ pub,
    P.mlkemNewEncapsulationKey
      (FixedBytes.copyFrom mlkem768PubLen (P.mlkemPublicBytes priv)) = some pub
  mlkem_cipher_length : ∀ pub seed,
    (P.mlkemEncapsulate pub seed).2.length = mlkem768CipherL

/-- Key generation, the random reads and the transport all serve the client. -/
structure WriteHelloEnv.Serves (env : WriteHelloEnv P)
    (x25519Priv : P.X25519Priv) (mlkemPriv : P.MlkemPriv)
    (nonce : HelloNonce) : Prop where
  x25519 : env.x25519 = some x25519Priv
  mlkem : env.mlkem = some mlkemPriv
  nonce : env.nonce handshakeNonce = some nonce
  pad : ∀ n, env.pad.bytes n ≠ none
  send : ∀ wire, env.send wire = none

/-! ## Clocks -/

theorem absDiff_eq_abs (a b : ℤ) : absDiff a b = |a - b| := by
  unfold absDiff
  split
  · rw [abs_of_nonneg (by omega)]
  · rw [abs_of_nonpos (by omega)]
    omega

theorem unixUint32_toNat {now : ℤ} (hnonneg : 0 ≤ now) (hlt : now < 2 ^ 32) :
    ((unixUint32 now).toNat : ℤ) = now := by
  rw [unixUint32, Int.emod_eq_of_lt hnonneg hlt, UInt32.toNat_ofNat',
    Nat.mod_eq_of_lt (by omega), Int.toNat_of_nonneg hnonneg]

/-! ## The three calls -/

theorem writeClientHello_succeeds
    (hkeys : P.HonestKeysWork) {uuid : Uuid} {cmd : Command} {addr : Address}
    {env : WriteHelloEnv P} {x25519Priv : P.X25519Priv}
    {mlkemPriv : P.MlkemPriv} {nonce : HelloNonce}
    (henv : env.Serves x25519Priv mlkemPriv nonce)
    (hcmd : cmd = commandTCP ∨ cmd = commandUDP) (haddr : addr.Encodable) :
    ∃ wire,
      encodeClientHello P
          (freshClientHello P uuid cmd addr x25519Priv mlkemPriv nonce env.now)
          env.pad = .ok wire ∧
      writeClientHello P uuid cmd addr env =
        (.ok
          { uuid := uuid
            nonce := nonce
            x25519Priv := some x25519Priv
            mlkemPriv := some mlkemPriv
            hello := freshClientHello P uuid cmd addr x25519Priv mlkemPriv nonce
              env.now },
          some
            ⟨freshClientHello P uuid cmd addr x25519Priv mlkemPriv nonce env.now,
              wire⟩) := by
  obtain ⟨wire, henc⟩ := encodeClientHello_succeeds P
    (show (freshClientHello P uuid cmd addr x25519Priv mlkemPriv nonce
      env.now).address.Encodable from haddr) henv.pad
  refine ⟨wire, henc, ?_⟩
  have hknown : ¬(cmd ≠ commandTCP ∧ cmd ≠ commandUDP) := by tauto
  have hsize : ¬(P.mlkemPublicBytes mlkemPriv).length ≠ mlkem768PubLen :=
    not_not.mpr (hkeys.mlkem_length mlkemPriv)
  simp only [writeClientHello, if_neg hknown, henv.x25519, henv.mlkem,
    henv.nonce, if_neg hsize, henc, henv.send]

theorem makeUUIDLookup_first
    {before after : List Uuid} {uuid : Uuid} {msg : Bytes}
    {tag : FixedBytes outerMACLen}
    (hbefore : ∀ v ∈ before, ¬verifyOuterMAC P v msg tag = true)
    (hmac : verifyOuterMAC P uuid msg tag = true) :
    makeUUIDLookup P (before ++ uuid :: after) msg tag = .ok uuid := by
  have hnone : before.find? (fun v => verifyOuterMAC P v msg tag) = none :=
    List.find?_eq_none.mpr hbefore
  simp only [makeUUIDLookup, List.find?_append, hnone, List.find?_cons, hmac,
    Option.none_or]

theorem answerClientHello_succeeds
    (hkeys : P.HonestKeysWork) {ch : ClientHello} {env : AcceptEnv P}
    {serverPriv x25519Priv : P.X25519Priv} {mlkemPriv : P.MlkemPriv}
    (henv : env.x25519 = some serverPriv)
    (hclassical : ch.classicalPub = P.x25519PublicBytes x25519Priv)
    (hpq : ch.pqPub = FixedBytes.copyFrom mlkem768PubLen
      (P.mlkemPublicBytes mlkemPriv))
    (uuid : Uuid) :
    ∃ reply result, answerClientHello P uuid ch env = .ok (reply, result) := by
  obtain ⟨clientPub, hclientPub⟩ := hkeys.x25519_parses x25519Priv
  obtain ⟨secret, hsecret⟩ :=
    hkeys.x25519_agrees serverPriv x25519Priv clientPub hclientPub
  obtain ⟨clientMLKEMPub, hkem⟩ := hkeys.mlkem_parses mlkemPriv
  rw [← hclassical] at hclientPub
  rw [← hpq] at hkem
  have hsize := not_not.mpr
    (hkeys.mlkem_cipher_length clientMLKEMPub env.mlkemSeed)
  simp only [answerClientHello, henv, hclientPub, hsecret, hkem, if_neg hsize]
  exact ⟨_, _, rfl⟩

theorem readServerHello_succeeds
    (hkeys : P.HonestKeysWork) {state : ClientHandshakeState P}
    {sh : ServerHello} {x25519Priv serverPriv : P.X25519Priv}
    {mlkemPriv : P.MlkemPriv} {pq : Bytes} {now : ℤ}
    (hx25519 : state.x25519Priv = some x25519Priv)
    (hmlkem : state.mlkemPriv = some mlkemPriv)
    (hecho : sh.nonceEcho = state.nonce) (hstatus : sh.status = 0)
    (hserver : sh.classicalPub = P.x25519PublicBytes serverPriv)
    (hdecaps : P.mlkemDecapsulate mlkemPriv sh.pqCipher = some pq)
    (hfresh : absDiff sh.serverTime.toNat now ≤ handshakeTimestampWindow) :
    ∃ result, (readServerHello P state (encodeServerHello P sh state.uuid)
      now).1 = .ok result := by
  obtain ⟨serverPub, hserverPub⟩ := hkeys.x25519_parses serverPriv
  obtain ⟨secret, hsecret⟩ :=
    hkeys.x25519_agrees x25519Priv serverPriv serverPub hserverPub
  rw [← hserver] at hserverPub
  simp only [readServerHello, decodeServerHello_encode, hecho, hstatus,
    if_neg (not_lt.mpr hfresh), hserverPub, hx25519, hsecret, hmlkem, hdecaps,
    ne_eq, not_true_eq_false, if_false]
  exact ⟨_, rfl⟩

/-- The client that sent a hello accepts the answer to it and derives the
server's keys. -/
theorem readServerHello_answer
    (hkeys : P.HonestKeysWork) {uuid : Uuid} {ch : ClientHello}
    {env : AcceptEnv P} {reply : Bytes} {served : HandshakeResult}
    {x25519Priv : P.X25519Priv} {mlkemPriv : P.MlkemPriv} {readNow : ℤ}
    (state : ClientHandshakeState P)
    (hanswer : answerClientHello P uuid ch env = .ok (reply, served))
    (hclassicalPub : ch.classicalPub = P.x25519PublicBytes x25519Priv)
    (hpqPub : ch.pqPub = FixedBytes.copyFrom mlkem768PubLen
      (P.mlkemPublicBytes mlkemPriv))
    (huuid : state.uuid = uuid) (hnonce : state.nonce = ch.nonce)
    (hhello : state.hello.nonce = ch.nonce)
    (hx25519 : state.x25519Priv = some x25519Priv)
    (hmlkem : state.mlkemPriv = some mlkemPriv)
    (hfresh : absDiff (unixUint32 env.helloNow).toNat readNow ≤
      handshakeTimestampWindow) :
    served.clientHello = some ch ∧
      ∃ result, (readServerHello P state reply readNow).1 = .ok result ∧
        result.keys = served.keys := by
  subst huuid
  obtain ⟨serverPriv, clientPub, classical, clientMLKEMPub, hclientPub,
    hserverDH, hkem, hreply, hserved⟩ := answerClientHello_ok hanswer
  generalize hanswered : ServerHello.mk _ _ _ _ _ = sh at hreply
  have hecho : sh.nonceEcho = ch.nonce := by rw [← hanswered]
  have hserver : sh.classicalPub = P.x25519PublicBytes serverPriv := by
    rw [← hanswered]
  have hcipher : sh.pqCipher = FixedBytes.copyFrom mlkem768CipherL
      (P.mlkemEncapsulate clientMLKEMPub env.mlkemSeed).2 := by rw [← hanswered]
  have htime : sh.serverTime = unixUint32 env.helloNow := by rw [← hanswered]
  have hstatus : sh.status = 0 := by rw [← hanswered]
  have hdecaps : P.mlkemDecapsulate mlkemPriv sh.pqCipher =
      some (P.mlkemEncapsulate clientMLKEMPub env.mlkemSeed).1 := by
    rw [hcipher]
    exact P.mlkemDecapsulate_encapsulate mlkemPriv clientMLKEMPub env.mlkemSeed
      (by rw [← hpqPub, hkem])
  obtain ⟨result, hread⟩ := readServerHello_succeeds hkeys hx25519 hmlkem
    (hecho.trans hnonce.symm) hstatus hserver hdecaps
    (by rw [htime]; exact hfresh)
  rw [← hreply] at hread
  refine ⟨by rw [hserved], result, hread, ?_⟩
  obtain ⟨sh', serverPub, x25519Priv', classical', mlkemPriv', pq, hdec, _,
    hserverPub, hx, hclientDH, hm, hpq, hresult⟩ := readServerHello_ok hread
  rw [hreply, decodeServerHello_encode] at hdec
  obtain rfl := Except.ok.inj hdec
  obtain rfl := Option.some.inj (hx25519.symm.trans hx)
  obtain rfl := Option.some.inj (hmlkem.symm.trans hm)
  rw [hserver] at hserverPub
  rw [hcipher] at hpq
  obtain ⟨hclassical, hshared⟩ := sharedSecrets_agree hclassicalPub hpqPub
    hclientPub hserverPub hserverDH hclientDH hkem hpq
  rw [hresult, hserved, hhello, hecho, hclassical, hshared]

theorem acceptClientHelloWithReplay_succeeds
    {msg : Bytes} {lookup : UUIDLookup} {cache : Option ReplayCache}
    {env : AcceptEnv P} {uuid : Uuid} {ch : ClientHello}
    {accepted : Bytes × HandshakeResult}
    (hauth : authenticateClientHello P msg lookup env.checkNow = .ok (uuid, ch))
    (hanswer : answerClientHello P uuid ch env = .ok accepted)
    (hfirst : ∀ c, cache = some c →
      c.entries.live env.markNow (makeReplayKey ch.uuid ch.nonce) = false) :
    (acceptClientHelloWithReplay P msg lookup cache env).1 = .ok accepted := by
  cases cache with
  | none => simp [acceptClientHelloWithReplay, hauth, hanswer]
  | some c =>
      simp [acceptClientHelloWithReplay, hauth, hanswer,
        ReplayCache.markSeenOrReject_fst, hfirst c rfl]

/-! ## The whole handshake -/

/-- Each side sends where the other receives. -/
def Faces (client server : SessionKeys) : Prop :=
  (newSecureStream client .client).send = (newSecureStream server .server).recv ∧
    (newSecureStream client .client).recv =
      (newSecureStream server .server).send

theorem honest_handshake_completes
    (P : Primitives) (hkeys : P.HonestKeysWork)
    (before after : List Uuid) (uuid : Uuid) (cmd : Command) (addr : Address)
    (env : WriteHelloEnv P) (x25519Priv : P.X25519Priv)
    (mlkemPriv : P.MlkemPriv) (nonce : HelloNonce)
    (cache : Option ReplayCache) (serverEnv : AcceptEnv P)
    (serverPriv : P.X25519Priv) (readNow : ℤ)
    (hcmd : cmd = commandTCP ∨ cmd = commandUDP)
    (haddr : ∃ buf, addr.append [] = .ok buf)
    (henv : env.Serves x25519Priv mlkemPriv nonce)
    (hserver : serverEnv.x25519 = some serverPriv)
    (hnoEarlier : ∀ sent, (writeClientHello P uuid cmd addr env).2 = some sent →
      ∀ v ∈ before, ¬Verifies P v sent.wire)
    (hunseen : ∀ c, cache = some c →
      c.entries.live serverEnv.markNow (makeReplayKey uuid nonce) = false)
    (hnow : 0 ≤ env.now ∧ env.now < 2 ^ 32)
    (hhelloNow : 0 ≤ serverEnv.helloNow ∧ serverEnv.helloNow < 2 ^ 32)
    (hskew : |env.now - serverEnv.checkNow| ≤ 120)
    (hskew' : |serverEnv.helloNow - readNow| ≤ 120) :
    ∃ state sent reply served result,
      writeClientHello P uuid cmd addr env = (.ok state, some sent) ∧
      sent.hello = freshClientHello P uuid cmd addr x25519Priv mlkemPriv nonce
        env.now ∧
      (sent.hello.timestamp.toNat : ℤ) = env.now ∧
      (acceptClientHelloWithReplay P sent.wire
        (makeUUIDLookup P (before ++ uuid :: after)) cache serverEnv).1 =
        .ok (reply, served) ∧
      served.clientHello = some sent.hello.wireNorm ∧
      (readServerHello P state reply readNow).1 = .ok result ∧
      result.keys = served.keys ∧ Faces result.keys served.keys := by
  obtain ⟨wire, henc, hwrite⟩ := writeClientHello_succeeds hkeys henv hcmd
    ((Address.append_ok_iff addr).mp haddr)
  have hbefore := hnoEarlier _ (congrArg Prod.snd hwrite)
  set hello := freshClientHello P uuid cmd addr x25519Priv mlkemPriv nonce
    env.now
  have htime : (hello.timestamp.toNat : ℤ) = env.now :=
    unixUint32_toNat hnow.1 hnow.2
  have hlong := encodeClientHello_length_gt henc
  have hlookup : makeUUIDLookup P (before ++ uuid :: after) _ _ = .ok uuid :=
    makeUUIDLookup_first
      (fun v hv hmac => hbefore v hv ⟨by simp at hlong ⊢; omega, hmac⟩)
      (encodeClientHello_mac henc)
  have hauth : authenticateClientHello P wire _ serverEnv.checkNow = _ :=
    authenticateClientHello_of_lookup henc hlookup hcmd
      (by rw [absDiff_eq_abs, htime]; exact hskew)
  obtain ⟨reply, served, hanswer⟩ : ∃ reply served,
      answerClientHello P uuid hello.wireNorm serverEnv = .ok (reply, served) :=
    answerClientHello_succeeds hkeys hserver rfl rfl uuid
  have hfresh : absDiff (unixUint32 serverEnv.helloNow).toNat readNow ≤
      handshakeTimestampWindow := by
    rw [absDiff_eq_abs, unixUint32_toNat hhelloNow.1 hhelloNow.2]
    exact hskew'
  obtain ⟨hrequest, result, hread, hsame⟩ := readServerHello_answer hkeys
    { uuid := uuid
      nonce := nonce
      x25519Priv := some x25519Priv
      mlkemPriv := some mlkemPriv
      hello := hello }
    hanswer rfl rfl rfl rfl rfl rfl rfl hfresh
  refine ⟨_, _, reply, served, result, hwrite, rfl, htime,
    acceptClientHelloWithReplay_succeeds hauth hanswer hunseen, hrequest, hread,
    hsame, ?_⟩
  rw [hsame]
  exact ⟨rfl, rfl⟩

namespace Transparent

theorem honestKeysWork : suite.HonestKeysWork where
  x25519_parses := fun priv => ⟨priv, rfl⟩
  x25519_agrees := fun _ _ _ _ => ⟨_, rfl⟩
  mlkem_length := fun priv => priv.property
  mlkem_parses := fun _ => ⟨_, rfl⟩
  mlkem_cipher_length := fun _ _ => FixedBytes.length_val _

theorem writeEnv_serves :
    writeEnv.Serves (FixedBytes.copyFrom _ []) (FixedBytes.copyFrom _ [])
      (FixedBytes.copyFrom _ []) where
  x25519 := rfl
  mlkem := rfl
  nonce := rfl
  pad := by simp [writeEnv, zeroDraws]
  send := fun _ => rfl

/-- A user list of one, an empty cache and clocks two minutes apart. -/
theorem honest_handshake_completes_hello :
    ∃ state sent reply served result,
      writeClientHello suite user commandTCP (hello 1000).address writeEnv =
        (.ok state, some sent) ∧
      (acceptClientHelloWithReplay suite sent.wire (makeUUIDLookup suite [user])
        (some (newReplayCache replayWindow)) (acceptEnv 1120)).1 =
        .ok (reply, served) ∧
      (readServerHello suite state reply 1000).1 = .ok result ∧
      Faces result.keys served.keys := by
  obtain ⟨state, sent, reply, served, result, hwrite, _, _, haccept, _, hread, _,
    hfaces⟩ := honest_handshake_completes suite honestKeysWork [] [] user
      commandTCP (hello 1000).address writeEnv _ _ _
      (some (newReplayCache replayWindow)) (acceptEnv 1120) _ 1000 (Or.inl rfl)
      ((Address.append_ok_iff _).mpr (by simp [hello, Address.Encodable]))
      writeEnv_serves rfl (by simp) (fun c hc => by cases hc; rfl)
      ⟨by decide, by decide⟩ ⟨by decide, by decide⟩ (by decide) (by decide)
  exact ⟨state, sent, reply, served, result, hwrite, haccept, hread, hfaces⟩

end Transparent

end SingEwp
