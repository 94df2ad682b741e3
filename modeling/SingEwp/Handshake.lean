import SingEwp.HelloCodec
import SingEwp.ReplayCache

/-!
# The two sides of the handshake

`WriteClientHello` and `ReadServerHello` on the client,
`AcceptClientHelloWithReplay` and `MakeUUIDLookup` on the server.  Key
generation, random reads, clock readings and the result of the transport's send
are arguments, so every outcome of theirs is covered.
-/

namespace SingEwp

def absDiff (a b : ℤ) : ℤ := if b < a then a - b else b - a

def unixUint32 (now : ℤ) : UInt32 := UInt32.ofNat (now % 2 ^ 32).toNat

structure HandshakeResult where
  keys : SessionKeys
  clientHello : Option ClientHello := none
  serverHello : Option ServerHello := none

structure ClientHandshakeState (P : Primitives) where
  uuid : Uuid
  nonce : HelloNonce
  x25519Priv : Option P.X25519Priv
  mlkemPriv : Option P.MlkemPriv
  hello : ClientHello

/-! ## Client -/

/-- What `WriteClientHello` obtains from outside: the generated keys, the clock,
the random reads and the transport's send. -/
structure WriteHelloEnv (P : Primitives) where
  x25519 : Option P.X25519Priv
  mlkem : Option P.MlkemPriv
  now : ℤ
  nonce : RandRead
  pad : HelloPadDraws
  send : Bytes → Option EwpError

/-- The hello that `WriteClientHello` fills in. -/
def freshClientHello (P : Primitives) (uuid : Uuid) (cmd : Command)
    (addr : Address) (x25519Priv : P.X25519Priv) (mlkemPriv : P.MlkemPriv)
    (nonce : HelloNonce) (now : ℤ) : ClientHello where
  nonce := nonce
  classicalPub := P.x25519PublicBytes x25519Priv
  pqPub := FixedBytes.copyFrom mlkem768PubLen (P.mlkemPublicBytes mlkemPriv)
  timestamp := unixUint32 now
  uuid := uuid
  command := cmd
  address := addr

structure SentHello where
  hello : ClientHello
  wire : Bytes

/-- `WriteClientHello`, with the hello it handed to `send`, if any. -/
def writeClientHello (P : Primitives) (uuid : Uuid) (cmd : Command)
    (addr : Address) (env : WriteHelloEnv P) :
    Except EwpError (ClientHandshakeState P) × Option SentHello :=
  if cmd ≠ commandTCP ∧ cmd ≠ commandUDP then (.error .command, none)
  else
    match env.x25519 with
    | none => (.error .x25519Keygen, none)
    | some x25519Priv =>
        match env.mlkem with
        | none => (.error .mlkemKeygen, none)
        | some mlkemPriv =>
            match env.nonce handshakeNonce with
            | none => (.error .nonceRand, none)
            | some nonce =>
                let pqPub := P.mlkemPublicBytes mlkemPriv
                if pqPub.length ≠ mlkem768PubLen then
                  (.error (.mlkemPubSize pqPub.length), none)
                else
                  let hello := freshClientHello P uuid cmd addr x25519Priv
                    mlkemPriv nonce env.now
                  match encodeClientHello P hello env.pad with
                  | .error e => (.error e, none)
                  | .ok wire =>
                      match env.send wire with
                      | some e =>
                          (.error (.sendClientHello e), some ⟨hello, wire⟩)
                      | none =>
                          (.ok
                            { uuid := uuid
                              nonce := nonce
                              x25519Priv := some x25519Priv
                              mlkemPriv := some mlkemPriv
                              hello := hello }, some ⟨hello, wire⟩)

/-- `ReadServerHello`.  A nil private key panics when it is used. -/
def readServerHello (P : Primitives) (s : ClientHandshakeState P)
    (msg : Bytes) (now : ℤ) :
    Outcome EwpError HandshakeResult × ClientHandshakeState P :=
  match decodeServerHello P msg s.uuid with
  | .error e => (.error e, s)
  | .ok sh =>
      if sh.nonceEcho ≠ s.nonce then (.error .outerMAC, s)
      else if sh.status ≠ 0 then (.error (.serverStatus sh.status), s)
      else if handshakeTimestampWindow < absDiff sh.serverTime.toNat now then
        (.error .timestamp, s)
      else
        match P.x25519NewPublicKey sh.classicalPub with
        | none => (.error .parseX25519Pub, s)
        | some serverPub =>
            match s.x25519Priv with
            | none => (.panic, s)
            | some x25519Priv =>
                match P.x25519ECDH x25519Priv serverPub with
                | none => (.error .x25519ECDH, s)
                | some classical =>
                    match s.mlkemPriv with
                    | none => (.panic, s)
                    | some mlkemPriv =>
                        match P.mlkemDecapsulate mlkemPriv sh.pqCipher with
                        | none => (.error .mlkemDecapsulate, s)
                        | some pq =>
                            let keys := deriveSessionKeys P
                              (FixedBytes.copyFrom x25519PubLen classical) pq
                              s.hello.nonce sh.nonceEcho
                            (.ok { keys := keys, serverHello := some sh },
                              { s with x25519Priv := none, mlkemPriv := none })

/-! ## Server -/

abbrev UUIDLookup := Bytes → FixedBytes outerMACLen → Except EwpError Uuid

def makeUUIDLookup (P : Primitives) (uuids : List Uuid) : UUIDLookup :=
  fun msg tag =>
    match uuids.find? (fun u => verifyOuterMAC P u msg tag) with
    | some u => .ok u
    | none => .error .unknownUUID

/-- What `AcceptClientHelloWithReplay` obtains from outside.  It reads the clock
up to three times: for the timestamp test, in the replay cache and for the
ServerHello. -/
structure AcceptEnv (P : Primitives) where
  checkNow : ℤ
  markNow : ℤ
  helloNow : ℤ
  x25519 : Option P.X25519Priv
  mlkemSeed : P.MlkemSeed

/-- The checks `AcceptClientHelloWithReplay` makes before it consults the
cache. -/
def authenticateClientHello (P : Primitives) (msg : Bytes)
    (lookup : UUIDLookup) (now : ℤ) : Except EwpError (Uuid × ClientHello) :=
  if msg.length < outerMACLen then .error .handshakeShort
  else
    let macStart := msg.length - outerMACLen
    let outerTag := FixedBytes.copyFrom outerMACLen (msg.drop macStart)
    match lookup (msg.take macStart) outerTag with
    | .error e => .error e
    | .ok uuid =>
        match decodeClientHello P msg uuid with
        | .error e => .error e
        | .ok ch =>
            if ch.uuid ≠ uuid then .error .uuidMismatch
            else if ch.command ≠ commandTCP ∧ ch.command ≠ commandUDP then
              .error .command
            else if handshakeTimestampWindow <
                absDiff ch.timestamp.toNat now then .error .timestamp
            else .ok (uuid, ch)

/-- What `AcceptClientHelloWithReplay` does once the cache has admitted the
hello. -/
def answerClientHello (P : Primitives) (uuid : Uuid) (ch : ClientHello)
    (env : AcceptEnv P) : Except EwpError (Bytes × HandshakeResult) :=
  match env.x25519 with
  | none => .error .x25519Keygen
  | some x25519Priv =>
      match P.x25519NewPublicKey ch.classicalPub with
      | none => .error .parseX25519Pub
      | some clientPub =>
          match P.x25519ECDH x25519Priv clientPub with
          | none => .error .x25519ECDH
          | some classical =>
              match P.mlkemNewEncapsulationKey ch.pqPub with
              | none => .error .parseMlkemPub
              | some clientMLKEMPub =>
                  let (pqShared, pqCipher) :=
                    P.mlkemEncapsulate clientMLKEMPub env.mlkemSeed
                  if pqCipher.length ≠ mlkem768CipherL then
                    .error (.mlkemCipherSize pqCipher.length)
                  else
                    let sh : ServerHello :=
                      { nonceEcho := ch.nonce
                        classicalPub := P.x25519PublicBytes x25519Priv
                        pqCipher :=
                          FixedBytes.copyFrom mlkem768CipherL pqCipher
                        serverTime := unixUint32 env.helloNow
                        status := 0 }
                    let keys := deriveSessionKeys P
                      (FixedBytes.copyFrom x25519PubLen classical) pqShared
                      ch.nonce sh.nonceEcho
                    .ok (encodeServerHello P sh uuid,
                      { keys := keys, clientHello := some ch })

def acceptClientHelloWithReplay (P : Primitives) (msg : Bytes)
    (lookup : UUIDLookup) (cache : Option ReplayCache) (env : AcceptEnv P) :
    Except EwpError (Bytes × HandshakeResult) × Option ReplayCache :=
  match authenticateClientHello P msg lookup env.checkNow with
  | .error e => (.error e, cache)
  | .ok (uuid, ch) =>
      match cache with
      | none => (answerClientHello P uuid ch env, none)
      | some c =>
          -- an admitted pair stays in the cache even if the answer fails
          let mark := c.markSeenOrReject ch.uuid ch.nonce env.markNow
          if mark.1 then (answerClientHello P uuid ch env, some mark.2)
          else (.error .replay, some mark.2)

/-! ## What a successful call means -/

theorem writeClientHello_sent
    {P : Primitives} {uuid : Uuid} {cmd : Command} {addr : Address}
    {env : WriteHelloEnv P} {sent : SentHello}
    (hsent : (writeClientHello P uuid cmd addr env).2 = some sent) :
    encodeClientHello P sent.hello env.pad = .ok sent.wire ∧
      ∃ x25519Priv mlkemPriv nonce,
        sent.hello = freshClientHello P uuid cmd addr x25519Priv mlkemPriv
          nonce env.now ∧
        ∀ state, (writeClientHello P uuid cmd addr env).1 = .ok state →
          state =
            { uuid := uuid
              nonce := nonce
              x25519Priv := some x25519Priv
              mlkemPriv := some mlkemPriv
              hello := sent.hello } := by
  unfold writeClientHello at hsent ⊢
  by_cases hcmd : cmd ≠ commandTCP ∧ cmd ≠ commandUDP
  · simp [hcmd] at hsent
  · simp only [if_neg hcmd] at hsent ⊢
    cases hx : env.x25519 with
    | none => simp [hx] at hsent
    | some x25519Priv =>
        cases hm : env.mlkem with
        | none => simp [hx, hm] at hsent
        | some mlkemPriv =>
            cases hn : env.nonce handshakeNonce with
            | none => simp [hx, hm, hn] at hsent
            | some nonce =>
                simp only [hx, hm, hn] at hsent ⊢
                split at hsent
                · simp at hsent
                · rename_i hsize
                  simp only [if_neg hsize]
                  set hello := freshClientHello P uuid cmd addr x25519Priv
                    mlkemPriv nonce env.now with hhello
                  cases henc : encodeClientHello P hello env.pad with
                  | error e => simp [henc] at hsent
                  | ok wire =>
                      simp only [henc] at hsent ⊢
                      cases hsend : env.send wire with
                      | some e =>
                          simp only [hsend, Option.some.injEq] at hsent ⊢
                          subst hsent
                          exact ⟨henc, x25519Priv, mlkemPriv, nonce, hhello,
                            by simp⟩
                      | none =>
                          simp only [hsend, Option.some.injEq] at hsent ⊢
                          subst hsent
                          refine ⟨henc, x25519Priv, mlkemPriv, nonce, hhello, ?_⟩
                          intro state hstate
                          exact (Except.ok.inj hstate).symm

theorem readServerHello_ok
    {P : Primitives} {s : ClientHandshakeState P} {msg : Bytes} {now : ℤ}
    {result : HandshakeResult}
    (hread : (readServerHello P s msg now).1 = .ok result) :
    ∃ sh serverPub x25519Priv classical mlkemPriv pq,
      decodeServerHello P msg s.uuid = .ok sh ∧
      sh.nonceEcho = s.nonce ∧
      P.x25519NewPublicKey sh.classicalPub = some serverPub ∧
      s.x25519Priv = some x25519Priv ∧
      P.x25519ECDH x25519Priv serverPub = some classical ∧
      s.mlkemPriv = some mlkemPriv ∧
      P.mlkemDecapsulate mlkemPriv sh.pqCipher = some pq ∧
      result.keys = deriveSessionKeys P
        (FixedBytes.copyFrom x25519PubLen classical) pq s.hello.nonce
        sh.nonceEcho := by
  unfold readServerHello at hread
  cases hdec : decodeServerHello P msg s.uuid with
  | error e => simp [hdec] at hread
  | ok sh =>
      simp only [hdec] at hread
      split at hread
      · simp at hread
      rename_i hnonce
      split at hread
      · simp at hread
      split at hread
      · simp at hread
      cases hpub : P.x25519NewPublicKey sh.classicalPub with
      | none => simp [hpub] at hread
      | some serverPub =>
          cases hx : s.x25519Priv with
          | none => simp [hpub, hx] at hread
          | some x25519Priv =>
              cases hdh : P.x25519ECDH x25519Priv serverPub with
              | none => simp [hpub, hx, hdh] at hread
              | some classical =>
                  cases hm : s.mlkemPriv with
                  | none => simp [hpub, hx, hdh, hm] at hread
                  | some mlkemPriv =>
                      cases hpq : P.mlkemDecapsulate mlkemPriv sh.pqCipher with
                      | none => simp [hpub, hx, hdh, hm, hpq] at hread
                      | some pq =>
                          simp only [hpub, hx, hdh, hm, hpq,
                            Outcome.ok.injEq] at hread
                          subst hread
                          exact ⟨sh, serverPub, x25519Priv, classical,
                            mlkemPriv, pq, rfl, not_not.mp hnonce, hpub, rfl,
                            hdh, rfl, hpq, rfl⟩

theorem readServerHello_state
    (P : Primitives) (s : ClientHandshakeState P) (msg : Bytes) (now : ℤ) :
    (readServerHello P s msg now).2 = s ∨
      (readServerHello P s msg now).2 =
        { s with x25519Priv := none, mlkemPriv := none } := by
  unfold readServerHello
  dsimp only
  repeat' split
  all_goals first
    | exact Or.inl rfl
    | exact Or.inr rfl

theorem makeUUIDLookup_ok
    {P : Primitives} {uuids : List Uuid} {msg : Bytes}
    {tag : FixedBytes outerMACLen} {uuid : Uuid}
    (hlookup : makeUUIDLookup P uuids msg tag = .ok uuid) :
    uuid ∈ uuids ∧ verifyOuterMAC P uuid msg tag = true := by
  unfold makeUUIDLookup at hlookup
  cases hfind : uuids.find? (fun u => verifyOuterMAC P u msg tag) with
  | none => simp [hfind] at hlookup
  | some u =>
      simp only [hfind, Except.ok.injEq] at hlookup
      subst hlookup
      exact ⟨List.mem_of_find?_eq_some hfind,
        List.find?_some (p := fun u => verifyOuterMAC P u msg tag) hfind⟩

theorem authenticateClientHello_ok
    {P : Primitives} {msg : Bytes} {lookup : UUIDLookup} {now : ℤ}
    {uuid : Uuid} {ch : ClientHello}
    (hauth : authenticateClientHello P msg lookup now = .ok (uuid, ch)) :
    outerMACLen ≤ msg.length ∧
      lookup (msg.take (msg.length - outerMACLen))
        (FixedBytes.copyFrom outerMACLen
          (msg.drop (msg.length - outerMACLen))) = .ok uuid ∧
      decodeClientHello P msg uuid = .ok ch ∧
      ch.uuid = uuid ∧
      (ch.command = commandTCP ∨ ch.command = commandUDP) ∧
      absDiff ch.timestamp.toNat now ≤ handshakeTimestampWindow := by
  unfold authenticateClientHello at hauth
  split at hauth
  · simp at hauth
  rename_i hshort
  dsimp only at hauth
  split at hauth
  · simp at hauth
  rename_i found hlookup
  cases hdec : decodeClientHello P msg found with
  | error e => simp [hdec] at hauth
  | ok hello =>
      simp only [hdec] at hauth
      split at hauth
      · simp at hauth
      rename_i huuid
      split at hauth
      · simp at hauth
      rename_i hcmd
      split at hauth
      · simp at hauth
      rename_i htime
      simp only [Except.ok.injEq, Prod.mk.injEq] at hauth
      obtain ⟨hu, hc⟩ := hauth
      subst hu hc
      exact ⟨not_lt.mp hshort, hlookup, hdec, not_not.mp huuid, by tauto,
        not_lt.mp htime⟩

theorem answerClientHello_ok
    {P : Primitives} {uuid : Uuid} {ch : ClientHello} {env : AcceptEnv P}
    {out : Bytes} {result : HandshakeResult}
    (hanswer : answerClientHello P uuid ch env = .ok (out, result)) :
    ∃ x25519Priv clientPub classical clientMLKEMPub,
      P.x25519NewPublicKey ch.classicalPub = some clientPub ∧
      P.x25519ECDH x25519Priv clientPub = some classical ∧
      P.mlkemNewEncapsulationKey ch.pqPub = some clientMLKEMPub ∧
      out = encodeServerHello P
        { nonceEcho := ch.nonce
          classicalPub := P.x25519PublicBytes x25519Priv
          pqCipher := FixedBytes.copyFrom mlkem768CipherL
            (P.mlkemEncapsulate clientMLKEMPub env.mlkemSeed).2
          serverTime := unixUint32 env.helloNow
          status := 0 } uuid ∧
      result =
        { keys := deriveSessionKeys P
            (FixedBytes.copyFrom x25519PubLen classical)
            (P.mlkemEncapsulate clientMLKEMPub env.mlkemSeed).1
            ch.nonce ch.nonce
          clientHello := some ch } := by
  unfold answerClientHello at hanswer
  cases hx : env.x25519 with
  | none => simp [hx] at hanswer
  | some x25519Priv =>
      cases hpub : P.x25519NewPublicKey ch.classicalPub with
      | none => simp [hx, hpub] at hanswer
      | some clientPub =>
          cases hdh : P.x25519ECDH x25519Priv clientPub with
          | none => simp [hx, hpub, hdh] at hanswer
          | some classical =>
              cases hek : P.mlkemNewEncapsulationKey ch.pqPub with
              | none => simp [hx, hpub, hdh, hek] at hanswer
              | some clientMLKEMPub =>
                  simp only [hx, hpub, hdh, hek] at hanswer
                  split at hanswer
                  · simp at hanswer
                  simp only [Except.ok.injEq, Prod.mk.injEq] at hanswer
                  exact ⟨x25519Priv, clientPub, classical, clientMLKEMPub, rfl,
                    hdh, rfl, hanswer.1.symm, hanswer.2.symm⟩

/-- A hello is accepted only if it authenticates, the cache (if there is one)
admits it, and the answer can be computed. -/
theorem acceptClientHelloWithReplay_ok
    {P : Primitives} {msg : Bytes} {lookup : UUIDLookup}
    {cache : Option ReplayCache} {env : AcceptEnv P}
    {accepted : Bytes × HandshakeResult}
    (haccept :
      (acceptClientHelloWithReplay P msg lookup cache env).1 = .ok accepted) :
    ∃ uuid ch,
      authenticateClientHello P msg lookup env.checkNow = .ok (uuid, ch) ∧
      answerClientHello P uuid ch env = .ok accepted ∧
      ∀ c, cache = some c →
        (c.markSeenOrReject ch.uuid ch.nonce env.markNow).1 = true ∧
        (acceptClientHelloWithReplay P msg lookup cache env).2 =
          some (c.markSeenOrReject ch.uuid ch.nonce env.markNow).2 := by
  unfold acceptClientHelloWithReplay at haccept ⊢
  cases hauth : authenticateClientHello P msg lookup env.checkNow with
  | error e => simp [hauth] at haccept
  | ok pair =>
      obtain ⟨uuid, ch⟩ := pair
      simp only [hauth] at haccept ⊢
      refine ⟨uuid, ch, rfl, ?_⟩
      cases cache with
      | none => exact ⟨haccept, by simp⟩
      | some c =>
          simp only at haccept ⊢
          split at haccept
          · rename_i hmark
            refine ⟨haccept, ?_⟩
            intro c' hc'
            cases hc'
            simp [hmark]
          · simp at haccept

/-! ## Honest hellos -/

theorem clientHelloWire_mac
    (P : Primitives) (ch : ClientHello) (inner : Bytes) :
    verifyOuterMAC P ch.uuid
      ((clientHelloWire P ch inner).take
        ((clientHelloWire P ch inner).length - outerMACLen))
      (FixedBytes.copyFrom outerMACLen
        ((clientHelloWire P ch inner).drop
          ((clientHelloWire P ch inner).length - outerMACLen))) = true := by
  have hstart : (helloSealed P ch inner).length =
      (clientHelloWire P ch inner).length - outerMACLen := by
    rw [clientHelloWire_length, helloSealed_length, Nat.add_sub_cancel]
  rw [← hstart]
  simp [clientHelloWire, verifyOuterMAC]

/-- An honest hello passes every check once the lookup has found its user. -/
theorem authenticateClientHello_of_lookup
    {P : Primitives} {ch : ClientHello} {draws : HelloPadDraws} {wire : Bytes}
    {lookup : UUIDLookup} {now : ℤ}
    (henc : encodeClientHello P ch draws = .ok wire)
    (hlookup : lookup (wire.take (wire.length - outerMACLen))
      (FixedBytes.copyFrom outerMACLen
        (wire.drop (wire.length - outerMACLen))) = .ok ch.uuid)
    (hcommand : ch.command = commandTCP ∨ ch.command = commandUDP)
    (hfresh : absDiff ch.timestamp.toNat now ≤ handshakeTimestampWindow) :
    authenticateClientHello P wire lookup now = .ok (ch.uuid, ch.wireNorm) := by
  have hdec := decodeClientHello_encode henc
  have hlong := encodeClientHello_length_gt henc
  have huuid : ¬ch.wireNorm.uuid ≠ ch.uuid := not_not.mpr rfl
  have htime : ¬handshakeTimestampWindow <
      absDiff ch.wireNorm.timestamp.toNat now := not_lt.mpr hfresh
  have hcmd : ¬(ch.wireNorm.command ≠ commandTCP ∧
      ch.wireNorm.command ≠ commandUDP) := by
    change ¬(ch.command ≠ commandTCP ∧ ch.command ≠ commandUDP)
    tauto
  unfold authenticateClientHello
  rw [if_neg (by simp at hlong ⊢; omega)]
  dsimp only
  rw [hlookup]
  dsimp only
  rw [hdec]
  dsimp only
  rw [if_neg huuid, if_neg hcmd, if_neg htime]

theorem encodeClientHello_mac
    {P : Primitives} {ch : ClientHello} {draws : HelloPadDraws} {wire : Bytes}
    (henc : encodeClientHello P ch draws = .ok wire) :
    verifyOuterMAC P ch.uuid (wire.take (wire.length - outerMACLen))
      (FixedBytes.copyFrom outerMACLen
        (wire.drop (wire.length - outerMACLen))) = true := by
  obtain ⟨addrBuf, pad, _, _, hwire⟩ := encodeClientHello_ok henc
  rw [hwire]
  exact clientHelloWire_mac P ch (helloInner ch addrBuf pad)

theorem authenticateClientHello_encode
    {P : Primitives} {ch : ClientHello} {draws : HelloPadDraws} {wire : Bytes}
    {now : ℤ} (henc : encodeClientHello P ch draws = .ok wire)
    (hcommand : ch.command = commandTCP ∨ ch.command = commandUDP)
    (hfresh : absDiff ch.timestamp.toNat now ≤ handshakeTimestampWindow) :
    authenticateClientHello P wire (makeUUIDLookup P [ch.uuid]) now =
      .ok (ch.uuid, ch.wireNorm) := by
  have hmac := encodeClientHello_mac henc
  refine authenticateClientHello_of_lookup henc ?_ hcommand hfresh
  simp only [makeUUIDLookup, List.find?_cons, hmac]

/-! ## A transparent handshake -/

namespace Transparent

def user : Uuid := FixedBytes.copyFrom uuidLen [7]

def zeroDraws : HelloPadDraws where
  size := fun _ => none
  bytes := fun n => some (FixedBytes.copyFrom n [])

def hello (timestamp : UInt32) : ClientHello where
  nonce := FixedBytes.copyFrom handshakeNonce []
  classicalPub := FixedBytes.copyFrom x25519PubLen []
  pqPub := FixedBytes.copyFrom mlkem768PubLen []
  timestamp := timestamp
  uuid := user
  command := commandTCP
  address := { domain := [0x61], port := 80 }

def acceptEnv (now : ℤ) : AcceptEnv suite where
  checkNow := now
  markNow := now
  helloNow := now
  x25519 := some (FixedBytes.copyFrom x25519PubLen [])
  mlkemSeed := FixedBytes.copyFrom 32 []

theorem hello_encodes (timestamp : UInt32) :
    ∃ wire, encodeClientHello suite (hello timestamp) zeroDraws = .ok wire :=
  encodeClientHello_succeeds suite (by simp [hello, Address.Encodable])
    (by simp [zeroDraws])

theorem authenticateClientHello_hello
    {timestamp : UInt32} {wire : Bytes} {now : ℤ}
    (henc : encodeClientHello suite (hello timestamp) zeroDraws = .ok wire)
    (hfresh : absDiff timestamp.toNat now ≤ handshakeTimestampWindow) :
    authenticateClientHello suite wire (makeUUIDLookup suite [user]) now =
      .ok (user, (hello timestamp).wireNorm) := by
  have huser : (hello timestamp).uuid = user := rfl
  rw [← huser]
  exact authenticateClientHello_encode henc (Or.inl rfl) hfresh

theorem answerClientHello_acceptEnv
    (uuid : Uuid) (ch : ClientHello) (now : ℤ) :
    ∃ accepted, answerClientHello suite uuid ch (acceptEnv now) =
      .ok accepted := by
  have hlen : ∀ src, (FixedBytes.copyFrom mlkem768CipherL src).val.length =
      mlkem768CipherL := fun src => FixedBytes.length_val _
  simp [answerClientHello, acceptEnv, suite, hlen]

end Transparent

end SingEwp
