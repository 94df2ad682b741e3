import SingEwp.Service

/-!
# One handshake state, many calls

A `ClientHandshakeState` is meant to be used once: `ReadServerHello` derives the
session keys and drops the ephemeral private keys.  It drops them on its last
exit only.  A call that returns an error leaves them in the state, and a call
after the successful one uses a nil key as soon as its message passes the tests
before the key exchange.
-/

namespace SingEwp

variable {P : Primitives}

/-- A message for `ReadServerHello` and the clock at which it is read. -/
structure HelloCall where
  msg : Bytes
  now : ℤ

/-- Successive calls of `ReadServerHello` on one state: how each ends and the
state it leaves. -/
def helloOutcomes (P : Primitives) :
    ClientHandshakeState P → List HelloCall →
      List (Outcome EwpError HandshakeResult × ClientHandshakeState P)
  | _, [] => []
  | s, call :: rest =>
      let out := readServerHello P s call.msg call.now
      out :: helloOutcomes P out.2 rest

namespace ClientHandshakeState

def KeysGone (s : ClientHandshakeState P) : Prop :=
  s.x25519Priv = none ∧ s.mlkemPriv = none

/-- The state after a successful call. -/
def spent (s : ClientHandshakeState P) : ClientHandshakeState P :=
  { s with x25519Priv := none, mlkemPriv := none }

/-- The message is `sh`, and it passes the tests of `ReadServerHello` before the
first use of a private key. -/
structure Passes (s : ClientHandshakeState P) (call : HelloCall) (sh : ServerHello)
    (serverPub : P.X25519Pub) : Prop where
  decoded : decodeServerHello P call.msg s.uuid = .ok sh
  echo : sh.nonceEcho = s.nonce
  status : sh.status = 0
  recent : absDiff sh.serverTime.toNat call.now ≤ handshakeTimestampWindow
  pub : P.x25519NewPublicKey sh.classicalPub = some serverPub

def ReachesKeys (s : ClientHandshakeState P) (call : HelloCall) : Prop :=
  ∃ sh serverPub, s.Passes call sh serverPub

/-- The message passes the tests, and `ECDH` and `Decapsulate` succeed on it with
the private keys of the state. -/
def AgreesKeys (s : ClientHandshakeState P) (call : HelloCall) : Prop :=
  ∃ sh serverPub, s.Passes call sh serverPub ∧
    (∃ x25519Priv classical, s.x25519Priv = some x25519Priv ∧
      P.x25519ECDH x25519Priv serverPub = some classical) ∧
    ∃ mlkemPriv pq, s.mlkemPriv = some mlkemPriv ∧
      P.mlkemDecapsulate mlkemPriv sh.pqCipher = some pq

end ClientHandshakeState

/-- Whether a call returned keys. -/
def Outcome.isOk {ε α : Type} : Outcome ε α → Bool
  | .ok _ => true
  | _ => false

/-- Every call returns, one at most with keys, and none leaves a private key in
the state. -/
structure SingleUse (P : Primitives) (s : ClientHandshakeState P)
    (calls : List HelloCall) : Prop where
  returns : ∀ out ∈ helloOutcomes P s calls, out.1 ≠ .panic
  once : (helloOutcomes P s calls).countP (fun out => out.1.isOk) ≤ 1
  dropped : ∀ out ∈ helloOutcomes P s calls, out.2.KeysGone

/-! ## One call -/

section Call

variable {s : ClientHandshakeState P} {call : HelloCall}

/-- While the state holds its keys a call fails and changes nothing, or it
succeeds and drops them. -/
theorem readServerHello_fresh
    (hx25519 : s.x25519Priv ≠ none) (hmlkem : s.mlkemPriv ≠ none)
    (call : HelloCall) :
    (∃ e, readServerHello P s call.msg call.now = (.error e, s)) ∨
      ∃ result, readServerHello P s call.msg call.now = (.ok result, s.spent) := by
  unfold readServerHello
  dsimp only
  -- one goal for each exit; with both keys there, none of them is a panic
  repeat' split
  all_goals first
    | contradiction
    | exact Or.inl ⟨_, rfl⟩
    | exact Or.inr ⟨_, rfl⟩

theorem readServerHello_spent_of_reaches (hreaches : s.ReachesKeys call) :
    readServerHello P s.spent call.msg call.now = (.panic, s.spent) := by
  obtain ⟨sh, serverPub, ⟨hdecode, hecho, hstatus, hfresh, hpub⟩⟩ := hreaches
  have huuid : s.spent.uuid = s.uuid := rfl
  have hnonce : s.spent.nonce = s.nonce := rfl
  have hkey : s.spent.x25519Priv = none := rfl
  unfold readServerHello
  simp only [huuid, hdecode, hnonce, hecho, ne_eq, not_true_eq_false, if_false,
    hstatus, if_neg (not_lt.mpr hfresh), hpub, hkey]

theorem readServerHello_spent_of_not_reaches (hreaches : ¬s.ReachesKeys call) :
    ∃ e, readServerHello P s.spent call.msg call.now = (.error e, s.spent) := by
  have huuid : s.spent.uuid = s.uuid := rfl
  have hnonce : s.spent.nonce = s.nonce := rfl
  unfold readServerHello
  rw [huuid, hnonce]
  cases hdecode : decodeServerHello P call.msg s.uuid with
  | error e => exact ⟨e, rfl⟩
  | ok sh =>
      dsimp only
      split
      · exact ⟨_, rfl⟩
      rename_i hecho
      split
      · exact ⟨_, rfl⟩
      rename_i hstatus
      split
      · exact ⟨_, rfl⟩
      rename_i hfresh
      cases hpub : P.x25519NewPublicKey sh.classicalPub with
      | none => exact ⟨_, rfl⟩
      | some serverPub =>
          exact absurd ⟨sh, serverPub, hdecode, not_not.mp hecho,
            not_not.mp hstatus, not_lt.mp hfresh, hpub⟩ hreaches

theorem readServerHello_ok_iff :
    (∃ result, (readServerHello P s call.msg call.now).1 = .ok result) ↔
      s.AgreesKeys call := by
  constructor
  · rintro ⟨result, hresult⟩
    unfold readServerHello at hresult
    cases hdecode : decodeServerHello P call.msg s.uuid with
    | error e => simp [hdecode] at hresult
    | ok sh =>
        simp only [hdecode] at hresult
        split at hresult
        · cases hresult
        rename_i hecho
        split at hresult
        · cases hresult
        rename_i hstatus
        split at hresult
        · cases hresult
        rename_i hfresh
        cases hpub : P.x25519NewPublicKey sh.classicalPub with
        | none => simp [hpub] at hresult
        | some serverPub =>
            have hpasses : s.Passes call sh serverPub :=
              ⟨hdecode, not_not.mp hecho, not_not.mp hstatus, not_lt.mp hfresh,
                hpub⟩
            cases hx25519 : s.x25519Priv with
            | none => simp [hpub, hx25519] at hresult
            | some x25519Priv =>
                cases hecdh : P.x25519ECDH x25519Priv serverPub with
                | none => simp [hpub, hx25519, hecdh] at hresult
                | some classical =>
                    cases hmlkem : s.mlkemPriv with
                    | none => simp [hpub, hx25519, hecdh, hmlkem] at hresult
                    | some mlkemPriv =>
                        cases hpq : P.mlkemDecapsulate mlkemPriv sh.pqCipher with
                        | none =>
                            simp [hpub, hx25519, hecdh, hmlkem, hpq] at hresult
                        | some pq =>
                            exact ⟨sh, serverPub, hpasses,
                              ⟨x25519Priv, classical, hx25519, hecdh⟩,
                              mlkemPriv, pq, hmlkem, hpq⟩
  · rintro ⟨sh, serverPub, ⟨hdecode, hecho, hstatus, hfresh, hpub⟩,
      ⟨x25519Priv, classical, hx25519, hecdh⟩, mlkemPriv, pq, hmlkem, hpq⟩
    unfold readServerHello
    simp only [hdecode, hecho, ne_eq, not_true_eq_false, if_false, hstatus,
      if_neg (not_lt.mpr hfresh), hpub, hx25519, hecdh, hmlkem, hpq]
    exact ⟨_, rfl⟩

end Call

/-! ## Runs of calls -/

section Run

variable {s : ClientHandshakeState P}

/-- A spent state stays as it is and gives no keys. -/
theorem helloOutcomes_spent (s : ClientHandshakeState P) (calls : List HelloCall) :
    ∀ out ∈ helloOutcomes P s.spent calls,
      out.2 = s.spent ∧ out.1.isOk = false := by
  induction calls with
  | nil => exact fun _ hmem => absurd hmem List.not_mem_nil
  | cons call rest ih =>
      have hhead : (readServerHello P s.spent call.msg call.now).2 = s.spent ∧
          (readServerHello P s.spent call.msg call.now).1.isOk = false := by
        by_cases hreaches : s.ReachesKeys call
        · rw [readServerHello_spent_of_reaches hreaches]
          exact ⟨rfl, rfl⟩
        · obtain ⟨e, hread⟩ := readServerHello_spent_of_not_reaches hreaches
          rw [hread]
          exact ⟨rfl, rfl⟩
      intro out hmem
      rw [helloOutcomes, hhead.1, List.mem_cons] at hmem
      rcases hmem with rfl | hmem
      · exact hhead
      · exact ih out hmem

theorem helloOutcomes_spent_returns_iff
    (s : ClientHandshakeState P) (calls : List HelloCall) :
    (∀ out ∈ helloOutcomes P s.spent calls, out.1 ≠ .panic) ↔
      ∀ call ∈ calls, ¬s.ReachesKeys call := by
  induction calls with
  | nil => simp [helloOutcomes]
  | cons call rest ih =>
      rw [helloOutcomes]
      by_cases hreaches : s.ReachesKeys call
      · rw [readServerHello_spent_of_reaches hreaches]
        simp [hreaches]
      · obtain ⟨e, hread⟩ := readServerHello_spent_of_not_reaches hreaches
        rw [hread, List.forall_mem_cons, List.forall_mem_cons, ih]
        simp [hreaches]

theorem countP_helloOutcomes_spent
    (s : ClientHandshakeState P) (calls : List HelloCall) :
    (helloOutcomes P s.spent calls).countP (fun out => out.1.isOk) = 0 := by
  rw [List.countP_eq_zero]
  intro out hmem
  simp [(helloOutcomes_spent s calls out hmem).2]

theorem countP_helloOutcomes_le
    (hx25519 : s.x25519Priv ≠ none) (hmlkem : s.mlkemPriv ≠ none)
    (calls : List HelloCall) :
    (helloOutcomes P s calls).countP (fun out => out.1.isOk) ≤ 1 := by
  induction calls with
  | nil => simp [helloOutcomes]
  | cons call rest ih =>
      rw [helloOutcomes]
      rcases readServerHello_fresh hx25519 hmlkem call with
        ⟨e, hread⟩ | ⟨result, hread⟩
      · rw [hread, List.countP_cons_of_neg (by simp [Outcome.isOk])]
        exact ih
      · rw [hread, List.countP_cons_of_pos rfl, countP_helloOutcomes_spent]

theorem singleUse_cons_iff
    (hx25519 : s.x25519Priv ≠ none) (hmlkem : s.mlkemPriv ≠ none)
    (first : HelloCall) (rest : List HelloCall) :
    SingleUse P s (first :: rest) ↔
      s.AgreesKeys first ∧ ∀ call ∈ rest, ¬s.ReachesKeys call := by
  rw [← readServerHello_ok_iff]
  rcases readServerHello_fresh hx25519 hmlkem first with
    ⟨e, hread⟩ | ⟨result, hread⟩
  · -- the error exits keep the keys
    rw [hread]
    simp only [reduceCtorEq, exists_false, false_and, iff_false]
    intro hsingle
    have hgone := hsingle.dropped (.error e, s) (by simp [helloOutcomes, hread])
    exact hx25519 hgone.1
  · rw [← helloOutcomes_spent_returns_iff, hread]
    constructor
    · intro hsingle
      refine ⟨⟨result, rfl⟩, ?_⟩
      intro out hmem
      exact hsingle.returns out (by simp [helloOutcomes, hread, hmem])
    · rintro ⟨-, hreturns⟩
      refine ⟨?_, countP_helloOutcomes_le hx25519 hmlkem _, ?_⟩
      · intro out hmem
        rw [helloOutcomes, hread, List.mem_cons] at hmem
        rcases hmem with rfl | hmem
        · simp
        · exact hreturns out hmem
      · intro out hmem
        rw [helloOutcomes, hread, List.mem_cons] at hmem
        rcases hmem with rfl | hmem
        · exact ⟨rfl, rfl⟩
        · rw [(helloOutcomes_spent s rest out hmem).1]
          exact ⟨rfl, rfl⟩

end Run

/-- No sequence of calls obtains keys twice.  The rest of what single use asks
for holds exactly if nothing is called, or the very first message passes the tests
and agrees with both private keys, and every later one is refused before a private
key is used. -/
theorem client_handshake_single_use_iff
    (P : Primitives) (uuid : Uuid) (cmd : Command) (addr : Address)
    (env : WriteHelloEnv P) (s : ClientHandshakeState P)
    (hwrite : (writeClientHello P uuid cmd addr env).1 = .ok s)
    (calls : List HelloCall) :
    (helloOutcomes P s calls).countP (fun out => out.1.isOk) ≤ 1 ∧
      (SingleUse P s calls ↔
        calls = [] ∨
          ∃ first rest, calls = first :: rest ∧
            s.AgreesKeys first ∧ ∀ call ∈ rest, ¬s.ReachesKeys call) := by
  obtain ⟨hx25519, hmlkem⟩ := writeClientHello_keys hwrite
  refine ⟨countP_helloOutcomes_le hx25519 hmlkem calls, ?_⟩
  cases calls with
  | nil =>
      refine iff_of_true ⟨?_, Nat.zero_le _, ?_⟩ (Or.inl rfl)
      · exact fun _ hmem => absurd hmem List.not_mem_nil
      · exact fun _ hmem => absurd hmem List.not_mem_nil
  | cons first rest =>
      rw [singleUse_cons_iff hx25519 hmlkem]
      simp

namespace Transparent

/-- A ServerHello for the client of `writeEnv`. -/
def answer : ServerHello where
  nonceEcho := clientState.nonce
  classicalPub := FixedBytes.copyFrom x25519PubLen []
  pqCipher := FixedBytes.copyFrom mlkem768CipherL []
  serverTime := 1000
  status := 0

def answerCall : HelloCall := ⟨encodeServerHello suite answer user, 1000⟩

theorem clientState_written :
    (writeClientHello suite user commandTCP (hello 1000).address writeEnv).1 =
      .ok clientState := by
  obtain ⟨wire, henc⟩ := hello_encodes 1000
  rw [writeClientHello_writeEnv henc]

theorem answerCall_ok :
    ∃ result, readServerHello suite clientState answerCall.msg answerCall.now =
      (.ok result, clientState.spent) :=
  readServerHello_clientState answer rfl rfl (by decide)

theorem answerCall_passes :
    clientState.Passes answerCall answer answer.classicalPub :=
  ⟨decodeServerHello_encode suite answer user, rfl, rfl, by decide, rfl⟩

end Transparent

open Transparent in
theorem client_handshake_single_use_answered :
    (writeClientHello suite user commandTCP (hello 1000).address writeEnv).1 =
        .ok clientState ∧
      SingleUse suite clientState [answerCall] := by
  have hagrees : clientState.AgreesKeys answerCall :=
    ⟨answer, _, answerCall_passes, ⟨_, _, rfl, rfl⟩, _, _, rfl, rfl⟩
  refine ⟨clientState_written, (client_handshake_single_use_iff suite user
    commandTCP (hello 1000).address writeEnv clientState clientState_written
    [answerCall]).2.mpr (Or.inr ⟨answerCall, [], rfl, hagrees, ?_⟩)⟩
  exact fun _ hmem => absurd hmem List.not_mem_nil

open Transparent in
/-- After an empty message the private keys are still in the state, and a valid
answer that is delivered twice makes the second call use a nil key. -/
theorem client_handshake_not_single_use :
    (writeClientHello suite user commandTCP (hello 1000).address writeEnv).1 =
        .ok clientState ∧
      (∃ e, helloOutcomes suite clientState [⟨[], 1000⟩] =
        [(.error e, clientState)]) ∧
      ¬clientState.KeysGone ∧ ¬SingleUse suite clientState [⟨[], 1000⟩] ∧
      (∃ result, helloOutcomes suite clientState [answerCall, answerCall] =
        [(.ok result, clientState.spent), (.panic, clientState.spent)]) ∧
      ¬SingleUse suite clientState [answerCall, answerCall] := by
  have hheld : ¬clientState.KeysGone := by
    rintro ⟨hgone, -⟩
    cases hgone
  have hempty : ∃ e, helloOutcomes suite clientState [⟨[], 1000⟩] =
      [(.error e, clientState)] := ⟨_, rfl⟩
  obtain ⟨result, hread⟩ := answerCall_ok
  have htwice : helloOutcomes suite clientState [answerCall, answerCall] =
      [(.ok result, clientState.spent), (.panic, clientState.spent)] := by
    simp only [helloOutcomes, hread,
      readServerHello_spent_of_reaches ⟨answer, _, answerCall_passes⟩]
  refine ⟨clientState_written, hempty, hheld, ?_, ⟨result, htwice⟩, ?_⟩
  · intro hsingle
    obtain ⟨e, hcalls⟩ := hempty
    exact hheld (hsingle.dropped (.error e, clientState) (by rw [hcalls]; simp))
  · intro hsingle
    exact hsingle.returns (.panic, clientState.spent) (by rw [htwice]; simp) rfl

end SingEwp
