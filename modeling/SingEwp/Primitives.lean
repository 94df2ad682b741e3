import SingEwp.Protocol

/-!
# Cryptographic primitives and the key schedule

The code imports its primitives (`crypto/sha256`, `crypto/hmac`, `crypto/ecdh`,
`crypto/mlkem` and, from `golang.org/x/crypto`, `hkdf` and `chacha20poly1305`).
They are the parameter `Primitives` of the whole development.  Its fields are
the operations the code calls and the laws it relies on for correctness: the
length of a sealed message, opening what was sealed, the symmetry of the
Diffie-Hellman agreement, and decapsulation of what was encapsulated.  No
secrecy or unforgeability is assumed here; statements that need it say so.

The second half is `kdf.go`.
-/

namespace SingEwp

structure Primitives where
  sha256 : Bytes → FixedBytes 32
  /-- Arguments: key and message. -/
  hmacSHA256 : Bytes → Bytes → FixedBytes 32
  /-- Arguments: secret and salt. -/
  hkdfExtract : Bytes → Bytes → Bytes
  /-- Arguments: pseudorandom key and info. -/
  hkdfExpand : Bytes → Bytes → (n : ℕ) → FixedBytes n
  /-- Arguments: key, nonce, plaintext and additional data. -/
  aeadSeal : AeadKey → FixedBytes aeadNonceLen → Bytes → Bytes → Bytes
  /-- Arguments: key, nonce, ciphertext and additional data. -/
  aeadOpen : AeadKey → FixedBytes aeadNonceLen → Bytes → Bytes → Option Bytes
  aeadSeal_length : ∀ key nonce plain aad,
    (aeadSeal key nonce plain aad).length = plain.length + aeadTagLen
  aeadOpen_aeadSeal : ∀ key nonce plain aad,
    aeadOpen key nonce (aeadSeal key nonce plain aad) aad = some plain
  X25519Priv : Type
  X25519Pub : Type
  x25519PublicBytes : X25519Priv → FixedBytes x25519PubLen
  x25519NewPublicKey : FixedBytes x25519PubLen → Option X25519Pub
  x25519ECDH : X25519Priv → X25519Pub → Option Bytes
  x25519ECDH_comm : ∀ a b pubA pubB,
    x25519NewPublicKey (x25519PublicBytes a) = some pubA →
    x25519NewPublicKey (x25519PublicBytes b) = some pubB →
      x25519ECDH a pubB = x25519ECDH b pubA
  MlkemPriv : Type
  MlkemPub : Type
  MlkemSeed : Type
  mlkemPublicBytes : MlkemPriv → Bytes
  mlkemNewEncapsulationKey : FixedBytes mlkem768PubLen → Option MlkemPub
  /-- The shared secret and the ciphertext. -/
  mlkemEncapsulate : MlkemPub → MlkemSeed → Bytes × Bytes
  mlkemDecapsulate : MlkemPriv → FixedBytes mlkem768CipherL → Option Bytes
  mlkemDecapsulate_encapsulate : ∀ priv pub seed,
    mlkemNewEncapsulationKey
        (FixedBytes.copyFrom mlkem768PubLen (mlkemPublicBytes priv)) =
      some pub →
    mlkemDecapsulate priv
        (FixedBytes.copyFrom mlkem768CipherL (mlkemEncapsulate pub seed).2) =
      some (mlkemEncapsulate pub seed).1

attribute [simp] Primitives.aeadSeal_length Primitives.aeadOpen_aeadSeal

/-- The cipher opens a message to `plain` exactly when it is the seal of
`plain`. -/
def Primitives.OpensOnlySeals (P : Primitives) : Prop :=
  ∀ key nonce cipher aad plain,
    P.aeadOpen key nonce cipher aad = some plain ↔
      cipher = P.aeadSeal key nonce plain aad

/-- Opening removes exactly the tag. -/
def Primitives.OpensToLength (P : Primitives) : Prop :=
  ∀ key nonce cipher aad plain,
    P.aeadOpen key nonce cipher aad = some plain →
      cipher.length = plain.length + aeadTagLen

theorem Primitives.OpensOnlySeals.opensToLength
    {P : Primitives} (hseals : P.OpensOnlySeals) : P.OpensToLength := by
  intro key nonce cipher aad plain hopen
  rw [(hseals key nonce cipher aad plain).mp hopen, P.aeadSeal_length]

/-! ## The key schedule -/

def ascii (s : String) : Bytes := s.toUTF8.toList

section KeySchedule

variable (P : Primitives)

def uuidPSK (uuid : Uuid) : FixedBytes 32 := P.sha256 uuid.val

def handshakeAEADKey (uuid : Uuid) (nonce : HelloNonce) : AeadKey :=
  P.hkdfExpand (P.hkdfExtract (uuidPSK P uuid).val nonce.val)
    (ascii "EWPv2 handshake aead") aeadKeyLen

def outerMAC (uuid : Uuid) (msg : Bytes) : FixedBytes outerMACLen :=
  FixedBytes.copyFrom outerMACLen
    (slice (P.hmacSHA256 (uuidPSK P uuid).val msg).val 0 outerMACLen)

def verifyOuterMAC (uuid : Uuid) (msg : Bytes)
    (tag : FixedBytes outerMACLen) : Bool :=
  outerMAC P uuid msg = tag

structure SessionKeys where
  c2sKey : AeadKey
  s2cKey : AeadKey
  c2sNonce : FixedBytes noncePrefixLen
  s2cNonce : FixedBytes noncePrefixLen
  deriving DecidableEq

def deriveSessionKeys (x25519Shared : FixedBytes x25519PubLen)
    (mlkemShared : Bytes) (clientNonce serverNonceEcho : HelloNonce) :
    SessionKeys :=
  let ikm := x25519Shared.val ++ mlkemShared
  let salt := ascii "EWPv2-salt" ++ clientNonce.val ++ serverNonceEcho.val
  let prk := P.hkdfExtract ikm salt
  { c2sKey := P.hkdfExpand prk (ascii "EWPv2 c2s key") aeadKeyLen
    s2cKey := P.hkdfExpand prk (ascii "EWPv2 s2c key") aeadKeyLen
    c2sNonce := P.hkdfExpand prk (ascii "EWPv2 c2s nonce") noncePrefixLen
    s2cNonce := P.hkdfExpand prk (ascii "EWPv2 s2c nonce") noncePrefixLen }

end KeySchedule

/-! ## A transparent suite

Concrete operations that satisfy every law without hiding anything.  They show
that the laws are consistent and carry the concrete runs of later files: a tag
spells out the nonce and the two lengths it authenticates, an outer MAC spells
out the user, and the key agreements add and copy. -/

namespace Transparent

def tag (nonce : FixedBytes aeadNonceLen) (plain aad : Bytes) : Bytes :=
  nonce.val ++ (putBE 2 plain.length ++ putBE 2 aad.length)

def aeadOpen (nonce : FixedBytes aeadNonceLen) (cipher aad : Bytes) :
    Option Bytes :=
  let plain := cipher.take (cipher.length - aeadTagLen)
  if cipher = plain ++ tag nonce plain aad then some plain else none

theorem tag_length (nonce : FixedBytes aeadNonceLen) (plain aad : Bytes) :
    (tag nonce plain aad).length = aeadTagLen := by
  simp [tag, nonce.property]

theorem aeadOpen_append_tag
    (nonce : FixedBytes aeadNonceLen) (plain aad : Bytes) :
    aeadOpen nonce (plain ++ tag nonce plain aad) aad = some plain := by
  have htake : (plain ++ tag nonce plain aad).take
      ((plain ++ tag nonce plain aad).length - aeadTagLen) = plain := by
    rw [List.length_append, tag_length, Nat.add_sub_cancel, List.take_left]
  simp only [aeadOpen, htake, if_true]

def suite : Primitives where
  sha256 := FixedBytes.copyFrom 32
  hmacSHA256 := fun key _ => FixedBytes.copyFrom 32 key
  hkdfExtract := fun secret salt => secret ++ salt
  hkdfExpand := fun prk info n => FixedBytes.copyFrom n (info ++ prk)
  aeadSeal := fun _ nonce plain aad => plain ++ tag nonce plain aad
  aeadOpen := fun _ nonce cipher aad => aeadOpen nonce cipher aad
  aeadSeal_length := by
    intro _ nonce plain aad
    rw [List.length_append, tag_length]
  aeadOpen_aeadSeal := fun _ nonce plain aad =>
    aeadOpen_append_tag nonce plain aad
  X25519Priv := FixedBytes x25519PubLen
  X25519Pub := FixedBytes x25519PubLen
  x25519PublicBytes := id
  x25519NewPublicKey := some
  x25519ECDH := fun priv pub => some (List.zipWith (· + ·) priv.val pub.val)
  x25519ECDH_comm := by
    intro a b pubA pubB hA hB
    simp only [id_eq, Option.some.injEq] at hA hB
    subst hA hB
    rw [List.zipWith_comm]
    simp only [UInt8.add_comm]
  MlkemPriv := FixedBytes mlkem768PubLen
  MlkemPub := FixedBytes mlkem768PubLen
  MlkemSeed := FixedBytes 32
  mlkemPublicBytes := Subtype.val
  mlkemNewEncapsulationKey := some
  mlkemEncapsulate := fun _ seed =>
    (seed.val, (FixedBytes.copyFrom mlkem768CipherL seed.val).val)
  mlkemDecapsulate := fun _ cipher => some (cipher.val.take 32)
  mlkemDecapsulate_encapsulate := by
    intro _ _ seed _
    have hseed := seed.property
    rw [FixedBytes.copyFrom_val]
    have hmin : min 32 mlkem768CipherL = 32 := rfl
    simp only [FixedBytes.copyFrom, List.take_take, hmin, Option.some.injEq]
    rw [List.take_append_of_le_length hseed.ge, List.take_of_length_le hseed.le]

theorem opensOnlySeals : suite.OpensOnlySeals := by
  intro key nonce cipher aad plain
  constructor
  · intro hopen
    simp only [suite, aeadOpen] at hopen ⊢
    split at hopen
    · rename_i hcipher
      rw [← Option.some.inj hopen]
      exact hcipher
    · simp at hopen
  · intro hcipher
    rw [hcipher, suite.aeadOpen_aeadSeal]

end Transparent

end SingEwp
