import SingEwp.Runtime

/-!
# Protocol constants and errors

The numeric constants of `kdf.go`, `frame.go`, `address.go`, `anti_replay.go` and
`padding_policy.go`, and the error values the package returns.  Sentinel errors
carry the source's name without its `Err`; an error built by `fmt.Errorf` keeps
the operation it reports and its cause.
-/

namespace SingEwp

/-! ## Sizes -/

@[simp] abbrev aeadKeyLen : ℕ := 32
@[simp] abbrev aeadNonceLen : ℕ := 12
@[simp] abbrev noncePrefixLen : ℕ := 4
@[simp] abbrev handshakeNonce : ℕ := 12
@[simp] abbrev x25519PubLen : ℕ := 32
@[simp] abbrev mlkem768PubLen : ℕ := 1184
@[simp] abbrev mlkem768CipherL : ℕ := 1088
@[simp] abbrev outerMACLen : ℕ := 16
@[simp] abbrev minHandshakePad : ℕ := 64
@[simp] abbrev maxHandshakePad : ℕ := 1024
@[simp] abbrev maxFramePad : ℕ := 4096
@[simp] abbrev maxFrameSize : ℕ := 65536
@[simp] abbrev maxMetaLen : ℕ := 1024
@[simp] abbrev uuidLen : ℕ := 16
@[simp] abbrev maxDomainLen : ℕ := 253

/-- The overhead of ChaCha20-Poly1305, `aeadTagLen` and
`chacha20poly1305Overhead` of the source. -/
@[simp] abbrev aeadTagLen : ℕ := 16

/-- `FrameLen(4) || Counter(8) || FrameType(1) || MetaLen(2) || PadLen(2)`. -/
@[simp] abbrev frameHeaderSize : ℕ := 4 + 8 + 1 + 2 + 2

/-! ## Times, in seconds -/

@[simp] abbrev handshakeTimestampWindow : ℤ := 120

abbrev Uuid := FixedBytes uuidLen
abbrev HelloNonce := FixedBytes handshakeNonce
abbrev GlobalID := FixedBytes 8
abbrev AeadKey := FixedBytes aeadKeyLen

/-! ## Errors -/

inductive EwpError where
  | io (cause : IoError)
  | external (code : ℕ)
  -- address.go
  | addrTooShort
  | addrType
  | domainLen
  | invalidAddress
  -- frame.go
  | frameTooLarge
  | frameTooShort
  | frameType
  | metaTooLarge
  | padTooLarge
  | aeadOpen
  | counterMismatch
  | padRand
  -- handshake.go and anti_replay.go
  | handshakeShort
  | handshakeLong
  | outerMAC
  | aeadHandshake
  | timestamp
  | uuidMismatch
  | command
  | serverStatus (status : UInt8)
  | unknownUUID
  | plaintextLayout
  | plaintextAddress (cause : EwpError)
  | replay
  | x25519Keygen
  | mlkemKeygen
  | nonceRand
  | mlkemPubSize (size : ℕ)
  | mlkemCipherSize (size : ℕ)
  | sendClientHello (cause : EwpError)
  | parseX25519Pub
  | x25519ECDH
  | parseMlkemPub
  | mlkemDecapsulate
  -- securestream.go
  | encodeFrame (frameType : UInt8) (cause : EwpError)
  | transportSend (cause : EwpError)
  | decodeFrame (cause : EwpError)
  | udpMetaTooShort
  | parseUDPMeta (cause : EwpError)
  | udpEndMetaTooShort
  -- client.go, packetconn.go and server.go
  | unexpectedFrame (frameType : UInt8)
  | readUDPNew (cause : EwpError)
  | expectedUDPNew (frameType : UInt8)
  | noUsersConfigured
  | readClientHello (cause : EwpError)
  | acceptClientHello (cause : EwpError)
  | sendServerHello (cause : EwpError)
  | unsupportedCommand (command : UInt8)
  | writeClientHello (cause : EwpError)
  | readServerHello (cause : EwpError)
  | processServerHello (cause : EwpError)
  deriving DecidableEq, Repr

end SingEwp
