import Ghostbro.Common.Keys

/-!
# Sealed SPA packets

The cryptographic primitives come from third-party crates and are parameters, collected in
`Crypto`.  Everything else follows the source byte for byte: the anonymous sealed box of
`seal.rs`, and the record of `spa.rs` with its version prefix, flag byte, big-endian words and
signature.  `Crypto.transparent` is an instance that computes, for concrete packets.
-/

namespace Ghostbro

/-- The primitives of the `x25519-dalek`, `sha2`, `chacha20poly1305` and `ed25519-dalek` crates. -/
structure Crypto where
  /-- `PublicKey::from(&StaticSecret)`. -/
  x25519Public : Octets 32 → Octets 32
  /-- `StaticSecret::diffie_hellman`, secret first. -/
  diffieHellman : Octets 32 → Octets 32 → Octets 32
  sha256 : Bytes → Octets 32
  /-- `encrypt` under key, nonce and associated data. -/
  aeadEncrypt : Octets 32 → Octets 12 → Bytes → Bytes → Bytes
  /-- `decrypt` under key, nonce and associated data. -/
  aeadDecrypt : Octets 32 → Octets 12 → Bytes → Bytes → Option Bytes
  /-- `SigningKey::verifying_key`. -/
  verifyingKey : Octets 32 → Octets 32
  ed25519Sign : Octets 32 → Bytes → Octets 64
  ed25519Verify : Octets 32 → Bytes → Octets 64 → Bool

/-- An instance without secrecy: sealing appends a zero tag, agreement is bitwise exclusive or,
and a signature repeats the key and the first half of the message. -/
def Crypto.transparent : Crypto where
  x25519Public secret := secret
  diffieHellman secret peer := Vector.zipWith (· ^^^ ·) secret peer
  sha256 bytes := readArray 32 bytes 0
  aeadEncrypt _ _ _ message := message ++ List.replicate 16 0
  aeadDecrypt _ _ _ ciphertext :=
    let length := ciphertext.length - 16
    if ciphertext.drop length = List.replicate 16 0 then some (ciphertext.take length) else none
  verifyingKey secret := secret
  ed25519Sign secret message := readArray 64 (secret.toList ++ message.take 32) 0
  ed25519Verify key message signature :=
    decide (signature = readArray 64 (key.toList ++ message.take 32) 0)

/-! ### Wire constants -/

def versionPrefix : Bytes := [0x47, 0x50]

def spaInnerSignedLen : ℕ := 2 + 1 + 8 + 8 + 8 + 4

def spaInnerLen : ℕ := spaInnerSignedLen + 64

def spaEphemeralLen : ℕ := 32

def spaAeadTagLen : ℕ := 16

def spaSealedCoreLen : ℕ := spaEphemeralLen + spaInnerLen + spaAeadTagLen

def spaMinLen : ℕ := spaSealedCoreLen

def spaMaxLen : ℕ := 176

def spaFlagHttps : UInt8 := 0b0000_0001

def spaFlagUsePacketSource : UInt8 := 0b0000_0010

def spaReservedFlags : UInt8 := ~~~(spaFlagHttps ||| spaFlagUsePacketSource)

namespace Seal

variable (crypto : Crypto)

def keyLabel : Bytes := "ghostbro-spa-seal-key-v1".toByteArray.data.toList

def nonceLabel : Bytes := "ghostbro-spa-seal-nonce-v1".toByteArray.data.toList

/-- `derive_key_nonce`. -/
def deriveKeyNonce (shared ephemeralPub serverPub : Octets 32) : Octets 32 × Octets 12 :=
  let key := crypto.sha256
    (keyLabel ++ shared.toList ++ ephemeralPub.toList ++ serverPub.toList)
  let nonce := crypto.sha256 (nonceLabel ++ ephemeralPub.toList ++ serverPub.toList)
  (key, readArray 12 nonce.toList 0)

/-- `seal_with_ephemeral`: ephemeral public key, ciphertext and tag. -/
def sealWithEphemeral (plaintext : Bytes) (serverPub ephemeralSecret : Octets 32) : Bytes :=
  let ephemeralPub := crypto.x25519Public ephemeralSecret
  let shared := crypto.diffieHellman ephemeralSecret serverPub
  let keyNonce := deriveKeyNonce crypto shared ephemeralPub serverPub
  ephemeralPub.toList ++
    crypto.aeadEncrypt keyNonce.1 keyNonce.2 ephemeralPub.toList plaintext

/-- `Opened`. -/
structure Opened where
  plaintext : Bytes
  ephemeralPub : Octets 32

/-- `seal::open` on a sealed core with the padding stripped. -/
def openCore (sealedCore : Bytes) (serverPrivate : Octets 32) : Option Opened :=
  if sealedCore.length < spaEphemeralLen + spaAeadTagLen then none
  else
    let ephemeralPub := readArray 32 sealedCore 0
    let ciphertext := sealedCore.drop spaEphemeralLen
    let serverPub := crypto.x25519Public serverPrivate
    let shared := crypto.diffieHellman serverPrivate ephemeralPub
    let keyNonce := deriveKeyNonce crypto shared ephemeralPub serverPub
    (crypto.aeadDecrypt keyNonce.1 keyNonce.2 ephemeralPub.toList ciphertext).map
      fun plaintext ↦ ⟨plaintext, ephemeralPub⟩

end Seal

/-- `SpaMode`. -/
inductive SpaMode
  | udp
  | https
  deriving DecidableEq, Repr

/-- `SpaMode::flag_bit`. -/
def SpaMode.flagBit : SpaMode → UInt8
  | .udp => 0
  | .https => spaFlagHttps

/-- `SpaMode::from_flags`. -/
def SpaMode.fromFlags (flags : UInt8) : SpaMode :=
  if flags &&& spaFlagHttps = 0 then .udp else .https

/-- `SpaAllowIp`. -/
inductive SpaAllowIp
  | explicit (ip : Ipv4Addr)
  | packetSource
  deriving DecidableEq

/-- `SpaAllowIp::flag_bit`. -/
def SpaAllowIp.flagBit : SpaAllowIp → UInt8
  | .explicit _ => 0
  | .packetSource => spaFlagUsePacketSource

/-- `SpaAllowIp::ip_bytes`. -/
def SpaAllowIp.ipBytes : SpaAllowIp → Octets 4
  | .explicit ip => ip
  | .packetSource => Vector.replicate 4 0

/-- `SpaPacket`: the opened record with the ephemeral key recovered from the wire. -/
structure SpaPacket where
  mode : SpaMode
  usePacketSource : Bool
  keyId : KeyId
  timestampMs : UInt64
  counter : UInt64
  allowIp : Ipv4Addr
  signature : Octets 64
  ephemeralPub : Octets 32
  deriving DecidableEq

/-- `SpaError`. -/
inductive SpaError
  | invalidLength (length : ℕ)
  | sealOpenFailed
  | invalidVersion
  | invalidFlags (flags : UInt8)
  | badSignature
  deriving DecidableEq

namespace SpaPacket

variable (crypto : Crypto)

/-- `key_id_for_public_key`. -/
def keyIdForPublicKey (publicKey : Octets 32) : KeyId :=
  readArray 8 (crypto.sha256 publicKey.toList).toList 0

/-- `signed_message`. -/
def signedMessage (signedRegion : Bytes) (ephemeralPub serverStaticPubkey : Octets 32) : Bytes :=
  signedRegion ++ ephemeralPub.toList ++ serverStaticPubkey.toList

/-- The signed region as `build_with_padding` and `verify` both lay it out. -/
def signedRegion (flags : UInt8) (keyId : KeyId) (timestampMs counter : UInt64)
    (allowIp : Octets 4) : Bytes :=
  versionPrefix ++ [flags] ++ keyId.toList ++ (u64ToBe timestampMs).toList ++
    (u64ToBe counter).toList ++ allowIp.toList

/-- `SpaPacket::build_with_padding`, with the ephemeral secret it draws as an argument. -/
def buildWithPadding (signingKey : Octets 32) (mode : SpaMode) (timestampMs counter : UInt64)
    (allowIp : SpaAllowIp) (padding : Bytes) (serverStaticPubkey ephemeralSecret : Octets 32) :
    Bytes :=
  let keyId := keyIdForPublicKey crypto (crypto.verifyingKey signingKey)
  let flags := mode.flagBit ||| allowIp.flagBit
  let region := signedRegion flags keyId timestampMs counter allowIp.ipBytes
  let ephemeralPub := crypto.x25519Public ephemeralSecret
  let signature := crypto.ed25519Sign signingKey
    (signedMessage region ephemeralPub serverStaticPubkey)
  let inner := region ++ signature.toList
  Seal.sealWithEphemeral crypto inner serverStaticPubkey ephemeralSecret ++ padding

/-- The record of a decrypted payload whose length and version have been checked. -/
def parseInner (inner : Bytes) (ephemeralPub : Octets 32) : SpaPacket :=
  let flags := inner.getD 2 0
  { mode := SpaMode.fromFlags flags
    usePacketSource := decide (flags &&& spaFlagUsePacketSource ≠ 0)
    keyId := readArray 8 inner 3
    timestampMs := u64OfBe (readArray 8 inner 11)
    counter := u64OfBe (readArray 8 inner 19)
    allowIp := readArray 4 inner 27
    signature := readArray 64 inner 31
    ephemeralPub := ephemeralPub }

/-- `SpaPacket::open`. -/
def openWire (wire : Bytes) (serverStaticPrivate : Octets 32) : Except SpaError SpaPacket :=
  if ¬(spaMinLen ≤ wire.length ∧ wire.length ≤ spaMaxLen) then
    .error (.invalidLength wire.length)
  else
    match Seal.openCore crypto (wire.take spaSealedCoreLen) serverStaticPrivate with
    | none => .error .sealOpenFailed
    | some opened =>
      if opened.plaintext.length ≠ spaInnerLen then .error .sealOpenFailed
      else if opened.plaintext.take 2 ≠ versionPrefix then .error .invalidVersion
      else if opened.plaintext.getD 2 0 &&& spaReservedFlags ≠ 0 then
        .error (.invalidFlags (opened.plaintext.getD 2 0))
      else .ok (parseInner opened.plaintext opened.ephemeralPub)

/-- `SpaPacket::flags_byte`. -/
def flagsByte (packet : SpaPacket) : UInt8 :=
  packet.mode.flagBit ||| (if packet.usePacketSource then spaFlagUsePacketSource else 0)

/-- The message whose signature `SpaPacket::verify` checks. -/
def checkedMessage (packet : SpaPacket) (serverStaticPubkey : Octets 32) : Bytes :=
  signedMessage (signedRegion packet.flagsByte packet.keyId packet.timestampMs packet.counter
    packet.allowIp) packet.ephemeralPub serverStaticPubkey

/-- `SpaPacket::verify`. -/
def verify (packet : SpaPacket) (verifyingKey serverStaticPubkey : Octets 32) :
    Except SpaError Unit :=
  if crypto.ed25519Verify verifyingKey (packet.checkedMessage serverStaticPubkey)
      packet.signature then .ok ()
  else .error .badSignature

/-- A packet built for a server opens and verifies there. -/
example :
    let key : Octets 32 := Vector.replicate 32 5
    let server : Octets 32 := Vector.replicate 32 9
    let wire := buildWithPadding Crypto.transparent key .udp 1000 7
      (.explicit #v[203, 0, 113, 7]) [1, 2] server (Vector.replicate 32 3)
    ((openWire Crypto.transparent wire server).toOption.map fun packet ↦
      (packet.counter, packet.allowIp,
        (verify Crypto.transparent packet key server).toOption)) =
      some (7, #v[203, 0, 113, 7], some ()) := by
  decide +kernel

end SpaPacket

end Ghostbro
