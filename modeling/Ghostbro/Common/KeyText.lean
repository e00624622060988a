import Ghostbro.Common.SpaPacket
import Ghostbro.Foundation.Base64

/-!
# Keys as text

All keys are 32 bytes and are written in base64.  The decoders differ only in the error for a wrong
length, and a public key is also checked to be a point; each accepts exactly the text that the
encoder writes.  The Noise key of a client is derived from its signing key, so one secret is enough
for both.
-/

namespace Ghostbro.Keys

inductive KeyError
  | invalidBase64
  | invalidPublicKeyLength (length : ℕ)
  | invalidPrivateKeyLength (length : ℕ)
  | invalidNoisePublicKeyLength (length : ℕ)
  | invalidPublicKey
  deriving DecidableEq

/-- The text of an error. -/
def KeyError.message : KeyError → String
  | .invalidBase64 => "invalid base64 public key"
  | .invalidPublicKeyLength length => s!"Ed25519 public key must be 32 bytes, got {length}"
  | .invalidPrivateKeyLength length => s!"Ed25519 private key must be 32 bytes, got {length}"
  | .invalidNoisePublicKeyLength length => s!"Noise public key must be 32 bytes, got {length}"
  | .invalidPublicKey => "invalid Ed25519 public key"

variable (codec : Base64.Codec)

def encodePublicKey (publicKey : Octets 32) : String := codec.encode publicKey.toList

def encodeSigningKey (signingKey : Octets 32) : String := codec.encode signingKey.toList

def encodeNoisePublicKey (publicKey : Octets 32) : String := codec.encode publicKey.toList

/-- What the decoders share. -/
def decodeKey (wrongLength : ℕ → KeyError) (encoded : String) : Except KeyError (Octets 32) :=
  match codec.decode encoded with
  | none => .error .invalidBase64
  | some bytes =>
    if bytes.length ≠ 32 then .error (wrongLength bytes.length) else .ok (readArray 32 bytes 0)

def decodeNoisePublicKey : String → Except KeyError (Octets 32) :=
  decodeKey codec .invalidNoisePublicKeyLength

def decodeSigningKey : String → Except KeyError (Octets 32) :=
  decodeKey codec .invalidPrivateKeyLength

/-- `isPoint` is the check of `VerifyingKey::from_bytes`. -/
def decodePublicKey (isPoint : Octets 32 → Bool) (encoded : String) :
    Except KeyError (Octets 32) :=
  match decodeKey codec .invalidPublicKeyLength encoded with
  | .error error => .error error
  | .ok bytes => if isPoint bytes then .ok bytes else .error .invalidPublicKey

variable {codec}

theorem decodeKey_eq_ok_iff {wrongLength : ℕ → KeyError} {encoded : String} {key : Octets 32} :
    decodeKey codec wrongLength encoded = .ok key ↔ encoded = codec.encode key.toList := by
  rw [← codec.decode_eq_some_iff, decodeKey]
  cases codec.decode encoded with
  | none => simp
  | some bytes =>
    rw [Option.some_inj]
    by_cases hlength : bytes.length = 32
    · simp only [hlength, ne_eq, not_true_eq_false, if_false, Except.ok.injEq]
      constructor
      · rintro rfl
        rw [toList_readArray (by omega), List.drop_zero, List.take_of_length_le (by omega)]
      · rintro rfl
        exact readArray_toList key
    · simp only [hlength, ne_eq, not_false_eq_true, if_true, reduceCtorEq, false_iff]
      rintro rfl
      exact hlength (by simp)

theorem decodeSigningKey_eq_ok_iff {encoded : String} {key : Octets 32} :
    decodeSigningKey codec encoded = .ok key ↔ encoded = encodeSigningKey codec key :=
  decodeKey_eq_ok_iff

theorem decodeNoisePublicKey_eq_ok_iff {encoded : String} {key : Octets 32} :
    decodeNoisePublicKey codec encoded = .ok key ↔ encoded = encodeNoisePublicKey codec key :=
  decodeKey_eq_ok_iff

theorem decodePublicKey_eq_ok_iff {isPoint : Octets 32 → Bool} {encoded : String}
    {key : Octets 32} :
    decodePublicKey codec isPoint encoded = .ok key ↔
      encoded = encodePublicKey codec key ∧ isPoint key = true := by
  rw [encodePublicKey, ← @decodeKey_eq_ok_iff codec .invalidPublicKeyLength, decodePublicKey]
  cases decodeKey codec .invalidPublicKeyLength encoded with
  | error error => simp
  | ok bytes =>
    by_cases hpoint : isPoint bytes = true
    · simp only [hpoint, if_true, Except.ok.injEq]
      constructor
      · rintro rfl
        exact ⟨rfl, hpoint⟩
      · exact And.left
    · simp only [hpoint, if_false, reduceCtorEq, Except.ok.injEq, false_iff]
      rintro ⟨rfl, hkey⟩
      exact hpoint hkey

/-! ### The Noise key of a client -/

def noiseStaticLabel : Bytes := "ghostbro client noise static v1".toByteArray.data.toList

def deriveNoiseStaticPrivateKey (crypto : Crypto) (signingKey : Octets 32) : Octets 32 :=
  crypto.sha256 (noiseStaticLabel ++ signingKey.toList)

def deriveNoiseStaticPublicKey (crypto : Crypto) (signingKey : Octets 32) : Octets 32 :=
  crypto.x25519Public (deriveNoiseStaticPrivateKey crypto signingKey)

end Ghostbro.Keys
