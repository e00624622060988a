import Ghostbro.Foundation.Words

/-!
# Key identifiers and addresses

A client is named by the first eight bytes of the SHA-256 digest of its Ed25519 public key.  The
counter file and the relay spool carry that name as sixteen lower-case hexadecimal digits.  The
parser accepts what `u8::from_str_radix` accepts for each pair of bytes, which is more than the
writer produces; on written names it is an exact inverse.
-/

namespace Ghostbro

/-- `KeyId`. -/
abbrev KeyId := Octets 8

/-- An IPv4 address by its four octets. -/
abbrev Ipv4Addr := Octets 4

/-- `Ipv4Addr::from(u32)`. -/
def Ipv4Addr.ofU32 (word : UInt32) : Ipv4Addr := u32ToBe word

/-- `u32::from_be_bytes(ip.octets())`. -/
def Ipv4Addr.toU32 (ip : Ipv4Addr) : UInt32 := u32OfBe ip

@[simp]
theorem Ipv4Addr.ofU32_toU32 (ip : Ipv4Addr) : ofU32 (toU32 ip) = ip := u32ToBe_u32OfBe ip

namespace Keys

/-- The two digits of `format!("{byte:02x}")`. -/
def hexByte (byte : UInt8) : List Char :=
  [Nat.digitChar (byte.toNat / 16), Nat.digitChar (byte.toNat % 16)]

/-- `key_id_hex`. -/
def keyIdHex (keyId : KeyId) : String := String.ofList (keyId.toList.flatMap hexByte)

/-- `char::to_digit(16)` on one byte. -/
def hexDigit (byte : UInt8) : Option ℕ :=
  if 48 ≤ byte ∧ byte ≤ 57 then some (byte.toNat - 48)
  else if 97 ≤ byte ∧ byte ≤ 102 then some (byte.toNat - 87)
  else if 65 ≤ byte ∧ byte ≤ 70 then some (byte.toNat - 55)
  else none

/-- Positional value of a digit string, most significant digit first. -/
def hexDigits (bytes : Bytes) : Option ℕ :=
  bytes.foldlM (fun value byte ↦ (hexDigit byte).map fun digit ↦ value * 16 + digit) 0

/-- `u8::from_str_radix(chunk, 16)`: an optional plus sign, then at least one digit. -/
def u8FromStrRadix16 (chunk : Bytes) : Option UInt8 :=
  let digits := if chunk.length ≥ 2 ∧ chunk.head? = some 43 then chunk.tail else chunk
  if digits = [] then none
  else (hexDigits digits).bind fun value ↦ if value < 256 then some (UInt8.ofNat value) else none

/-- `chunks_exact(2)`. -/
def chunksExact2 : Bytes → List Bytes
  | first :: second :: rest => [first, second] :: chunksExact2 rest
  | _ => []

/-- `key_id_from_hex`.  `from_utf8` fails only on bytes that are no digit either, so its failure
and that of the digit parser are one `None`. -/
def keyIdFromHex (hex : String) : Option KeyId :=
  let bytes := hex.toByteArray.data.toList
  if bytes.length ≠ 16 then none
  else ((chunksExact2 bytes).mapM u8FromStrRadix16).map fun parsed ↦ readArray 8 parsed 0

/-! ### Written names parse back -/

theorem utf8EncodeChar_digitChar (digit : ℕ) (h : digit < 16) :
    String.utf8EncodeChar (Nat.digitChar digit) = [UInt8.ofNat (Nat.digitChar digit).toNat] := by
  have hall : ∀ digit : Fin 16, String.utf8EncodeChar (Nat.digitChar digit) =
      [UInt8.ofNat (Nat.digitChar digit).toNat] := by decide
  exact hall ⟨digit, h⟩

/-- The bytes `format!` writes for one byte of a key identifier. -/
def hexPair (byte : UInt8) : Bytes :=
  [UInt8.ofNat (Nat.digitChar (byte.toNat / 16)).toNat,
    UInt8.ofNat (Nat.digitChar (byte.toNat % 16)).toNat]

theorem utf8_hexByte (byte : UInt8) :
    (hexByte byte).flatMap String.utf8EncodeChar = hexPair byte := by
  have hbyte := byte.toNat_lt
  simp only [hexByte, hexPair, List.flatMap_cons, List.flatMap_nil]
  rw [utf8EncodeChar_digitChar _ (by omega), utf8EncodeChar_digitChar _ (by omega)]
  rfl

theorem toList_keyIdHex (keyId : KeyId) :
    (keyIdHex keyId).toByteArray.data.toList = keyId.toList.flatMap hexPair := by
  rw [toList_toByteArray, keyIdHex, String.toList_ofList, List.flatMap_assoc]
  simp only [utf8_hexByte]

theorem chunksExact2_hexPairs (bytes : Bytes) :
    chunksExact2 (bytes.flatMap hexPair) = bytes.map hexPair := by
  induction bytes with
  | nil => rfl
  | cons byte rest ih =>
    simp only [List.flatMap_cons, List.map_cons]
    rw [← ih]
    rfl

theorem length_hexPairs (bytes : Bytes) : (bytes.flatMap hexPair).length = 2 * bytes.length := by
  induction bytes with
  | nil => rfl
  | cons byte rest ih =>
    simp only [List.flatMap_cons, List.length_append, List.length_cons, ih, hexPair,
      List.length_nil]
    omega

theorem u8FromStrRadix16_hexPair (byte : UInt8) : u8FromStrRadix16 (hexPair byte) = some byte := by
  have hall : ∀ byte : Fin 256, u8FromStrRadix16 (hexPair (UInt8.ofNat byte)) =
      some (UInt8.ofNat byte) := by decide +kernel
  simpa using hall ⟨byte.toNat, byte.toNat_lt⟩

theorem mapM_hexPairs (bytes : Bytes) : (bytes.map hexPair).mapM u8FromStrRadix16 = some bytes := by
  induction bytes with
  | nil => rfl
  | cons byte rest ih => simp [List.mapM_cons, u8FromStrRadix16_hexPair, ih]

theorem readArray_toList {width : ℕ} (octets : Octets width) :
    readArray width octets.toList 0 = octets := by
  apply Vector.ext
  intro index hindex
  simp [readArray]

/-- `key_id_from_hex` undoes `key_id_hex`. -/
@[simp]
theorem keyIdFromHex_keyIdHex (keyId : KeyId) : keyIdFromHex (keyIdHex keyId) = some keyId := by
  have hlength : (keyId.toList.flatMap hexPair).length = 16 := by
    rw [length_hexPairs, Vector.length_toList]
  simp only [keyIdFromHex, toList_keyIdHex, hlength, chunksExact2_hexPairs, mapM_hexPairs]
  simp [readArray_toList]

theorem keyIdHex_injective : Function.Injective keyIdHex := by
  intro first second h
  have hparse := congrArg keyIdFromHex h
  simpa using hparse

end Keys

end Ghostbro
