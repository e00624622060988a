import Mathlib.Data.List.Induction
import Mathlib.Tactic.Ring

/-!
# Fixed-width words and byte strings

Byte strings are lists of octets and fixed arrays are vectors of octets.  Unsigned words are read
from and written to byte strings in big-endian order; both directions are inverse to each other on
strings of the right width.  Saturating arithmetic on 64-bit words is characterised by its value
as a natural number, which is all that bounds on saturated sums need.
-/

namespace Ghostbro

/-- A byte string of arbitrary length. -/
abbrev Bytes := List UInt8

/-- A fixed array of `width` octets. -/
abbrev Octets (width : ℕ) := Vector UInt8 width

/-- The bytes of a string are those of its characters. -/
theorem toList_toByteArray (text : String) :
    text.toByteArray.data.toList = text.toList.flatMap String.utf8EncodeChar := by
  conv_lhs => rw [← String.ofList_toList (s := text)]
  rw [String.toByteArray_ofList, List.utf8Encode, List.toList_data_toByteArray]

/-! ### Big-endian words -/

/-- The number a big-endian byte string denotes. -/
def beNat (bytes : Bytes) : ℕ := bytes.foldl (fun value byte ↦ value * 256 + byte.toNat) 0

/-- The last `width` base-256 digits of a number, most significant first. -/
def beBytes : ℕ → ℕ → Bytes
  | 0, _ => []
  | width + 1, value => beBytes width (value / 256) ++ [UInt8.ofNat value]

@[simp]
theorem beNat_nil : beNat [] = 0 := rfl

@[simp]
theorem beNat_concat (bytes : Bytes) (byte : UInt8) :
    beNat (bytes ++ [byte]) = beNat bytes * 256 + byte.toNat := by
  simp [beNat]

@[simp]
theorem length_beBytes (width value : ℕ) : (beBytes width value).length = width := by
  induction width generalizing value with
  | zero => rfl
  | succ width ih => simp [beBytes, ih]

theorem beNat_lt (bytes : Bytes) : beNat bytes < 256 ^ bytes.length := by
  induction bytes using List.reverseRecOn with
  | nil => simp
  | append_singleton bytes byte ih =>
    have hbyte := byte.toNat_lt
    rw [beNat_concat, List.length_append, List.length_singleton, Nat.pow_succ]
    omega

theorem beNat_beBytes (width value : ℕ) : beNat (beBytes width value) = value % 256 ^ width := by
  induction width generalizing value with
  | zero => simp [beBytes, Nat.mod_one]
  | succ width ih =>
    have hdigit : (UInt8.ofNat value).toNat = value % 256 := by simp
    rw [beBytes, beNat_concat, ih, hdigit, Nat.pow_succ, Nat.mul_comm (256 ^ width) 256,
      Nat.mod_mul]
    ring

theorem beBytes_beNat (bytes : Bytes) : beBytes bytes.length (beNat bytes) = bytes := by
  induction bytes using List.reverseRecOn with
  | nil => rfl
  | append_singleton bytes byte ih =>
    have hbyte := byte.toNat_lt
    have hquotient : (beNat bytes * 256 + byte.toNat) / 256 = beNat bytes := by omega
    have hdigit : UInt8.ofNat (beNat bytes * 256 + byte.toNat) = byte := by
      apply UInt8.toNat_inj.mp
      rw [UInt8.toNat_ofNat']
      omega
    rw [List.length_append, List.length_singleton, beBytes, beNat_concat, hquotient, hdigit, ih]

/-- The array of the last `width` base-256 digits. -/
def beOctets (width value : ℕ) : Octets width := ⟨⟨beBytes width value⟩, by simp⟩

@[simp]
theorem toList_beOctets (width value : ℕ) : (beOctets width value).toList = beBytes width value :=
  rfl

/-- `u32::from_be_bytes`. -/
def u32OfBe (octets : Octets 4) : UInt32 := UInt32.ofNat (beNat octets.toList)

/-- `u32::to_be_bytes`. -/
def u32ToBe (word : UInt32) : Octets 4 := beOctets 4 word.toNat

/-- `u64::from_be_bytes`. -/
def u64OfBe (octets : Octets 8) : UInt64 := UInt64.ofNat (beNat octets.toList)

/-- `u64::to_be_bytes`. -/
def u64ToBe (word : UInt64) : Octets 8 := beOctets 8 word.toNat

theorem u32ToBe_u32OfBe (octets : Octets 4) : u32ToBe (u32OfBe octets) = octets := by
  have hlt := beNat_lt octets.toList
  rw [Vector.length_toList] at hlt
  have hvalue : (u32OfBe octets).toNat = beNat octets.toList := by
    rw [u32OfBe, UInt32.toNat_ofNat']
    omega
  apply Vector.toList_inj.mp
  rw [u32ToBe, toList_beOctets, hvalue]
  simpa using beBytes_beNat octets.toList

theorem u64ToBe_u64OfBe (octets : Octets 8) : u64ToBe (u64OfBe octets) = octets := by
  have hlt := beNat_lt octets.toList
  rw [Vector.length_toList] at hlt
  have hvalue : (u64OfBe octets).toNat = beNat octets.toList := by
    rw [u64OfBe, UInt64.toNat_ofNat']
    omega
  apply Vector.toList_inj.mp
  rw [u64ToBe, toList_beOctets, hvalue]
  simpa using beBytes_beNat octets.toList

theorem u64OfBe_u64ToBe (word : UInt64) : u64OfBe (u64ToBe word) = word := by
  have hlt := word.toNat_lt
  apply UInt64.toNat_inj.mp
  rw [u64OfBe, u64ToBe, toList_beOctets, beNat_beBytes, UInt64.toNat_ofNat']
  omega

theorem u64ToBe_injective : Function.Injective u64ToBe :=
  Function.LeftInverse.injective u64OfBe_u64ToBe

/-! ### Slices -/

/-- The `width` octets from `offset` on; octets past the end of the string read as zero. -/
def readArray (width : ℕ) (bytes : Bytes) (offset : ℕ) : Octets width :=
  Vector.ofFn fun index ↦ bytes.getD (offset + index.val) 0

theorem toList_readArray {width offset : ℕ} {bytes : Bytes} (h : offset + width ≤ bytes.length) :
    (readArray width bytes offset).toList = (bytes.drop offset).take width := by
  apply List.ext_getElem
  · simp only [Vector.length_toList, List.length_take, List.length_drop]
    omega
  · intro index hindex _
    have hbound : offset + index < bytes.length := by
      rw [Vector.length_toList] at hindex
      omega
    simp [readArray, hbound]

/-- Reading the array after a stretch of the string extends the stretch by its width. -/
theorem take_append_readArray {width offset : ℕ} {bytes : Bytes}
    (h : offset + width ≤ bytes.length) :
    bytes.take offset ++ (readArray width bytes offset).toList = bytes.take (offset + width) := by
  rw [toList_readArray h, List.take_add]

/-- An array reads back from where it was written. -/
theorem readArray_of_eq_append {width offset : ℕ} {bytes : Bytes} {octets : Octets width}
    (before after : Bytes) (h : bytes = before ++ octets.toList ++ after)
    (hoffset : before.length = offset) : readArray width bytes offset = octets := by
  have hlength : offset + width ≤ bytes.length := by
    rw [h, List.length_append, List.length_append, Vector.length_toList]
    omega
  apply Vector.toList_inj.mp
  rw [toList_readArray hlength, h, List.append_assoc, List.drop_left' hoffset,
    List.take_left' octets.length_toList]

/-! ### Saturating arithmetic -/

/-- `u64::saturating_add`. -/
def saturatingAdd (a b : UInt64) : UInt64 := UInt64.ofNat (min (a.toNat + b.toNat) (2 ^ 64 - 1))

/-- `u64::saturating_mul`. -/
def saturatingMul (a b : UInt64) : UInt64 := UInt64.ofNat (min (a.toNat * b.toNat) (2 ^ 64 - 1))

/-- `u64::saturating_sub`. -/
def saturatingSub (a b : UInt64) : UInt64 := UInt64.ofNat (a.toNat - b.toNat)

/-- `u64::abs_diff`. -/
def absDiff (a b : UInt64) : UInt64 := if a < b then b - a else a - b

theorem toNat_saturatingAdd (a b : UInt64) :
    (saturatingAdd a b).toNat = min (a.toNat + b.toNat) (2 ^ 64 - 1) := by
  rw [saturatingAdd, UInt64.toNat_ofNat']
  omega

theorem toNat_saturatingMul (a b : UInt64) :
    (saturatingMul a b).toNat = min (a.toNat * b.toNat) (2 ^ 64 - 1) := by
  rw [saturatingMul, UInt64.toNat_ofNat']
  omega

theorem toNat_saturatingSub (a b : UInt64) : (saturatingSub a b).toNat = a.toNat - b.toNat := by
  have hlt := a.toNat_lt
  rw [saturatingSub, UInt64.toNat_ofNat']
  omega

end Ghostbro
