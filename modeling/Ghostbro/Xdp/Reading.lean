import Ghostbro.Xdp.Program

/-!
# Reading the octets of a frame

The readers of the XDP program shift and or single octets together.  Where the frame is long
enough, they return the big-endian value of the slice they cover, and a bounds check is a
comparison with the length of the frame.
-/

namespace Ghostbro.Xdp

theorem toNat_shifted (byte : UInt8) (shift : UInt32) (h : shift.toNat ≤ 24) :
    (byte.toUInt32 <<< shift).toNat = byte.toNat * 2 ^ shift.toNat := by
  have hfits : byte.toNat * 2 ^ shift.toNat < 2 ^ 8 * 2 ^ 24 := by
    apply Nat.mul_lt_mul_of_lt_of_le byte.toNat_lt
    · exact Nat.pow_le_pow_right (by decide) h
    · exact Nat.pow_pos (by decide)
  have hshift : shift.toNat % 32 = shift.toNat := Nat.mod_eq_of_lt (by omega)
  rw [UInt32.toNat_shiftLeft, UInt8.toNat_toUInt32, hshift, Nat.shiftLeft_eq]
  exact Nat.mod_eq_of_lt hfits

theorem mul_two_pow_or {high low : ℕ} (width : ℕ) (h : low < 2 ^ width) :
    high * 2 ^ width ||| low = high * 2 ^ width + low := by
  rw [Nat.mul_comm, Nat.two_pow_add_eq_or_of_lt h]

/-- The shifts and ors of `read_be_u32` compute a big-endian number. -/
theorem toNat_joined (b0 b1 b2 b3 : UInt8) :
    (b0.toUInt32 <<< 24 ||| b1.toUInt32 <<< 16 ||| b2.toUInt32 <<< 8 ||| b3.toUInt32).toNat =
      beNat [b0, b1, b2, b3] := by
  have h1 := b1.toNat_lt
  have h2 := b2.toNat_lt
  have h3 := b3.toNat_lt
  have htwo : b0.toNat * 2 ^ 24 + b1.toNat * 2 ^ 16 = (b0.toNat * 2 ^ 8 + b1.toNat) * 2 ^ 16 := by
    ring
  have hthree : (b0.toNat * 2 ^ 8 + b1.toNat) * 2 ^ 16 + b2.toNat * 2 ^ 8 =
      (b0.toNat * 2 ^ 16 + b1.toNat * 2 ^ 8 + b2.toNat) * 2 ^ 8 := by ring
  calc
    _ = b0.toNat * 2 ^ 24 ||| b1.toNat * 2 ^ 16 ||| b2.toNat * 2 ^ 8 ||| b3.toNat := by
      simp only [UInt32.toNat_or, UInt8.toNat_toUInt32]
      rw [toNat_shifted b0 24 (by decide), toNat_shifted b1 16 (by decide),
        toNat_shifted b2 8 (by decide)]
      rfl
    _ = (b0.toNat * 2 ^ 8 + b1.toNat) * 2 ^ 16 ||| b2.toNat * 2 ^ 8 ||| b3.toNat := by
      rw [mul_two_pow_or 24 (by omega), htwo]
    _ = (b0.toNat * 2 ^ 16 + b1.toNat * 2 ^ 8 + b2.toNat) * 2 ^ 8 ||| b3.toNat := by
      rw [mul_two_pow_or 16 (by omega), hthree]
    _ = (b0.toNat * 2 ^ 16 + b1.toNat * 2 ^ 8 + b2.toNat) * 2 ^ 8 + b3.toNat :=
      mul_two_pow_or 8 (by omega)
    _ = beNat [b0, b1, b2, b3] := by
      simp only [beNat, List.foldl_cons, List.foldl_nil]
      ring

theorem readU8_eq {frame : Bytes} {offset : ℕ} (h : offset < frame.length) :
    readU8 frame offset = some (frame.getD offset 0) := by
  rw [readU8, List.getD_eq_getElem?_getD, List.getElem?_eq_getElem h]
  rfl

theorem readBeU32_eq {frame : Bytes} {offset : ℕ} (h : offset + 4 ≤ frame.length) :
    readBeU32 frame offset = some (u32OfBe (readArray 4 frame offset)) := by
  have harray : (readArray 4 frame offset).toList = [frame.getD offset 0,
      frame.getD (offset + 1) 0, frame.getD (offset + 2) 0, frame.getD (offset + 3) 0] := rfl
  simp only [readBeU32, Option.bind_eq_bind]
  rw [readU8_eq (by omega), readU8_eq (by omega), readU8_eq (by omega), readU8_eq (by omega)]
  apply congrArg some
  apply UInt32.toNat_inj.mp
  have hlt := beNat_lt (readArray 4 frame offset).toList
  rw [Vector.length_toList] at hlt
  rw [toNat_joined, u32OfBe, UInt32.toNat_ofNat', ← harray]
  omega

theorem hasBytes_of_le {frame : Bytes} {offset len : ℕ} (h : offset + len ≤ frame.length) :
    hasBytes frame offset len = true := decide_eq_true h

theorem hasBytes_eq_false {frame : Bytes} {offset len : ℕ} (h : ¬offset + len ≤ frame.length) :
    hasBytes frame offset len = false := decide_eq_false h

/-- The IPv4 source address of a frame. -/
def sourceAddr (frame : Bytes) : Ipv4Addr := readArray 4 frame (ethHdrLen + 12)

/-- The big-endian word of a frame at an offset; octets past its end read as zero. -/
def wordAt (frame : Bytes) (offset : ℕ) : UInt16 :=
  UInt16.ofNat (beNat [frame.getD offset 0, frame.getD (offset + 1) 0])

/-- The shift and the or of `read_be_u16` compute a big-endian number. -/
theorem toUInt16_joined (high low : UInt8) :
    (high.toUInt16 <<< 8) ||| low.toUInt16 = UInt16.ofNat (beNat [high, low]) := by
  have hhigh := high.toNat_lt
  have hlow := low.toNat_lt
  have hshift : (high.toUInt16 <<< 8).toNat = high.toNat * 2 ^ 8 := by
    rw [UInt16.toNat_shiftLeft, UInt8.toNat_toUInt16, Nat.shiftLeft_eq]
    exact Nat.mod_eq_of_lt (by change high.toNat * 2 ^ 8 < 2 ^ 16; omega)
  have hnat : beNat [high, low] = high.toNat * 2 ^ 8 + low.toNat := by
    simp only [beNat, List.foldl_cons, List.foldl_nil]
    ring
  apply UInt16.toNat_inj.mp
  rw [UInt16.toNat_or, hshift, UInt8.toNat_toUInt16, mul_two_pow_or 8 hlow, UInt16.toNat_ofNat',
    hnat]
  omega

theorem readBeU16_eq {frame : Bytes} {offset : ℕ} (h : offset + 2 ≤ frame.length) :
    readBeU16 frame offset = some (wordAt frame offset) := by
  simp only [readBeU16, Option.bind_eq_bind]
  rw [readU8_eq (by omega), readU8_eq (by omega), wordAt, ← toUInt16_joined]
  rfl

theorem readBeU16_eq_none {frame : Bytes} {offset : ℕ} (h : frame.length < offset + 2) :
    readBeU16 frame offset = none := by
  simp only [readBeU16, Option.bind_eq_bind]
  by_cases hhigh : offset < frame.length
  · have hlow : readU8 frame (offset + 1) = none := List.getElem?_eq_none (by omega)
    rw [hlow]
    cases readU8 frame offset <;> rfl
  · have hnone : readU8 frame offset = none := List.getElem?_eq_none (by omega)
    rw [hnone]
    rfl

end Ghostbro.Xdp
