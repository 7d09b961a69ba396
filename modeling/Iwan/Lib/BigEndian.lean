import Mathlib

/- Fixed-width words and their big-endian bytes. -/
namespace BigEndian

def byteAt (buf : List UInt8) (offset : Nat) : UInt8 := buf.getD offset 0

@[simp] theorem byteAt_zero (byte : UInt8) (rest : List UInt8) :
    byteAt (byte :: rest) 0 = byte := rfl

@[simp] theorem byteAt_succ (byte : UInt8) (rest : List UInt8) (offset : Nat) :
    byteAt (byte :: rest) (offset + 1) = byteAt rest offset := rfl

variable {offset : Nat} (buf : List UInt8)

theorem byteAt_append (more : List UInt8) (inside : offset < buf.length) :
    byteAt (buf ++ more) offset = byteAt buf offset :=
  List.getD_append buf more 0 offset inside

theorem byteAt_append_right (more : List UInt8) (offset : Nat) :
    byteAt (buf ++ more) (buf.length + offset) = byteAt more offset := by
  unfold byteAt
  rw [List.getD_append_right _ _ _ _ (Nat.le_add_right _ _), Nat.add_sub_cancel_left]

theorem byteAt_drop (count offset : Nat) :
    byteAt (buf.drop count) offset = byteAt buf (count + offset) := by
  unfold byteAt
  rw [List.getD_eq_getElem?_getD, List.getD_eq_getElem?_getD, List.getElem?_drop]

theorem drop_eq_byteAt_cons (inside : offset < buf.length) :
    buf.drop offset = byteAt buf offset :: buf.drop (offset + 1) := by
  rw [List.drop_eq_getElem_cons inside, byteAt, List.getD_eq_getElem _ _ inside]

theorem field_append (more : List UInt8) {count : Nat} (inside : offset + count ≤ buf.length) :
    ((buf ++ more).drop offset).take count = (buf.drop offset).take count := by
  rw [List.drop_append_of_le_length (by omega), List.take_append_of_le_length]
  rw [List.length_drop]
  omega

def be16 (hi lo : UInt8) : UInt16 := (hi.toUInt16 <<< 8) ||| lo.toUInt16

def be32 (b0 b1 b2 b3 : UInt8) : UInt32 :=
  (b0.toUInt32 <<< 24) ||| (b1.toUInt32 <<< 16) ||| (b2.toUInt32 <<< 8) ||| b3.toUInt32

def bytes16 (v : UInt16) : List UInt8 := [(v >>> 8).toUInt8, v.toUInt8]

def bytes32 (v : UInt32) : List UInt8 :=
  [(v >>> 24).toUInt8, (v >>> 16).toUInt8, (v >>> 8).toUInt8, v.toUInt8]

@[simp] theorem bytes16_length (v : UInt16) : (bytes16 v).length = 2 := rfl

@[simp] theorem bytes32_length (v : UInt32) : (bytes32 v).length = 4 := rfl

private theorem or_low (width high low : Nat) (fits : low < 2 ^ width) :
    2 ^ width * high ||| low = 2 ^ width * high + low :=
  (Nat.two_pow_add_eq_or_of_lt fits high).symm

theorem be16_toNat (hi lo : UInt8) : (be16 hi lo).toNat = hi.toNat * 256 + lo.toNat := by
  have high := hi.toNat_lt
  have low := lo.toNat_lt
  have shifted : (hi.toUInt16 <<< 8).toNat = 2 ^ 8 * hi.toNat := by
    simp [UInt16.toNat_shiftLeft, Nat.shiftLeft_eq]
    omega
  rw [be16, UInt16.toNat_or, shifted, UInt8.toNat_toUInt16, or_low 8 _ _ low]
  omega

theorem be32_toNat (b0 b1 b2 b3 : UInt8) :
    (be32 b0 b1 b2 b3).toNat =
      ((b0.toNat * 256 + b1.toNat) * 256 + b2.toNat) * 256 + b3.toNat := by
  have h0 := b0.toNat_lt
  have h1 := b1.toNat_lt
  have h2 := b2.toNat_lt
  have h3 := b3.toNat_lt
  have s0 : (b0.toUInt32 <<< 24).toNat = 2 ^ 24 * b0.toNat := by
    simp [UInt32.toNat_shiftLeft, Nat.shiftLeft_eq]
    omega
  have s1 : (b1.toUInt32 <<< 16).toNat = 2 ^ 16 * b1.toNat := by
    simp [UInt32.toNat_shiftLeft, Nat.shiftLeft_eq]
    omega
  have s2 : (b2.toUInt32 <<< 8).toNat = 2 ^ 8 * b2.toNat := by
    simp [UInt32.toNat_shiftLeft, Nat.shiftLeft_eq]
    omega
  rw [be32, UInt32.toNat_or, UInt32.toNat_or, UInt32.toNat_or, s0, s1, s2,
    UInt8.toNat_toUInt32, or_low 24 _ _ (by omega)]
  -- Each further byte lies below every bit already placed.
  rw [show 2 ^ 24 * b0.toNat + 2 ^ 16 * b1.toNat = 2 ^ 16 * (2 ^ 8 * b0.toNat + b1.toNat) by omega,
    or_low 16 _ _ (by omega)]
  rw [show 2 ^ 16 * (2 ^ 8 * b0.toNat + b1.toNat) + 2 ^ 8 * b2.toNat =
      2 ^ 8 * (2 ^ 16 * b0.toNat + 2 ^ 8 * b1.toNat + b2.toNat) by omega,
    or_low 8 _ _ (by omega)]
  omega

@[simp] theorem be16_bytes16 (v : UInt16) : be16 (v >>> 8).toUInt8 v.toUInt8 = v := by
  apply UInt16.toNat_inj.mp
  have bound := v.toNat_lt
  simp only [be16_toNat, UInt16.toNat_toUInt8, UInt16.toNat_shiftRight, Nat.shiftRight_eq_div_pow,
    UInt16.reduceToNat, Nat.reduceMod, Nat.reducePow]
  omega

theorem bytes16_be16 (hi lo : UInt8) : bytes16 (be16 hi lo) = [hi, lo] := by
  have high := hi.toNat_lt
  have low := lo.toNat_lt
  simp only [bytes16, List.cons.injEq, and_true, ← UInt8.toNat_inj, UInt16.toNat_toUInt8,
    UInt16.toNat_shiftRight, be16_toNat, Nat.shiftRight_eq_div_pow, UInt16.reduceToNat,
    Nat.reduceMod, Nat.reducePow]
  omega

@[simp] theorem be32_bytes32 (v : UInt32) :
    be32 (v >>> 24).toUInt8 (v >>> 16).toUInt8 (v >>> 8).toUInt8 v.toUInt8 = v := by
  apply UInt32.toNat_inj.mp
  have bound := v.toNat_lt
  simp only [be32_toNat, UInt32.toNat_toUInt8, UInt32.toNat_shiftRight, Nat.shiftRight_eq_div_pow,
    UInt32.reduceToNat, Nat.reduceMod, Nat.reducePow]
  omega

theorem bytes32_be32 (b0 b1 b2 b3 : UInt8) : bytes32 (be32 b0 b1 b2 b3) = [b0, b1, b2, b3] := by
  have h0 := b0.toNat_lt
  have h1 := b1.toNat_lt
  have h2 := b2.toNat_lt
  have h3 := b3.toNat_lt
  simp only [bytes32, List.cons.injEq, and_true, ← UInt8.toNat_inj, UInt32.toNat_toUInt8,
    UInt32.toNat_shiftRight, be32_toNat, Nat.shiftRight_eq_div_pow, UInt32.reduceToNat,
    Nat.reduceMod, Nat.reducePow]
  omega

theorem be32_toUInt16 (b0 b1 b2 b3 : UInt8) : (be32 b0 b1 b2 b3).toUInt16 = be16 b2 b3 := by
  apply UInt16.toNat_inj.mp
  have h2 := b2.toNat_lt
  have h3 := b3.toNat_lt
  rw [UInt32.toNat_toUInt16, be32_toNat, be16_toNat]
  omega

private theorem and_high (x low width : Nat) (fits : x < 2 ^ width) (le : low ≤ width) :
    x &&& (2 ^ width - 2 ^ low) = x / 2 ^ low * 2 ^ low := by
  have smaller : 2 ^ low - 1 < 2 ^ width :=
    Nat.lt_of_lt_of_le (Nat.sub_one_lt (Nat.two_pow_pos low).ne')
      (Nat.pow_le_pow_right (by omega) le)
  have mask : 2 ^ width - 2 ^ low = 2 ^ width - (2 ^ low - 1 + 1) := by
    rw [Nat.sub_add_cancel (Nat.two_pow_pos low)]
  apply Nat.eq_of_testBit_eq
  intro bit
  rw [mask, Nat.testBit_and, Nat.testBit_two_pow_sub_succ smaller, Nat.testBit_two_pow_sub_one,
    Nat.testBit_mul_two_pow, Nat.testBit_div_two_pow]
  by_cases high : low ≤ bit
  · by_cases inside : bit < width
    · simp [high, inside, Nat.not_lt.mpr high]
    · have zero : x.testBit bit = false := Nat.testBit_lt_two_pow
        (Nat.lt_of_lt_of_le fits (Nat.pow_le_pow_right (by omega) (by omega)))
      simp [high, inside, zero]
  · simp [high, Nat.lt_of_not_le high]

theorem be32_and_high8 (b0 b1 b2 b3 v : UInt8) :
    be32 b0 b1 b2 b3 &&& 0xFF000000 = be32 v 0 0 0 ↔ b0 = v := by
  have h0 := b0.toNat_lt
  have h1 := b1.toNat_lt
  have h2 := b2.toNat_lt
  have h3 := b3.toNat_lt
  have masked := and_high (be32 b0 b1 b2 b3).toNat 24 32 (UInt32.toNat_lt _) (by decide)
  rw [← UInt32.toNat_inj, ← UInt8.toNat_inj, UInt32.toNat_and, be32_toNat v]
  rw [be32_toNat] at masked ⊢
  simp only [UInt32.reduceToNat, UInt8.reduceToNat, Nat.reducePow, Nat.reduceSub] at masked ⊢
  rw [masked]
  omega

theorem be32_and_high16 (b0 b1 b2 b3 v u : UInt8) :
    be32 b0 b1 b2 b3 &&& 0xFFFF0000 = be32 v u 0 0 ↔ b0 = v ∧ b1 = u := by
  have h0 := b0.toNat_lt
  have h1 := b1.toNat_lt
  have h2 := b2.toNat_lt
  have h3 := b3.toNat_lt
  have h4 := u.toNat_lt
  have masked := and_high (be32 b0 b1 b2 b3).toNat 16 32 (UInt32.toNat_lt _) (by decide)
  rw [← UInt32.toNat_inj, ← UInt8.toNat_inj, ← UInt8.toNat_inj, UInt32.toNat_and, be32_toNat v]
  rw [be32_toNat] at masked ⊢
  simp only [UInt32.reduceToNat, UInt8.reduceToNat, Nat.reducePow, Nat.reduceSub] at masked ⊢
  rw [masked]
  omega

end BigEndian
