import Iwan.Lib.BigEndian

/- Addresses as bit strings, networks as their sets. -/
namespace NetPrefix

open BigEndian

def bit (addr : List UInt8) (i : Nat) : Bool := (byteAt addr (i / 8)).toNat.testBit (7 - i % 8)

def InNet (net : List UInt8) (len : Nat) (addr : List UInt8) : Prop :=
  ∀ i < len, bit addr i = bit net i

instance (net : List UInt8) (len : Nat) (addr : List UInt8) : Decidable (InNet net len addr) :=
  inferInstanceAs (Decidable (∀ i < len, _))

theorem byte_ext {x y : UInt8} (same : ∀ j < 8, x.toNat.testBit (7 - j) = y.toNat.testBit (7 - j)) :
    x = y := by
  apply UInt8.toNat_inj.mp
  apply Nat.eq_of_testBit_eq
  intro i
  by_cases low : i < 8
  · have at_bit := same (7 - i) (by omega)
    rwa [show 7 - (7 - i) = i by omega] at at_bit
  · have high {z : UInt8} : z.toNat.testBit i = false :=
      Nat.testBit_lt_two_pow (Nat.lt_of_lt_of_le z.toNat_lt
        (Nat.pow_le_pow_right (by omega) (by omega)))
    rw [high, high]

variable {net addr : List UInt8}

theorem inNet_bytes {k : Nat} : InNet net (8 * k) addr ↔ ∀ i < k, byteAt addr i = byteAt net i := by
  constructor
  · intro inside i low
    apply byte_ext
    intro j small
    have at_bit := inside (8 * i + j) (by omega)
    unfold bit at at_bit
    rwa [show (8 * i + j) / 8 = i by omega, show (8 * i + j) % 8 = j by omega] at at_bit
  · intro same i low
    unfold bit
    rw [same (i / 8) (by omega)]

theorem inNet_add {m n : Nat} : InNet net (m + n) addr ↔
      InNet net m addr ∧ ∀ j < n, bit addr (m + j) = bit net (m + j) := by
  constructor
  · intro inside
    exact ⟨fun i low => inside i (by omega), fun j low => inside (m + j) (by omega)⟩
  · rintro ⟨first, more⟩ i low
    by_cases early : i < m
    · exact first i early
    · have at_bit := more (i - m) (by omega)
      rwa [show m + (i - m) = i by omega] at at_bit

theorem inNet_host (same : addr.length = net.length) :
    InNet net (8 * net.length) addr ↔ addr = net := by
  rw [inNet_bytes]
  constructor
  · intro agree
    apply List.ext_getElem same
    intro i low low'
    have at_byte := agree i low'
    rwa [byteAt, byteAt, List.getD_eq_getElem _ _ low, List.getD_eq_getElem _ _ low'] at at_byte
  · rintro rfl i _
    rfl

theorem bit_append_right (head addr : List UInt8) (i : Nat) :
    bit (head ++ addr) (8 * head.length + i) = bit addr i := by
  unfold bit
  rw [show (8 * head.length + i) / 8 = head.length + i / 8 by omega,
    show (8 * head.length + i) % 8 = i % 8 by omega, byteAt_append_right]

theorem inNet_append {head : List UInt8} {len : Nat} (long : head.length ≤ addr.length) :
    InNet (head ++ net) (8 * head.length + len) addr ↔
      addr.take head.length = head ∧ InNet net len (addr.drop head.length) := by
  have cut := List.take_append_drop head.length addr
  have size : (addr.take head.length).length = head.length := List.length_take_of_le long
  have behind (j : Nat) : bit addr (8 * head.length + j) = bit (addr.drop head.length) j := by
    have moved := bit_append_right (addr.take head.length) (addr.drop head.length) j
    rwa [cut, size] at moved
  have leading : InNet (head ++ net) (8 * head.length) addr ↔ addr.take head.length = head := by
    rw [← inNet_host size, inNet_bytes, inNet_bytes]
    apply forall_congr'
    intro i
    apply imp_congr_right
    intro low
    have first := byteAt_append (addr.take head.length) (addr.drop head.length) (size ▸ low)
    rw [cut] at first
    rw [first, byteAt_append head net low]
  rw [inNet_add, leading]
  apply and_congr_right
  intro _
  apply forall_congr'
  intro j
  rw [behind, bit_append_right]

end NetPrefix
