import Mathlib

/- UTF-8 as the core library encodes it, by the numbers of the bytes. -/
namespace Utf8

def encode (ch : Char) : List UInt8 := String.utf8EncodeChar ch

def codePoint (ch : Char) : Nat := ch.val.toNat

theorem codePoint_valid (ch : Char) :
    codePoint ch < 0xD800 ∨ 0xDFFF < codePoint ch ∧ codePoint ch < 0x110000 := ch.valid

theorem exists_char {v : Nat} (valid : v < 0xD800 ∨ 0xDFFF < v ∧ v < 0x110000) :
    ∃ ch, codePoint ch = v := by
  refine ⟨Char.ofNat v, ?_⟩
  rw [codePoint, Char.ofNat, dif_pos valid]
  rfl

theorem ofNat_toNat {n : Nat} (small : n < 256) : (UInt8.ofNat n).toNat = n := by
  rw [UInt8.toNat_ofNat']
  exact Nat.mod_eq_of_lt small

/-- The bytes of a scalar value. -/
inductive Shape (v : Nat) : List UInt8 → Prop where
  | one {a : UInt8} (lead : a.toNat = v) (narrow : v < 0x80) : Shape v [a]
  | two {a b : UInt8} (lead : a.toNat = v / 64 + 0xC0) (last : b.toNat = v % 64 + 0x80)
      (wide : 0x80 ≤ v) (narrow : v < 0x800) : Shape v [a, b]
  | three {a b c : UInt8} (lead : a.toNat = v / 4096 + 0xE0) (next : b.toNat = v / 64 % 64 + 0x80)
      (last : c.toNat = v % 64 + 0x80) (wide : 0x800 ≤ v) (narrow : v < 0x10000)
      (scalar : v < 0xD800 ∨ 0xDFFF < v) : Shape v [a, b, c]
  | four {a b c d : UInt8} (lead : a.toNat = v / 262144 + 0xF0)
      (next : b.toNat = v / 4096 % 64 + 0x80) (third : c.toNat = v / 64 % 64 + 0x80)
      (last : d.toNat = v % 64 + 0x80) (wide : 0x10000 ≤ v) (narrow : v < 0x110000) :
      Shape v [a, b, c, d]

theorem encode_shape (ch : Char) : Shape (codePoint ch) (encode ch) := by
  have valid := codePoint_valid ch
  unfold codePoint at valid ⊢
  unfold encode String.utf8EncodeChar
  generalize ch.val.toNat = v at valid ⊢
  dsimp only
  by_cases one : v ≤ 0x7F
  · rw [if_pos one]
    exact .one (ofNat_toNat (by omega)) (by omega)
  rw [if_neg one]
  by_cases two : v ≤ 0x7FF
  · rw [if_pos two]
    refine .two ?_ (ofNat_toNat (by omega)) (by omega) (by omega)
    rw [ofNat_toNat (by omega)]
    omega
  rw [if_neg two]
  by_cases three : v ≤ 0xFFFF
  · rw [if_pos three]
    refine .three ?_ (ofNat_toNat (by omega)) (ofNat_toNat (by omega)) (by omega) (by omega)
      (by omega)
    rw [ofNat_toNat (by omega)]
    omega
  rw [if_neg three]
  refine .four ?_ (ofNat_toNat (by omega)) (ofNat_toNat (by omega)) (ofNat_toNat (by omega))
    (by omega) (by omega)
  rw [ofNat_toNat (by omega)]
  omega

theorem Shape.eq {v : Nat} {s t : List UInt8} (left : Shape v s) (right : Shape v t) : s = t := by
  have byte {x y : UInt8} {n : Nat} (hx : x.toNat = n) (hy : y.toNat = n) : x = y :=
    UInt8.toNat_inj.mp (hx.trans hy.symm)
  cases left with
  | one lead narrow =>
    cases right with
    | one lead' _ => rw [byte lead lead']
    | _ => omega
  | two lead last wide narrow =>
    cases right with
    | two lead' last' _ _ => rw [byte lead lead', byte last last']
    | _ => omega
  | three lead next last wide narrow scalar =>
    cases right with
    | three lead' next' last' _ _ _ => rw [byte lead lead', byte next next', byte last last']
    | _ => omega
  | four lead next third last wide narrow =>
    cases right with
    | four lead' next' third' last' _ _ =>
      rw [byte lead lead', byte next next', byte third third', byte last last']
    | _ => omega

theorem Shape.encode_eq {s : List UInt8} {v : Nat} (shape : Shape v s) :
    ∃ ch, codePoint ch = v ∧ encode ch = s := by
  have valid : v < 0xD800 ∨ 0xDFFF < v ∧ v < 0x110000 := by
    cases shape with
    | _ => omega
  obtain ⟨ch, point⟩ := exists_char valid
  refine ⟨ch, point, ?_⟩
  have own := encode_shape ch
  rw [point] at own
  exact own.eq shape

theorem encode_ne_nil (ch : Char) : encode ch ≠ [] := by
  intro empty
  have shape := encode_shape ch
  rw [empty] at shape
  cases shape

theorem zero_not_mem_encode {ch : Char} (some : codePoint ch ≠ 0) : 0 ∉ encode ch := by
  have shape := encode_shape ch
  intro zero
  generalize encode ch = s at shape zero
  have none : (0 : UInt8).toNat = 0 := rfl
  cases shape with
  | one lead _ =>
    simp only [List.mem_cons, List.not_mem_nil, or_false] at zero
    subst zero
    omega
  | two lead last _ _ =>
    simp only [List.mem_cons, List.not_mem_nil, or_false] at zero
    rcases zero with rfl | rfl <;> omega
  | three lead next last _ _ _ =>
    simp only [List.mem_cons, List.not_mem_nil, or_false] at zero
    rcases zero with rfl | rfl | rfl <;> omega
  | four lead next third last _ _ =>
    simp only [List.mem_cons, List.not_mem_nil, or_false] at zero
    rcases zero with rfl | rfl | rfl | rfl <;> omega

end Utf8
