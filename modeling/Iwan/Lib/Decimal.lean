import Mathlib

/- Decimal numbers in bytes, and the loop that reads them up to a bound. -/
namespace Decimal

def digit (c : UInt8) : Bool := 0x30 ≤ c && c ≤ 0x39

def next (v : Nat) (c : UInt8) : Nat := v * 10 + (c - 0x30).toNat

def value (s : List UInt8) : Nat := s.foldl next 0

def Run (s : List UInt8) : Prop := s ≠ [] ∧ ∀ c ∈ s, digit c = true

def bounded (max : Nat) : List UInt8 → Nat → Option Nat
  | [], v => some v
  | c :: s, v => if digit c ∧ next v c ≤ max then bounded max s (next v c) else none

theorem digit_sub_le {c : UInt8} (isDigit : digit c = true) : (c - 0x30).toNat ≤ 9 := by
  revert c
  decide +kernel

theorem le_foldl (s : List UInt8) (v : Nat) : v ≤ s.foldl next v := by
  induction s generalizing v with
  | nil => exact Nat.le_refl v
  | cons c s ih =>
    have step : v ≤ next v c := by unfold next; omega
    exact step.trans (ih _)

theorem bounded_eq_some {max : Nat} {s : List UInt8} {v n : Nat} (small : v ≤ max) :
    bounded max s v = some n ↔
      (∀ c ∈ s, digit c = true) ∧ s.foldl next v = n ∧ n ≤ max := by
  induction s generalizing v with
  | nil =>
    simp only [bounded, Option.some.injEq, List.not_mem_nil, List.foldl_nil]
    constructor
    · rintro rfl
      simpa using small
    · intro all
      exact all.2.1
  | cons c s ih =>
    rw [bounded, List.forall_mem_cons, List.foldl_cons]
    by_cases fits : digit c = true ∧ next v c ≤ max
    · rw [if_pos fits, ih fits.2]
      simp [fits.1]
    · rw [if_neg fits]
      constructor
      · intro none
        cases none
      · rintro ⟨⟨isDigit, _⟩, rfl, low⟩
        exact absurd ⟨isDigit, (le_foldl s _).trans low⟩ fits

theorem run_value {max : Nat} {s : List UInt8} {n : Nat} :
    s ≠ [] ∧ bounded max s 0 = some n ↔ Run s ∧ value s = n ∧ n ≤ max := by
  rw [bounded_eq_some (Nat.zero_le max), Run, value, and_assoc]

theorem value_append (s t : List UInt8) : value (s ++ t) = t.foldl next (value s) := by
  rw [value, List.foldl_append, value]

theorem value_eq_zero {s : List UInt8} : value s = 0 ↔ ∀ c ∈ s, c = 0x30 := by
  induction s using List.reverseRecOn with
  | nil => simp [value]
  | append_singleton s c ih =>
    have last : (c - 0x30).toNat = 0 ↔ c = 0x30 := by
      rw [← UInt8.toNat_zero, UInt8.toNat_inj, sub_eq_zero]
    rw [value_append, List.foldl_cons, List.foldl_nil, next, Nat.add_eq_zero_iff, last]
    simp [ih, or_imp, forall_and]

section

variable {max v : UInt64} {p : UInt8}

theorem digit_iff : digit p = true ↔ ¬ (p < 0x30 ∨ 0x39 < p) := by
  simp [digit, not_or]

theorem toNat_digit : ((p - 0x30).toUInt64).toNat = (p - 0x30).toNat := UInt8.toNat_toUInt64 _

theorem guard_iff (fits : (p - 0x30).toUInt64 ≤ max) :
    (max - (p - 0x30).toUInt64) / 10 < v ↔ ¬ next v.toNat p ≤ max.toNat := by
  have low : (p - 0x30).toNat ≤ max.toNat := by
    rw [← toNat_digit]
    exact UInt64.le_iff_toNat_le.mp fits
  rw [UInt64.lt_iff_toNat_lt, UInt64.toNat_div, UInt64.toNat_sub_of_le _ _ fits, toNat_digit, next]
  change (max.toNat - (p - 0x30).toNat) / 10 < _ ↔ _
  omega

theorem next_toNat (fits : next v.toNat p ≤ max.toNat) :
    (v * 10 + (p - 0x30).toUInt64).toNat = next v.toNat p := by
  have small := max.toNat_lt
  rw [UInt64.toNat_add, UInt64.toNat_mul, toNat_digit]
  change (v.toNat * 10 % 2 ^ 64 + (p - 0x30).toNat) % 2 ^ 64 = _
  unfold next at fits ⊢
  omega

theorem guard_of_digit (isDigit : digit p = true) (nine : 9 ≤ max.toNat) :
    (max - (p - 0x30).toUInt64) / 10 < v ↔ ¬ next v.toNat p ≤ max.toNat := by
  have low := digit_sub_le isDigit
  refine guard_iff (UInt64.le_iff_toNat_le.mpr ?_)
  rw [toNat_digit]
  omega

theorem guarded_toNat {loop : List UInt8 → UInt64 → Option UInt64} (nine : 9 ≤ max.toNat)
    (nil : ∀ v, loop [] v = some v)
    (cons : ∀ p s v, loop (p :: s) v =
      if p < 0x30 ∨ 0x39 < p then none
      else if (max - (p - 0x30).toUInt64) / 10 < v then none
      else loop s (v * 10 + (p - 0x30).toUInt64))
    (s : List UInt8) (v : UInt64) :
    (loop s v).map UInt64.toNat = bounded max.toNat s v.toNat := by
  induction s generalizing v with
  | nil => rw [nil, bounded, Option.map_some]
  | cons p s ih =>
    rw [cons, bounded]
    by_cases isDigit : digit p = true
    · rw [if_neg (digit_iff.mp isDigit)]
      have test := guard_of_digit (v := v) isDigit nine
      by_cases fits : next v.toNat p ≤ max.toNat
      · rw [if_neg fun stop => test.mp stop fits, if_pos ⟨isDigit, fits⟩, ih, next_toNat fits]
      · rw [if_pos (test.mpr fits), if_neg fun both => fits both.2]
        rfl
    · rw [if_pos (not_not.mp fun plain => isDigit (digit_iff.mpr plain)),
        if_neg fun both => isDigit both.1]
      rfl

end

def text (n : Nat) : List UInt8 := (Nat.toDigits 10 n).map fun d => UInt8.ofNat d.toNat

theorem text_digit : ∀ c : UInt8, digit c = true → text (c - 0x30).toNat = [c] := by
  decide +kernel

theorem text_next {n : Nat} {c : UInt8} (positive : 1 ≤ n) (isDigit : digit c = true) :
    text (next n c) = text n ++ [c] := by
  have low := digit_sub_le isDigit
  have last := text_digit c isDigit
  rw [text, Nat.toDigits_of_lt_base (by omega)] at last
  have front : next n c / 10 = n := by
    rw [next]
    omega
  have digit : next n c % 10 = (c - 0x30).toNat := by
    rw [next]
    omega
  rw [text, Nat.toDigits_of_base_le (by decide) (by rw [next]; omega), front, digit,
    List.map_append, last, text]

theorem text_value {s : List UInt8} (run : Run s)
    (lead : s.head? = some 0x30 → s = [0x30]) : text (value s) = s := by
  induction s using List.reverseRecOn with
  | nil => exact absurd rfl run.1
  | append_singleton s c ih =>
    have last : digit c = true := run.2 c (by simp)
    rw [value_append, List.foldl_cons, List.foldl_nil]
    by_cases empty : s = []
    · subst empty
      have single : next (value []) c = (c - 0x30).toNat := by simp [next, value]
      rw [single, text_digit c last]
      rfl
    · have other : s.head? ≠ some 0x30 := by
        intro zero
        have whole := lead (by rw [List.head?_append_of_ne_nil s empty, zero])
        have size := congrArg List.length whole
        have := List.length_pos_iff.mpr empty
        simp only [List.length_append, List.length_cons, List.length_nil] at size
        omega
      have front := ih ⟨empty, fun d member => run.2 d (by simp [member])⟩
        fun zero => absurd zero other
      have positive : 1 ≤ value s := by
        by_contra zero
        have none : value s = 0 := by omega
        rw [none] at front
        rw [← front] at other
        exact other rfl
      rw [text_next positive last, front]

theorem text_run (n : Nat) : Run (text n) ∧ value (text n) = n ∧
    ((text n).head? = some 0x30 → n = 0) := by
  have char : ∀ d < 10, digit (UInt8.ofNat (Nat.digitChar d).toNat) = true ∧
      (UInt8.ofNat (Nat.digitChar d).toNat - 0x30).toNat = d := by decide
  induction n using Nat.strong_induction_on with
  | _ n ih =>
    by_cases small : n < 10
    · obtain ⟨isDigit, same⟩ := char n small
      rw [text, Nat.toDigits_of_lt_base small]
      refine ⟨⟨by simp, by simpa using isDigit⟩, by simpa [value, next] using same, fun zero => ?_⟩
      have head : UInt8.ofNat (Nat.digitChar n).toNat = 0x30 := Option.some.inj zero
      rw [head] at same
      exact same.symm
    · obtain ⟨run, front, lead⟩ := ih (n / 10) (by omega)
      obtain ⟨isDigit, same⟩ := char (n % 10) (by omega)
      rw [text, Nat.toDigits_of_base_le (by decide) (by omega), List.map_append, ← text]
      refine ⟨⟨by simp, fun c member => ?_⟩, ?_, fun zero => ?_⟩
      · rcases List.mem_append.mp member with old | new
        · exact run.2 c old
        · rw [List.mem_singleton.mp new]
          exact isDigit
      · rw [value_append, front, List.map_singleton, List.foldl_cons, List.foldl_nil, next, same]
        omega
      · rw [List.head?_append_of_ne_nil _ run.1] at zero
        have := lead zero
        omega

end Decimal
