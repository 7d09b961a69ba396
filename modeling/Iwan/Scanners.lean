import Iwan.Proxy.Parse
import Iwan.Server.RateBudget

/- The strict decimal scanners (util.c). -/
namespace Iwan

open Decimal (digit next value Run bounded bounded_eq_some run_value digit_iff toNat_digit
  guard_iff next_toNat guarded_toNat digit_sub_le)

/-- What a number scanner says of a text. -/
inductive ParseUint where
  | ok (v : UInt64)
  | bad
  | range
deriving DecidableEq, Repr

def envScanU64Loop (max : UInt64) : List UInt8 → UInt64 → Option UInt64
  | [], v => some v
  | p :: s, v =>
    let d := (p - 0x30).toUInt64
    if max < d ∨ (max - d) / 10 < v then none else envScanU64Loop max s (v * 10 + d)

def envScanU64 (s : List UInt8) (max : UInt64) : ParseUint :=
  if s = [] then .bad
  else if s.any fun p => p < 0x30 || 0x39 < p then .bad
  else
    match envScanU64Loop max s 0 with
    | some v => .ok v
    | none => .range

def ullongMax : UInt64 := 0xFFFFFFFFFFFFFFFF
def llongMax : UInt64 := 0x7FFFFFFFFFFFFFFF

def envScanI64Loop : List UInt8 → UInt64 → Option UInt64
  | [], v => some v
  | p :: s, v =>
    if p < 0x30 ∨ 0x39 < p then none
    else
      let d := (p - 0x30).toUInt64
      if (ullongMax - d) / 10 < v then none else envScanI64Loop s (v * 10 + d)

def envScanI64 (s : List UInt8) : Option Int :=
  let neg : Bool := s.head? = some 0x2D
  let p := if neg then s.drop 1 else s
  if s = [] ∨ !(p.head?.any fun c => 0x30 ≤ c && c ≤ 0x39) then none
  else
    match envScanI64Loop p 0 with
    | none => none
    | some v =>
      if neg then
        if llongMax + 1 < v then none
        else some (if v = llongMax + 1 then -2 ^ 63 else -(v.toNat : Int))
      else if llongMax < v then none else some (v.toNat : Int)

section

variable {max : UInt64}

theorem envScanU64Loop_toNat {s : List UInt8} (digits : ∀ c ∈ s, digit c = true) (v : UInt64) :
    (envScanU64Loop max s v).map UInt64.toNat = bounded max.toNat s v.toNat := by
  induction s generalizing v with
  | nil => rfl
  | cons p s ih =>
    obtain ⟨first, rest⟩ := List.forall_mem_cons.mp digits
    have test : (max < (p - 0x30).toUInt64 ∨ (max - (p - 0x30).toUInt64) / 10 < v) ↔
        ¬ next v.toNat p ≤ max.toNat := by
      by_cases fits : (p - 0x30).toUInt64 ≤ max
      · rw [guard_iff fits, or_iff_right (UInt64.not_lt.mpr fits)]
      · have above : max.toNat < (p - 0x30).toNat := by
          rw [← toNat_digit]
          exact UInt64.lt_iff_toNat_lt.mp (UInt64.not_le.mp fits)
        simp only [UInt64.not_le.mp fits, true_or, true_iff, next]
        omega
    rw [envScanU64Loop, bounded]
    by_cases fits : next v.toNat p ≤ max.toNat
    · rw [if_neg fun stop => test.mp stop fits, if_pos ⟨first, fits⟩, ih rest, next_toNat fits]
    · rw [if_pos (test.mpr fits), if_neg fun both => fits both.2]
      rfl

theorem envScanI64Loop_toNat (s : List UInt8) (v : UInt64) :
    (envScanI64Loop s v).map UInt64.toNat = bounded ullongMax.toNat s v.toNat :=
  guarded_toNat (by decide) (fun _ => rfl) (fun _ _ _ => rfl) s v

theorem ppParsePortLoop_toNat (s : List UInt8) (v : UInt64) (low : v.toNat ≤ 65535) :
    (ppParsePortLoop s v).map UInt64.toNat = bounded 65535 s v.toNat := by
  induction s generalizing v with
  | nil => rfl
  | cons p s ih =>
    rw [ppParsePortLoop, bounded]
    by_cases isDigit : digit p = true
    · -- the accumulator stays below 2 ^ 20, so the test comes before any wrap
      have small := digit_sub_le isDigit
      have exact : (v * 10 + (p - 0x30).toUInt64).toNat = next v.toNat p :=
        next_toNat (show next v.toNat p ≤ ullongMax.toNat by
          have top : ullongMax.toNat = 2 ^ 64 - 1 := rfl
          rw [top, next]
          omega)
      have test : 65535 < v * 10 + (p - 0x30).toUInt64 ↔ ¬ next v.toNat p ≤ 65535 := by
        rw [UInt64.lt_iff_toNat_lt, exact, Nat.not_le]
        rfl
      rw [if_neg (digit_iff.mp isDigit)]
      dsimp only
      by_cases fits : next v.toNat p ≤ 65535
      · rw [if_neg fun stop => test.mp stop fits, if_pos ⟨isDigit, fits⟩, ih _ (exact ▸ fits),
          exact]
      · rw [if_pos (test.mpr fits), if_neg fun both => fits both.2]
        rfl
    · rw [if_pos (not_not.mp fun plain => isDigit (digit_iff.mpr plain)),
        if_neg fun both => isDigit both.1]
      rfl

end

section

variable {s : List UInt8}

theorem map_toNat_eq_some {x : Option UInt64} {v : UInt64} :
    x = some v ↔ x.map UInt64.toNat = some v.toNat := by
  cases x <;> simp [UInt64.toNat_inj]

theorem envScanU64_eq_ok {max v : UInt64} :
    envScanU64 s max = .ok v ↔ Run s ∧ value s = v.toNat ∧ v.toNat ≤ max.toNat := by
  rw [← run_value]
  unfold envScanU64
  by_cases empty : s = []
  · simp [empty]
  by_cases digits : ∀ c ∈ s, digit c = true
  · have clean : (s.any fun p => p < 0x30 || 0x39 < p) = false := by
      rw [List.any_eq_false]
      intro p member
      simpa [digit, not_or] using digits p member
    rw [if_neg empty, clean, if_neg Bool.false_ne_true, ← UInt64.toNat_zero,
      ← envScanU64Loop_toNat digits, ← map_toNat_eq_some]
    cases envScanU64Loop max s 0 <;> simp [empty]
  · have dirty : (s.any fun p => p < 0x30 || 0x39 < p) = true := by
      rw [List.any_eq_true]
      simpa [digit, Classical.or_iff_not_imp_left] using digits
    rw [if_neg empty, dirty, if_pos rfl, bounded_eq_some (Nat.zero_le _)]
    simp [digits]

theorem envScanI64Loop_run {p : List UInt8} {v : UInt64} :
    (p.head?.any digit = true ∧ envScanI64Loop p 0 = some v) ↔ Run p ∧ value p = v.toNat := by
  have small := v.toNat_lt
  have max : ullongMax.toNat = 2 ^ 64 - 1 := rfl
  rw [map_toNat_eq_some, envScanI64Loop_toNat, UInt64.toNat_zero,
    bounded_eq_some (Nat.zero_le _), Run, value]
  cases p with
  | nil => simp
  | cons c p =>
    simp only [List.head?_cons, Option.any_some, ne_eq, List.cons_ne_nil, not_false_eq_true,
      true_and]
    constructor
    · intro all
      exact ⟨all.2.1, all.2.2.1⟩
    · intro all
      exact ⟨all.1 c List.mem_cons_self, all.1, all.2, by omega⟩

theorem envScanI64_minus {q : List UInt8} {i : Int} :
    envScanI64 (0x2D :: q) = some i ↔ ∃ v : UInt64,
      (q.head?.any digit = true ∧ envScanI64Loop q 0 = some v) ∧ v.toNat ≤ 2 ^ 63 ∧
        i = -(v.toNat : Int) := by
  have shape : envScanI64 (0x2D :: q) =
      if !q.head?.any digit then none
      else (envScanI64Loop q 0).bind fun v =>
        if llongMax + 1 < v then none
        else some (if v = llongMax + 1 then -2 ^ 63 else -(v.toNat : Int)) := by
    simp only [envScanI64, List.head?_cons, decide_true, if_true, List.drop_one,
      List.tail_cons, reduceCtorEq, false_or]
    cases envScanI64Loop q 0 <;> rfl
  have above (v : UInt64) : llongMax + 1 < v ↔ 2 ^ 63 < v.toNat := UInt64.lt_iff_toNat_lt
  have top (v : UInt64) : v = llongMax + 1 ↔ v.toNat = 2 ^ 63 := UInt64.toNat_inj.symm
  rw [shape, Option.ite_none_left_eq_some]
  simp only [Option.bind_eq_some_iff, Option.ite_none_left_eq_some, above, top, Option.some.injEq,
    Bool.not_eq_true', Bool.not_eq_false, not_lt]
  constructor
  · rintro ⟨start, v, loop, low, rfl⟩
    exact ⟨v, ⟨start, loop⟩, low, by split <;> omega⟩
  · rintro ⟨v, ⟨start, loop⟩, low, rfl⟩
    exact ⟨start, v, loop, low, by split <;> omega⟩

theorem envScanI64_plain {i : Int} (plain : s.head? ≠ some 0x2D) :
    envScanI64 s = some i ↔ ∃ v : UInt64,
      (s.head?.any digit = true ∧ envScanI64Loop s 0 = some v) ∧ v.toNat < 2 ^ 63 ∧
        i = (v.toNat : Int) := by
  have shape : envScanI64 s =
      if !s.head?.any digit then none
      else (envScanI64Loop s 0).bind fun v =>
        if llongMax < v then none else some (v.toNat : Int) := by
    cases s with
    | nil => rfl
    | cons c q =>
      simp only [envScanI64, plain, decide_false, Bool.false_eq_true, if_false,
        reduceCtorEq, false_or]
      cases envScanI64Loop (c :: q) 0 <;> rfl
  have above (v : UInt64) : llongMax < v ↔ 2 ^ 63 - 1 < v.toNat := UInt64.lt_iff_toNat_lt
  rw [shape, Option.ite_none_left_eq_some]
  simp only [Option.bind_eq_some_iff, Option.ite_none_left_eq_some, above, Option.some.injEq,
    Bool.not_eq_true', Bool.not_eq_false, not_lt]
  constructor
  · rintro ⟨start, v, loop, low, rfl⟩
    exact ⟨v, ⟨start, loop⟩, by omega, rfl⟩
  · rintro ⟨v, ⟨start, loop⟩, low, rfl⟩
    exact ⟨start, v, loop, by omega, rfl⟩

def SignedRun (s : List UInt8) (i : Int) : Prop :=
  (Run s ∧ i = (value s : Int) ∨ ∃ digits, s = 0x2D :: digits ∧ Run digits ∧
    i = -(value digits : Int)) ∧ -2 ^ 63 ≤ i ∧ i ≤ 2 ^ 63 - 1

theorem envScanI64_eq_some {i : Int} : envScanI64 s = some i ↔ SignedRun s i := by
  unfold SignedRun
  by_cases minus : s.head? = some 0x2D
  · obtain ⟨q, rfl⟩ : ∃ q, s = 0x2D :: q := by
      cases s with
      | nil => cases minus
      | cons c q => exact ⟨q, by cases minus; rfl⟩
    have signed : ¬ Run (0x2D :: q) := fun run =>
      absurd (run.2 0x2D List.mem_cons_self) (by decide)
    rw [envScanI64_minus]
    simp only [envScanI64Loop_run, signed, false_and, false_or, List.cons.injEq, true_and,
      exists_eq_left']
    constructor
    · rintro ⟨v, ⟨run, same⟩, low, rfl⟩
      exact ⟨⟨run, by rw [same]⟩, by omega, by omega⟩
    · rintro ⟨⟨run, rfl⟩, low, _⟩
      have small : value q < 2 ^ 64 := by omega
      refine ⟨UInt64.ofNat (value q), ⟨run, ?_⟩, ?_, ?_⟩ <;>
        rw [UInt64.toNat_ofNat_of_lt' small]
      omega
  · rw [envScanI64_plain minus]
    have unsigned : ¬ ∃ digits, s = 0x2D :: digits ∧ Run digits ∧ i = -(value digits : Int) := by
      rintro ⟨digits, rfl, _⟩
      exact minus rfl
    simp only [envScanI64Loop_run, unsigned, or_false]
    constructor
    · rintro ⟨v, ⟨run, same⟩, low, rfl⟩
      exact ⟨⟨run, by rw [same]⟩, by omega, by omega⟩
    · rintro ⟨⟨run, rfl⟩, _, low⟩
      have small : value s < 2 ^ 64 := by omega
      refine ⟨UInt64.ofNat (value s), ⟨run, ?_⟩, ?_, ?_⟩ <;>
        rw [UInt64.toNat_ofNat_of_lt' small]
      omega

theorem ppParsePort_eq_some {n : UInt16} :
    ppParsePort s = some n ↔ Run s ∧ value s = n.toNat ∧ n.toNat ≤ 65535 := by
  have bound : (ppParsePortLoop s 0).map UInt64.toNat = bounded 65535 s 0 :=
    ppParsePortLoop_toNat s 0 (Nat.zero_le _)
  rw [← run_value, ← bound]
  unfold ppParsePort
  by_cases empty : s = []
  · simp [empty]
  rw [if_neg empty]
  cases loop : ppParsePortLoop s 0 with
  | none => simp
  | some v =>
    rw [loop] at bound
    have low : v.toNat ≤ 65535 := ((bounded_eq_some (Nat.zero_le _)).mp bound.symm).2.2
    have narrow : v.toUInt16.toNat = v.toNat := by
      rw [UInt64.toNat_toUInt16]
      exact Nat.mod_eq_of_lt (Nat.lt_succ_of_le low)
    simp [← UInt16.toNat_inj, narrow, empty]

/-- The four scanners accept runs of digits by their exact values. -/
theorem scanners_exact (s : List UInt8) :
    (∀ max v, envScanU64 s max = .ok v ↔ Run s ∧ value s = v.toNat ∧ v.toNat ≤ max.toNat) ∧
    (∀ i, envScanI64 s = some i ↔ SignedRun s i) ∧
    (∀ n, rateLimitParse s = some n ↔
      Run s ∧ value s = n.toNat ∧ 1 ≤ n.toNat ∧ n.toNat ≤ 65535) ∧
    (∀ n, ppParsePort s = some n ↔ Run s ∧ value s = n.toNat ∧ n.toNat ≤ 65535) ∧
    (∀ front back, s = front ++ back →
      (∀ max v, (∀ c ∈ s, digit c = true) → envScanU64Loop max front 0 = some v →
        v.toNat = value front ∧ value front ≤ max.toNat) ∧
      (∀ v, envScanI64Loop front 0 = some v → v.toNat = value front ∧ value front < 2 ^ 64) ∧
      (∀ v, rateLimitParseLoop front 0 = some v → v.toNat = value front ∧ value front ≤ 65535) ∧
      ∀ v, ppParsePortLoop front 0 = some v → v.toNat = value front ∧ value front ≤ 65535) := by
  refine ⟨fun _ _ => envScanU64_eq_ok, fun _ => envScanI64_eq_some,
    fun _ => rateLimitParse_eq_some, fun _ => ppParsePort_eq_some, ?_⟩
  rintro front back rfl
  have exact_of {max n : Nat} (read : bounded max front 0 = some n) :
      n = value front ∧ value front ≤ max := by
    obtain ⟨_, same, low⟩ := (bounded_eq_some (Nat.zero_le max)).mp read
    exact ⟨same.symm, by rw [value, same]; exact low⟩
  refine ⟨?_, ?_, ?_, ?_⟩
  · intro max v digits read
    have front : ∀ c ∈ front, digit c = true := fun c member =>
      digits c (List.mem_append_left back member)
    exact exact_of (by rw [← UInt64.toNat_zero, ← envScanU64Loop_toNat front, read]; rfl)
  · intro v read
    have bound := exact_of (by rw [← UInt64.toNat_zero, ← envScanI64Loop_toNat, read]; rfl)
    exact ⟨bound.1, Nat.lt_of_le_of_lt bound.2 (by decide)⟩
  · intro v read
    exact exact_of (by rw [← UInt64.toNat_zero, ← rateLimitParseLoop_toNat, read]; rfl)
  · intro v read
    have bound := ppParsePortLoop_toNat front 0 (Nat.zero_le _)
    exact exact_of (by rw [← UInt64.toNat_zero, ← bound, read]; rfl)

end

end Iwan
