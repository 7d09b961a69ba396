import Iwan.Lib.Decimal
import Iwan.Lib.Span
import Iwan.Json.Correct

/- Paths into a JSON tree. -/
namespace Iwan

open Decimal (digit next value digit_sub_le)

variable {D : Type}

def Json.select (v : Json D) (seg : List UInt8) : Option (Json D) :=
  match v with
  | .obj _ => v.member seg
  | .arr items => if seg.all digit then items[value seg]? else none
  | _ => none

def Json.overlong (v : Json D) (seg : List UInt8) : Bool :=
  match v with
  | .arr _ => 20 ≤ seg.length
  | _ => 64 ≤ seg.length

def Json.follow (v : Json D) (seg : List UInt8) : Option (Json D) :=
  if v.overlong seg then none else v.select seg

theorem jsonIndex_exact {seg : List UInt8} {idx k : Nat} (digits : ∀ c ∈ seg, digit c = true)
    (small : idx < 10 ^ k) (short : k + seg.length < 20) :
    jsonIndex seg idx = some (seg.foldl next idx) := by
  induction seg generalizing idx k with
  | nil => rfl
  | cons c seg ih =>
    rw [List.length_cons] at short
    have low := digit_sub_le (digits c List.mem_cons_self)
    have bound : 10 ^ k ≤ 10 ^ 18 := Nat.pow_le_pow_right (by omega) (by omega)
    have pass : ¬ (sizeMax - 9) / 10 < idx := by
      simp only [sizeMax]
      omega
    have step : next idx c < 10 ^ (k + 1) := by
      rw [next, pow_succ]
      omega
    rw [jsonIndex, if_neg pass, List.foldl_cons]
    exact ih (fun d member => digits d (List.mem_cons_of_mem c member)) step (by omega)

theorem jsonGetSegment_eq_follow {seg : List UInt8} (v : Json D) (filled : seg ≠ []) :
    jsonGetSegment v seg = v.follow seg := by
  unfold jsonGetSegment
  rw [if_neg filled]
  cases v with
  | arr items =>
    have keyless : jsonObjGet (.arr items : Json D) seg = none := rfl
    simp only [Json.follow, Json.overlong, Json.select, keyless, ite_self, decide_eq_true_eq]
    change (if seg.all digit = true then _ else _) = _
    by_cases digits : seg.all digit = true
    · rw [if_pos digits, if_pos digits]
      by_cases short : 20 ≤ seg.length
      · rw [if_pos short, if_pos short]
      · rw [if_neg short, if_neg short,
          jsonIndex_exact (k := 0) (List.all_eq_true.mp digits) (by simp) (by omega)]
        rfl
    · rw [if_neg digits, if_neg digits, ite_self]
  | obj items =>
    simp [Json.follow, Json.overlong, Json.select, jsonObjGet_eq_member]
  | _ => simp [Json.follow, Json.overlong, Json.select, jsonObjGet]

end Iwan
