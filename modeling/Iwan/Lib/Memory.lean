import Mathlib

/- Cells of memory: copies and reads of intervals. -/
namespace Memory

variable {α : Type}

def copy (mem : Nat → α) (start : Nat) (data : List α) : Nat → α := fun i =>
  if start ≤ i then
    match data[i - start]? with
    | some a => a
    | none => mem i
  else mem i

def slice (mem : Nat → α) (start len : Nat) : List α :=
  (List.range len).map fun i => mem (start + i)

theorem slice_length (mem : Nat → α) (start len : Nat) : (slice mem start len).length = len := by
  rw [slice, List.length_map, List.length_range]

theorem slice_append (mem : Nat → α) (start front back : Nat) :
    slice mem start (front + back) = slice mem start front ++ slice mem (start + front) back := by
  rw [slice, List.range_add, List.map_append, List.map_map]
  refine congrArg (_ ++ ·) (List.map_congr_left fun i _ => ?_)
  show mem (start + (front + i)) = mem (start + front + i)
  rw [Nat.add_assoc]

theorem slice_copy (mem : Nat → α) (start : Nat) (data : List α) (skip len : Nat)
    (inside : skip + len ≤ data.length) :
    slice (copy mem start data) (start + skip) len = (data.drop skip).take len := by
  apply List.ext_getElem
  · rw [slice_length, List.length_take, List.length_drop]
    omega
  · intro i here there
    rw [slice_length] at here
    have bound : skip + i < data.length := by omega
    simp only [slice, List.getElem_map, List.getElem_range, List.getElem_take, List.getElem_drop]
    have index : start + skip + i - start = skip + i := by omega
    rw [copy, if_pos (by omega), index, List.getElem?_eq_getElem bound]

end Memory
