import Mathlib

/- A ring of cells with a head and a count. -/
namespace Circular

variable {α : Type}

/-- A circular buffer. -/
structure Belt (α : Type) where
  cell : Nat → α
  head : Nat
  count : Nat

variable (cap : Nat)

def Belt.pos (r : Belt α) (k : Nat) : Nat := (r.head + k) % cap

def Belt.view (r : Belt α) : List α := (List.range r.count).map fun k => r.cell (r.pos cap k)

def Belt.push (r : Belt α) (a : α) : Belt α :=
  { r with cell := Function.update r.cell (r.pos cap r.count) a, count := r.count + 1 }

def Belt.pop (r : Belt α) : Belt α :=
  { r with head := (r.head + 1) % cap, count := r.count - 1 }

variable {cap}

theorem pos_ne (r : Belt α) {i k : Nat} (before : i < k) (turn : k < i + cap) :
    r.pos cap i ≠ r.pos cap k := by
  intro same
  have split : r.head + k = (r.head + i) + (k - i) := by omega
  have equal : (r.head + i) % cap = ((r.head + i) + (k - i)) % cap := split ▸ same
  have divides : cap ∣ k - i := by
    have shifted := (Nat.modEq_iff_dvd' (Nat.le_add_right (r.head + i) (k - i))).mp equal
    rwa [Nat.add_sub_cancel_left] at shifted
  have far := Nat.le_of_dvd (by omega) divides
  omega

theorem view_length (r : Belt α) : (r.view cap).length = r.count := by
  rw [Belt.view, List.length_map, List.length_range]

theorem view_push (r : Belt α) (a : α) (room : r.count < cap) :
    (r.push cap a).view cap = r.view cap ++ [a] := by
  unfold Belt.view
  rw [show (r.push cap a).count = r.count + 1 from rfl, List.range_succ, List.map_append,
    List.map_singleton]
  have last : (r.push cap a).cell ((r.push cap a).pos cap r.count) = a :=
    Function.update_self _ _ _
  rw [last]
  congr 1
  refine List.map_congr_left fun k inside => ?_
  have before := List.mem_range.mp inside
  exact Function.update_of_ne (pos_ne r before (by omega)) _ _

theorem pos_pop (r : Belt α) (k : Nat) : (r.pop cap).pos cap k = r.pos cap (k + 1) := by
  show ((r.head + 1) % cap + k) % cap = (r.head + (k + 1)) % cap
  rw [Nat.mod_add_mod, Nat.add_assoc, Nat.add_comm 1 k]

theorem view_pop (r : Belt α) (present : 0 < r.count) :
    r.view cap = r.cell (r.pos cap 0) :: (r.pop cap).view cap := by
  obtain ⟨n, count⟩ : ∃ n, r.count = n + 1 := ⟨r.count - 1, by omega⟩
  unfold Belt.view
  rw [show (r.pop cap).count = n by show r.count - 1 = n; omega, count,
    List.range_succ_eq_map, List.map_cons, List.map_map]
  refine congrArg (_ :: ·) (List.map_congr_left fun k _ => ?_)
  show r.cell (r.pos cap (k + 1)) = r.cell ((r.pop cap).pos cap k)
  rw [pos_pop]

end Circular
