import Mathlib

/- Lists cut at the index of an item. -/
namespace Index

variable {α : Type} [DecidableEq α] {s a : List α} {c : α}

theorem findIdx_front (b : List α) (plain : c ∉ a) :
    (a ++ c :: b).findIdx (· = c) = a.length := by
  induction a with
  | nil => simp [List.findIdx_cons]
  | cons d a ih =>
    obtain ⟨other, rest⟩ := not_or.mp (List.mem_cons.not.mp plain)
    simp [List.findIdx_cons, Ne.symm other, ih rest]

theorem lt_findIdx {d : α} (b : List α) (plain : c ∉ a) (other : d ≠ c) :
    a.length < (a ++ d :: b).findIdx (· = c) := by
  induction a with
  | nil => simp [List.findIdx_cons, other]
  | cons x a ih =>
    obtain ⟨differs, rest⟩ := not_or.mp (List.mem_cons.not.mp plain)
    simp [List.findIdx_cons, Ne.symm differs, ih rest]

theorem findIdx_missing (missing : c ∉ s) : s.findIdx (· = c) = s.length := by
  refine List.findIdx_eq_length.mpr fun x member => ?_
  rw [decide_eq_false]
  rintro rfl
  exact missing member

theorem findIdx_cut (s : List α) (c : α) :
    (c ∉ s ∧ s.findIdx (· = c) = s.length) ∨
      ∃ a b, s = a ++ c :: b ∧ c ∉ a ∧ s.findIdx (· = c) = a.length := by
  by_cases member : c ∈ s
  · obtain ⟨a, b, rfl, plain⟩ := List.eq_append_cons_of_mem member
    exact .inr ⟨a, b, rfl, plain, findIdx_front b plain⟩
  · exact .inl ⟨member, findIdx_missing member⟩

end Index
