import Mathlib

/- Unordered pools kept in arrays. -/
namespace Pool

section

variable {α : Type} [DecidableEq α]

def swapRemove (items : List α) (item : α) : List α :=
  match items.getLast? with
  | none => items
  | some last => if item ∈ items then (items.set (items.idxOf item) last).dropLast else items

theorem swapRemove_perm {items : List α} {item : α} (member : item ∈ items) :
    (swapRemove items item).Perm (items.erase item) := by
  obtain ⟨front, back, rfl, fresh⟩ := List.eq_append_cons_of_mem member
  have index : (front ++ item :: back).idxOf item = front.length := by
    rw [List.idxOf_append_of_notMem fresh, List.idxOf_cons_self, Nat.add_zero]
  rw [List.erase_append_right _ fresh, List.erase_cons_head]
  rcases List.eq_nil_or_concat back with rfl | ⟨middle, last, rfl⟩
  · simp [swapRemove, index]
  · have whole : front ++ item :: middle.concat last = (front ++ item :: middle) ++ [last] := by
      simp
    have final : (front ++ item :: middle.concat last).getLast? = some last := by
      rw [whole, List.getLast?_concat]
    simp only [swapRemove, final, if_pos member, index]
    simp only [List.concat_eq_append]
    rw [List.set_append_right _ _ (Nat.le_refl _), Nat.sub_self, List.set_cons_zero,
      ← List.cons_append, ← List.append_assoc, List.dropLast_concat]
    exact (List.perm_append_left_iff front).mpr (List.perm_append_singleton last middle).symm

theorem swapRemove_nodup {items : List α} {item : α} (member : item ∈ items)
    (nodup : items.Nodup) : (swapRemove items item).Nodup :=
  (swapRemove_perm member).nodup_iff.mpr (nodup.erase item)

theorem mem_swapRemove {items : List α} {item other : α} (member : item ∈ items)
    (nodup : items.Nodup) : other ∈ swapRemove items item ↔ other ≠ item ∧ other ∈ items := by
  rw [(swapRemove_perm member).mem_iff, nodup.mem_erase_iff]

end

section

variable {α : Type}

theorem countP_write (test : α → Bool) {items : List α} {index : Nat} {old : α} (new : α)
    (here : items[index]? = some old) :
    (items.set index new).countP test + (if test old then 1 else 0) =
      items.countP test + (if test new then 1 else 0) := by
  obtain ⟨inside, rfl⟩ := List.getElem?_eq_some_iff.mp here
  rw [List.countP_set inside]
  cases held : test items[index] with
  | false => simp
  | true =>
    have positive : 0 < items.countP test :=
      List.countP_pos_iff.mpr ⟨_, List.getElem_mem inside, held⟩
    simp only [↓reduceIte]
    omega

end

end Pool
