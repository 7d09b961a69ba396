import Mathlib

/- The scan for the least item that passes a test. -/
namespace Least

variable {α : Type} (test : α → Bool) (less : α → α → Prop) [DecidableRel less]

def pick (best : Option α) (item : α) : Option α :=
  if test item then
    match best with
    | none => some item
    | some b => if less item b then some item else best
  else best

def scan (items : List α) : Option α := items.foldl (pick test less) none

def IsLeast (seen : List α) (best : Option α) : Prop :=
  (∀ b ∈ best, b ∈ seen ∧ test b = true ∧ ∀ a ∈ seen, test a = true → ¬ less a b) ∧
    (best = none → ∀ a ∈ seen, test a = false)

variable {test less}

section

variable (irrefl : ∀ a, ¬ less a a) (trans : ∀ {a b c}, less a b → less b c → less a c)

include irrefl trans

theorem IsLeast.pick {seen : List α} {best : Option α} (least : IsLeast test less seen best)
    (item : α) : IsLeast test less (seen ++ [item]) (pick test less best item) := by
  obtain ⟨chosen, none⟩ := least
  unfold Least.pick
  cases passes : test item with
  | false =>
    rw [if_neg Bool.false_ne_true]
    refine ⟨fun b here => ?_, fun empty a member => ?_⟩
    · obtain ⟨member, passed, least⟩ := chosen b here
      refine ⟨List.mem_append_left _ member, passed, fun a inside passed' => ?_⟩
      rcases List.mem_append.mp inside with inside | last
      · exact least a inside passed'
      · rw [List.mem_singleton.mp last, passes] at passed'
        cases passed'
    · rcases List.mem_append.mp member with inside | last
      · exact none empty a inside
      · rw [List.mem_singleton.mp last]
        exact passes
  | true =>
    rw [if_pos rfl]
    cases best with
    | none =>
      refine ⟨fun b here => ?_, nofun⟩
      cases here
      refine ⟨List.mem_append_right _ List.mem_cons_self, passes, fun a inside passed => ?_⟩
      rcases List.mem_append.mp inside with inside | last
      · rw [none rfl a inside] at passed
        cases passed
      · rw [List.mem_singleton.mp last]
        exact irrefl item
    | some b =>
      obtain ⟨member, passed, least⟩ := chosen b rfl
      by_cases before : less item b
      · dsimp only
        rw [if_pos before]
        refine ⟨fun c here => ?_, nofun⟩
        cases here
        refine ⟨List.mem_append_right _ List.mem_cons_self, passes, fun a inside passed => ?_⟩
        rcases List.mem_append.mp inside with inside | last
        · exact fun sooner => least a inside passed (trans sooner before)
        · rw [List.mem_singleton.mp last]
          exact irrefl item
      · dsimp only
        rw [if_neg before]
        refine ⟨fun c here => ?_, nofun⟩
        cases here
        refine ⟨List.mem_append_left _ member, passed, fun a inside passed => ?_⟩
        rcases List.mem_append.mp inside with inside | last
        · exact least a inside passed
        · rw [List.mem_singleton.mp last]
          exact before

theorem scan_isLeast (items : List α) : IsLeast test less items (scan test less items) := by
  have run : ∀ (items seen : List α) (best : Option α), IsLeast test less seen best →
      IsLeast test less (seen ++ items) (items.foldl (Least.pick test less) best) := by
    intro items
    induction items with
    | nil => exact fun seen best least => by rwa [List.append_nil]
    | cons item items ih =>
      intro seen best least
      have next := ih _ _ (least.pick irrefl trans item)
      rwa [List.append_assoc] at next
  exact run items [] none ⟨nofun, fun _ a member => absurd member List.not_mem_nil⟩

end

theorem scan_some {items : List α} {b : α} (found : scan test less items = some b)
    (irrefl : ∀ a, ¬ less a a) (trans : ∀ {a b c}, less a b → less b c → less a c) :
    b ∈ items ∧ test b = true ∧ ∀ a ∈ items, test a = true → ¬ less a b :=
  (scan_isLeast irrefl trans items).1 b found

end Least
