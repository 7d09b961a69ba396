import Mathlib

/- Items on a free list, with their user or held by somebody else. -/
namespace Custody

variable {α : Type}

/-- The free list, what is held, and whether an item in one of the two was released. -/
structure State (α : Type) where
  free : List α
  held : List α
  doubled : Bool

def State.take (c : State α) (max : Nat) : List α × State α :=
  (c.free.take max, { c with free := c.free.drop max })

def State.hand (c : State α) (item : α) : State α := { c with held := item :: c.held }

/-- Every item is in one place: with the owner, free or held. -/
structure Balanced (all own : List α) (c : State α) : Prop where
  each : (own ++ (c.free ++ c.held)).Perm all
  single : c.doubled = false

section

variable {all own : List α} {c : State α} {item : α}

theorem Balanced.take (balanced : Balanced all [] c) (max : Nat) :
    Balanced all (c.take max).1 (c.take max).2 where
  each := by
    have each := balanced.each
    rw [List.nil_append] at each
    rw [State.take, ← List.append_assoc, List.take_append_drop]
    exact each
  single := balanced.single

theorem Balanced.fresh (unique : all.Nodup) (balanced : Balanced all (item :: own) c) :
    item ∉ c.free ∧ item ∉ c.held := by
  have nodup := balanced.each.nodup_iff.mpr unique
  rw [List.cons_append, List.nodup_cons] at nodup
  constructor
  · exact fun member => nodup.1 (List.mem_append_right _ (List.mem_append_left _ member))
  · exact fun member => nodup.1 (List.mem_append_right _ (List.mem_append_right _ member))

theorem Balanced.hand (balanced : Balanced all (item :: own) c) :
    Balanced all own (c.hand item) where
  each := by
    refine List.Perm.trans ?_ balanced.each
    rw [State.hand, ← List.append_assoc, List.cons_append, ← List.append_assoc]
    exact List.perm_middle
  single := balanced.single

variable [DecidableEq α]

def State.release (c : State α) (item : α) : State α where
  free := item :: c.free
  held := c.held
  doubled := c.doubled || decide (item ∈ c.free) || decide (item ∈ c.held)

def State.releaseAll (c : State α) (items : List α) : State α := items.foldl State.release c

def State.giveBack (c : State α) (item : α) : State α :=
  if item ∈ c.held then
    { free := item :: c.free
      held := c.held.erase item
      doubled := c.doubled || decide (item ∈ c.free) }
  else c

def State.giveBacks (c : State α) (items : List α) : State α := items.foldl State.giveBack c

theorem Balanced.release (unique : all.Nodup) (balanced : Balanced all (item :: own) c) :
    Balanced all own (c.release item) where
  each := by
    refine List.Perm.trans ?_ balanced.each
    exact List.perm_middle
  single := by
    obtain ⟨free, held⟩ := balanced.fresh unique
    simp [State.release, balanced.single, free, held]

theorem Balanced.releaseAll (unique : all.Nodup) (balanced : Balanced all own c) :
    Balanced all [] (c.releaseAll own) := by
  induction own generalizing c with
  | nil => exact balanced
  | cons item own ih => exact ih (balanced.release unique)

theorem Balanced.giveBack (unique : all.Nodup) (balanced : Balanced all own c) (item : α) :
    Balanced all own (c.giveBack item) := by
  unfold State.giveBack
  split
  case isFalse => exact balanced
  case isTrue member =>
    constructor
    · refine List.Perm.trans ?_ balanced.each
      apply List.Perm.append_left
      refine List.perm_middle.symm.trans ?_
      exact (List.perm_cons_erase member).symm.append_left _
    · have nodup := (balanced.each.nodup_iff.mpr unique).of_append_right
      have fresh : item ∉ c.free := fun free => List.disjoint_of_nodup_append nodup free member
      simp [balanced.single, fresh]

theorem Balanced.giveBacks (unique : all.Nodup) (balanced : Balanced all own c) (items : List α) :
    Balanced all own (c.giveBacks items) := by
  induction items generalizing c with
  | nil => exact balanced
  | cons item items ih => exact ih (balanced.giveBack unique item)

end

end Custody
