import Mathlib

/- A fixed array of slots with an index from keys to slots. -/
namespace SlotIndex

open Function (update update_of_ne update_self)

variable {ι κ σ : Type}

/-- The index has the live slots and no others. -/
structure Exact (slots : ι → σ) (live : σ → Prop) (key : σ → κ) (index : κ → Option ι) : Prop where
  indexed : ∀ i, live (slots i) → index (key (slots i)) = some i
  backed : ∀ k i, index k = some i → live (slots i) ∧ key (slots i) = k

section

variable {slots : ι → σ} {live : σ → Prop} {key : σ → κ} {index : κ → Option ι}

theorem Exact.empty (dead : ∀ i, ¬ live (slots i)) : Exact slots live key (fun _ => none) := by
  refine ⟨fun i alive => absurd alive (dead i), ?_⟩
  intro k i found
  cases found

theorem Exact.lookup (exact : Exact slots live key index) (k : κ) (i : ι) :
    index k = some i ↔ live (slots i) ∧ key (slots i) = k := by
  constructor
  · exact exact.backed k i
  · rintro ⟨alive, rfl⟩
    exact exact.indexed i alive

theorem Exact.absent (exact : Exact slots live key index) (k : κ) :
    index k = none ↔ ∀ i, live (slots i) → key (slots i) ≠ k := by
  rw [Option.eq_none_iff_forall_ne_some]
  constructor
  · intro missing i alive same
    exact missing i ((exact.lookup k i).mpr ⟨alive, same⟩)
  · intro missing i found
    obtain ⟨alive, same⟩ := exact.backed k i found
    exact missing i alive same

theorem Exact.key_inj (exact : Exact slots live key index) (i j : ι) (alive : live (slots i))
    (alive' : live (slots j)) (same : key (slots i) = key (slots j)) : i = j := by
  have left := exact.indexed i alive
  rw [same, exact.indexed j alive'] at left
  exact (Option.some.inj left).symm

end

section

variable {slots : ι → σ} {live : σ → Prop} {key : σ → κ} {index : κ → Option ι} [DecidableEq ι]

theorem Exact.modify (exact : Exact slots live key index) (i : ι) (s : σ)
    (sameLive : live s ↔ live (slots i)) (sameKey : live s → key s = key (slots i)) :
    Exact (update slots i s) live key index := by
  constructor
  · intro j alive
    by_cases here : j = i
    · subst j
      rw [update_self] at alive ⊢
      rw [sameKey alive]
      exact exact.indexed i (sameLive.mp alive)
    · rw [update_of_ne here] at alive ⊢
      exact exact.indexed j alive
  · intro k j found
    obtain ⟨alive, same⟩ := exact.backed k j found
    by_cases here : j = i
    · subst j
      rw [update_self]
      have still := sameLive.mpr alive
      exact ⟨still, (sameKey still).trans same⟩
    · rw [update_of_ne here]
      exact ⟨alive, same⟩

variable [DecidableEq κ]

theorem Exact.erase (exact : Exact slots live key index) (i : ι) (s : σ)
    (alive : live (slots i)) (dead : ¬ live s) :
    Exact (update slots i s) live key
      (update index (key (slots i)) none) := by
  constructor
  · intro j alive'
    have other : j ≠ i := by
      rintro rfl
      rw [update_self] at alive'
      exact dead alive'
    rw [update_of_ne other] at alive' ⊢
    have apart : key (slots j) ≠ key (slots i) :=
      fun same => other (exact.key_inj j i alive' alive same)
    rw [update_of_ne apart]
    exact exact.indexed j alive'
  · intro k j found
    by_cases cleared : k = key (slots i)
    · rw [cleared, update_self] at found
      cases found
    · rw [update_of_ne cleared] at found
      obtain ⟨alive', same⟩ := exact.backed k j found
      have other : j ≠ i := by
        rintro rfl
        exact cleared same.symm
      rw [update_of_ne other]
      exact ⟨alive', same⟩

theorem Exact.insert (exact : Exact slots live key index) (i : ι) (s : σ)
    (free : ¬ live (slots i)) (fresh : index (key s) = none) (alive : live s) :
    Exact (update slots i s) live key (update index (key s) (some i)) := by
  constructor
  · intro j alive'
    by_cases here : j = i
    · subst j
      rw [update_self, update_self]
    · rw [update_of_ne here] at alive' ⊢
      rw [update_of_ne ((exact.absent _).mp fresh j alive')]
      exact exact.indexed j alive'
  · intro k j found
    by_cases new : k = key s
    · rw [new, update_self] at found
      obtain rfl := Option.some.inj found
      rw [update_self]
      exact ⟨alive, new.symm⟩
    · rw [update_of_ne new] at found
      obtain ⟨alive', same⟩ := exact.backed k j found
      have other : j ≠ i := by
        rintro rfl
        exact free alive'
      rw [update_of_ne other]
      exact ⟨alive', same⟩

end

end SlotIndex
