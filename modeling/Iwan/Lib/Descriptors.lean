import Mathlib

/- A process's table of open files. -/
namespace Descriptors

open Function (update update_of_ne update_self)

/-- The table, the next file, the files taken over and those closed. -/
structure Ledger where
  table : Nat → Option Nat
  next : Nat
  taken : List Nat
  closed : List Nat

def Ledger.openOther (l : Ledger) (n : Nat) : Ledger :=
  if l.table n = none then
    { l with table := update l.table n (some l.next), next := l.next + 1 }
  else l

def Ledger.closeOther (l : Ledger) (base n : Nat) : Ledger :=
  match l.table n with
  | none => l
  | some file =>
    if file ∈ base :: l.taken then l else { l with table := update l.table n none }

def Ledger.attach (l : Ledger) (n : Nat) : Ledger where
  table := update l.table n (some l.next)
  next := l.next + 1
  taken := l.taken ++ [l.next]
  closed := l.closed

def Ledger.close (l : Ledger) (n : Nat) : Ledger :=
  match l.table n with
  | none => l
  | some file =>
    { l with table := update l.table n none, closed := l.closed ++ [file] }

/-- The owner has the base file and the extra ones, and has closed all others. -/
structure Holds (base : Nat × Nat) (extra : List (Nat × Nat)) (l : Ledger) : Prop where
  unique : (base.2 :: l.taken).Nodup
  split : (l.closed ++ extra.map Prod.snd).Perm l.taken
  opened : ∀ q ∈ base :: extra, l.table q.1 = some q.2
  fresh : ∀ file ∈ base.2 :: l.taken, file < l.next

section

variable {base q : Nat × Nat} {extra : List (Nat × Nat)} {l : Ledger}

theorem Holds.perm {extra' : List (Nat × Nat)} (holds : Holds base extra l)
    (same : extra.Perm extra') : Holds base extra' l where
  unique := holds.unique
  split := ((same.symm.map Prod.snd).append_left _).trans holds.split
  opened := fun q member => holds.opened q (by
    rcases List.mem_cons.mp member with rfl | member
    · exact List.mem_cons_self
    · exact List.mem_cons_of_mem _ (same.mem_iff.mpr member))
  fresh := holds.fresh

theorem Holds.live (holds : Holds base extra l) (member : q ∈ base :: extra) :
    l.table q.1 = some q.2 ∧ q.2 ∈ base.2 :: l.taken ∧ q.2 ∉ l.closed := by
  refine ⟨holds.opened q member, ?_, ?_⟩
  · rcases List.mem_cons.mp member with rfl | member
    · exact List.mem_cons_self
    · exact List.mem_cons_of_mem _ (holds.split.subset
        (List.mem_append_right _ (List.mem_map_of_mem member)))
  · intro closed
    rcases List.mem_cons.mp member with rfl | member
    · exact (List.nodup_cons.mp holds.unique).1
        (holds.split.subset (List.mem_append_left _ closed))
    · have nodup := holds.split.nodup_iff.mpr (List.nodup_cons.mp holds.unique).2
      exact List.disjoint_of_nodup_append nodup closed (List.mem_map_of_mem member)

theorem Holds.apart (holds : Holds base (q :: extra) l) {p : Nat × Nat}
    (member : p ∈ base :: extra) : p.1 ≠ q.1 := by
  intro same
  have here := holds.opened q (List.mem_cons_of_mem _ List.mem_cons_self)
  have there : l.table p.1 = some p.2 := holds.opened p (by
    rcases List.mem_cons.mp member with rfl | member
    · exact List.mem_cons_self
    · exact List.mem_cons_of_mem _ (List.mem_cons_of_mem _ member))
  rw [same, here] at there
  have files : q.2 = p.2 := Option.some.inj there
  have nodup := holds.split.nodup_iff.mpr (List.nodup_cons.mp holds.unique).2
  rcases List.mem_cons.mp member with rfl | member
  · refine (List.nodup_cons.mp holds.unique).1 (holds.split.subset (List.mem_append_right _ ?_))
    rw [← files]
    exact List.mem_cons_self
  · have alone := (List.nodup_cons.mp nodup.of_append_right).1
    rw [files] at alone
    exact alone (List.mem_map_of_mem member)

theorem Holds.close (holds : Holds base (q :: extra) l) : Holds base extra (l.close q.1) := by
  have here := holds.opened q (List.mem_cons_of_mem _ List.mem_cons_self)
  unfold Ledger.close
  rw [here]
  refine ⟨holds.unique, ?_, fun p member => ?_, holds.fresh⟩
  · have split := holds.split
    rw [List.map_cons] at split
    rw [List.append_assoc]
    exact split
  · have apart := holds.apart member
    change update l.table q.1 none p.1 = _
    rw [update_of_ne apart]
    refine holds.opened p ?_
    rcases List.mem_cons.mp member with rfl | member
    · exact List.mem_cons_self
    · exact List.mem_cons_of_mem _ (List.mem_cons_of_mem _ member)

theorem Holds.attach (holds : Holds base extra l) {n : Nat} (free : l.table n = none) :
    Holds base ((n, l.next) :: extra) (l.attach n) where
  unique := by
    have fresh : l.next ∉ base.2 :: l.taken := fun member =>
      Nat.lt_irrefl _ (holds.fresh _ member)
    change (base.2 :: (l.taken ++ [l.next])).Nodup
    rw [← List.cons_append, List.nodup_append]
    refine ⟨holds.unique, List.nodup_singleton _, fun a member b last => ?_⟩
    rw [List.mem_singleton.mp last]
    rintro rfl
    exact fresh member
  split := by
    change (l.closed ++ (l.next :: extra.map Prod.snd)).Perm (l.taken ++ [l.next])
    refine List.perm_middle.trans ?_
    exact (holds.split.cons l.next).trans (List.perm_append_singleton _ _).symm
  opened := by
    intro p member
    change update l.table n (some l.next) p.1 = _
    rcases List.mem_cons.mp member with rfl | member
    · have open' := holds.opened _ List.mem_cons_self
      rw [update_of_ne (fun same => by rw [same, free] at open'; cases open')]
      exact open'
    · rcases List.mem_cons.mp member with rfl | member
      · exact update_self _ _ _
      · have open' := holds.opened p (List.mem_cons_of_mem _ member)
        rw [update_of_ne (fun same => by rw [same, free] at open'; cases open')]
        exact open'
  fresh := by
    intro file member
    change file < l.next + 1
    have either : file ∈ base.2 :: l.taken ∨ file = l.next := by
      rcases List.mem_cons.mp member with rfl | member
      · exact .inl List.mem_cons_self
      · rcases List.mem_append.mp member with member | last
        · exact .inl (List.mem_cons_of_mem _ member)
        · exact .inr (List.mem_singleton.mp last)
    rcases either with old | rfl
    · exact Nat.lt_succ_of_lt (holds.fresh file old)
    · exact Nat.lt_succ_self _

theorem Holds.openOther (holds : Holds base extra l) (n : Nat) :
    Holds base extra (l.openOther n) := by
  unfold Ledger.openOther
  split
  · next free =>
    refine ⟨holds.unique, holds.split, fun p member => ?_, fun file member => ?_⟩
    · have open' := holds.opened p member
      change update l.table n (some l.next) p.1 = _
      rw [update_of_ne (fun same => by rw [same, free] at open'; cases open')]
      exact open'
    · exact Nat.lt_succ_of_lt (holds.fresh file member)
  · exact holds

theorem Holds.closeOther (holds : Holds base extra l) (n : Nat) :
    Holds base extra (l.closeOther base.2 n) := by
  unfold Ledger.closeOther
  split
  · exact holds
  · next file open' =>
    split
    · exact holds
    · next foreign =>
      refine ⟨holds.unique, holds.split, fun p member => ?_, holds.fresh⟩
      obtain ⟨here, owned, _⟩ := holds.live member
      change update l.table n none p.1 = _
      rw [update_of_ne]
      · exact here
      · intro same
        rw [same, open'] at here
        cases here
        exact foreign owned

end

end Descriptors
