import Iwan.Lib.Descriptors
import Iwan.Lib.Trace

/- The queues of the TUN device (tun.c). One step is one access to shared data. -/
namespace Iwan

open Descriptors
open Function (update update_of_ne update_self)

/-- Where a call of tun_pool_write stands. -/
inductive TunWriter where
  | idle
  | locked (tid : Nat)
  | loaded (slot : Nat)
  | chosen (slot : Nat)
  | writing (slot fd : Nat) (file : Option Nat)
deriving DecidableEq, Repr

/-- Where a new queue comes from. -/
inductive TunSource where
  | pre (rest : List (Nat × Nat))
  | attach (target : Nat) (creating : Bool)
deriving DecidableEq, Repr

/-- Where the thread that owns the pool stands in create, tick or destroy. -/
inductive TunOwner where
  | prefill (rest : List (Nat × Nat))
  | leftover (rest : List (Nat × Nat))
  | grow (target : Nat) (creating : Bool)
  | attached (target : Nat) (creating : Bool) (q : Nat × Nat)
  | filled (source : TunSource) (q : Nat × Nat)
  | spawned (source : TunSource) (q : Nat × Nat)
  | idle
  | shrink (target : Nat)
  | stopping (target i : Nat)
  | joining (target i : Nat)
  | locking (target i : Nat)
  | closing (target i : Nat)
  | unlocking (target : Nat)
  | endStop (i : Nat)
  | endJoin (i : Nat)
  | endLock
  | endClose (i : Nat)
  | endUnlock
  | finished
deriving DecidableEq, Repr

/-- The pool with its threads. `fd` and `file` are the queues' descriptors and what they stand for.
-/
structure TunPool where
  ledger : Ledger
  fd : Nat → Nat
  file : Nat → Nat
  stop : Nat → Bool
  dead : Nat → Bool
  running : Nat → Bool
  nq : Nat
  maxq : Nat
  initq : Nat
  slowStart : Bool
  idleCycles : Nat
  owner : TunOwner
  writers : List TunWriter

/-- The busy share of a tick, against its two thresholds. -/
inductive BusyReading where
  | high
  | low
  | between
deriving DecidableEq, Repr

/-- Whether a call of the owner succeeds, and the descriptor it returns. -/
structure TunChoice where
  ok : Bool
  fd : Nat
deriving DecidableEq, Repr

inductive TunEvent where
  | write (writer tid : Nat)
  | readerExit (slot : Nat) (lost : Bool)
  | tick (busy : BusyReading)
  | destroy
  | owner (choice : TunChoice)
  | openOther (fd : Nat)
  | closeOther (fd : Nat)
deriving DecidableEq, Repr

/-- A new write can start: the pool exists and its lock is free. -/
def TunOwner.accepts : TunOwner → Bool
  | .prefill _ => false
  | .leftover _ => false
  | .grow _ creating => !creating
  | .attached _ creating _ => !creating
  | .filled (.pre _) _ => false
  | .filled (.attach _ creating) _ => !creating
  | .spawned (.pre _) _ => false
  | .spawned (.attach _ creating) _ => !creating
  | .idle => true
  | .shrink _ => true
  | .stopping _ _ => true
  | .joining _ _ => true
  | .locking _ _ => true
  | .closing _ _ => false
  | .unlocking _ => false
  | .endStop _ => false
  | .endJoin _ => false
  | .endLock => false
  | .endClose _ => false
  | .endUnlock => false
  | .finished => false

def TunPool.setWriter (s : TunPool) (writer : Nat) (w : TunWriter) : TunPool :=
  { s with writers := s.writers.set writer w }

def tunPoolWrite (s : TunPool) (writer tid : Nat) : TunPool :=
  match s.writers[writer]? with
  | none => s
  | some .idle => if s.owner.accepts then s.setWriter writer (.locked tid) else s
  | some (.locked tid) =>
    if s.nq = 0 then s.setWriter writer .idle else s.setWriter writer (.loaded (tid % s.nq))
  | some (.loaded slot) =>
    if s.stop slot then s.setWriter writer .idle else s.setWriter writer (.chosen slot)
  | some (.chosen slot) =>
    s.setWriter writer (.writing slot (s.fd slot) (s.ledger.table (s.fd slot)))
  | some (.writing _ _ _) => s.setWriter writer .idle

def tickTarget (s : TunPool) (busy : BusyReading) : Nat × Bool × Nat :=
  match busy with
  | .high =>
    if s.slowStart then (s.nq * 2, decide (s.nq * 2 < 4), 0) else (s.nq + 1, false, 0)
  | .low =>
    if 4 ≤ s.idleCycles + 1 ∧ 1 < s.nq then (max (s.nq / 2) 1, s.slowStart, 0)
    else (s.nq, s.slowStart, s.idleCycles + 1)
  | .between => (s.nq, s.slowStart, 0)

def tunPoolTick (s : TunPool) (busy : BusyReading) : TunPool :=
  if s.owner ≠ .idle then s
  else if (List.range s.nq).any s.dead then s
  else
    let (target, slowStart, idleCycles) := tickTarget s busy
    { s with slowStart, idleCycles, owner := .grow (min target s.maxq) false }

def tunPoolDestroy (s : TunPool) : TunPool :=
  if s.owner = .idle ∧ ∀ w ∈ s.writers, w = .idle then { s with owner := .endStop 0 } else s

def TunPool.grown (s : TunPool) (target : Nat) (creating : Bool) : TunPool :=
  { s with owner := if creating then .idle else .shrink target }

def TunPool.fill (s : TunPool) (source : TunSource) (q : Nat × Nat) : TunPool :=
  { s with
    fd := update s.fd s.nq q.1
    file := update s.file s.nq q.2
    stop := update s.stop s.nq false
    dead := update s.dead s.nq false
    owner := .filled source q }

def TunPool.close (s : TunPool) (fd : Nat) : TunPool := { s with ledger := s.ledger.close fd }

/-- The owner's next access: create_pre, the resize of a tick, and destroy. -/
def tunOwnerStep (s : TunPool) (choice : TunChoice) : TunPool :=
  match s.owner with
  | .prefill [] => { s with owner := .leftover [] }
  | .prefill (q :: rest) =>
    if s.nq < s.initq ∧ s.nq < s.maxq ∧ choice.ok then s.fill (.pre rest) q
    else { s with owner := .leftover (q :: rest) }
  | .leftover [] => { s with owner := .grow s.initq true }
  | .leftover (q :: rest) => { s.close q.1 with owner := .leftover rest }
  | .grow target creating =>
    if s.nq < target ∧ s.nq < s.maxq ∧ choice.ok ∧ s.ledger.table choice.fd = none then
      { s with
        ledger := s.ledger.attach choice.fd
        owner := .attached target creating (choice.fd, s.ledger.next) }
    else s.grown target creating
  | .attached target creating q =>
    if s.nq < s.maxq ∧ choice.ok then s.fill (.attach target creating) q
    else (s.close q.1).grown target creating
  | .filled (.pre rest) q =>
    if choice.ok then
      { s with running := update s.running s.nq true, owner := .spawned (.pre rest) q }
    else { s with owner := .leftover (q :: rest) }
  | .filled (.attach target creating) q =>
    if choice.ok then
      { s with
        running := update s.running s.nq true
        owner := .spawned (.attach target creating) q }
    else (s.close q.1).grown target creating
  | .spawned (.pre rest) _ => { s with nq := s.nq + 1, owner := .prefill rest }
  | .spawned (.attach target creating) _ =>
    { s with nq := s.nq + 1, owner := .grow target creating }
  | .idle => s
  | .shrink target =>
    if target < s.nq ∧ 1 < s.nq then
      { s with
        stop := update s.stop (s.nq - 1) true
        owner := .stopping target (s.nq - 1) }
    else { s with owner := .idle }
  | .stopping target i => { s with nq := i, owner := .joining target i }
  | .joining target i => if s.running i then s else { s with owner := .locking target i }
  | .locking target i =>
    if ∀ w ∈ s.writers, w = .idle then { s with owner := .closing target i } else s
  | .closing target i => { s.close (s.fd i) with owner := .unlocking target }
  | .unlocking target => { s with owner := .shrink target }
  | .endStop i =>
    if i < s.nq then
      { s with stop := update s.stop i true, owner := .endStop (i + 1) }
    else { s with owner := .endJoin 0 }
  | .endJoin i =>
    if i < s.nq then
      if s.running i then s else { s with owner := .endJoin (i + 1) }
    else { s with owner := .endLock }
  | .endLock => if ∀ w ∈ s.writers, w = .idle then { s with owner := .endClose 1 } else s
  | .endClose i =>
    if i < s.nq then { s.close (s.fd i) with owner := .endClose (i + 1) }
    else { s with owner := .endUnlock }
  | .endUnlock => { s with owner := .finished }
  | .finished => s

def tunReaderExit (s : TunPool) (slot : Nat) (lost : Bool) : TunPool :=
  if s.running slot then
    { s with
      running := update s.running slot false
      dead := update s.dead slot (s.dead slot || (lost && !s.stop slot)) }
  else s

def TunPool.pair (s : TunPool) (i : Nat) : Nat × Nat := (s.fd i, s.file i)

def tunStep (s : TunPool) : TunEvent → TunPool × List Empty
  | .write writer tid => (tunPoolWrite s writer tid, [])
  | .readerExit slot lost => (tunReaderExit s slot lost, [])
  | .tick busy => (tunPoolTick s busy, [])
  | .destroy => (tunPoolDestroy s, [])
  | .owner choice => (tunOwnerStep s choice, [])
  | .openOther fd => ({ s with ledger := s.ledger.openOther fd }, [])
  | .closeOther fd => ({ s with ledger := s.ledger.closeOther (s.file 0) fd }, [])

def tunPoolMax : Nat := 8

/-- The pool in tun_pool_create_pre behind the start of the first reader. -/
def TunPool.create (table : Nat → Option Nat) (next : Nat) (base : Nat × Nat)
    (prefds : List (Nat × Nat)) (maxq initq writers : Nat) : TunPool where
  ledger := ⟨table, next, prefds.map Prod.snd, []⟩
  fd := fun _ => base.1
  file := fun _ => base.2
  stop := fun _ => false
  dead := fun _ => false
  running := fun i => i == 0
  nq := 1
  maxq := min (max maxq 1) tunPoolMax
  initq := min initq (min (max maxq 1) tunPoolMax)
  slowStart := true
  idleCycles := 0
  owner := .prefill prefds
  writers := List.replicate writers .idle

/-- The queues that have a descriptor, besides the first. -/
def TunOwner.slots : TunOwner → Nat → List Nat
  | .joining _ _, nq => List.range' 1 nq
  | .locking _ _, nq => List.range' 1 nq
  | .closing _ _, nq => List.range' 1 nq
  | .endClose i, nq => List.range' i (nq - i)
  | .endUnlock, _ => []
  | .finished, _ => []
  | _, nq => List.range' 1 (nq - 1)

/-- Descriptors in the owner's hands that are in no queue. -/
def TunOwner.pending : TunOwner → List (Nat × Nat)
  | .prefill rest => rest
  | .leftover rest => rest
  | .attached _ _ q => [q]
  | .filled (.pre rest) q => q :: rest
  | .filled (.attach _ _) q => [q]
  | .spawned (.pre rest) q => q :: rest
  | .spawned (.attach _ _) q => [q]
  | _ => []

def TunPool.slots (s : TunPool) : List Nat := s.owner.slots s.nq

def TunPool.extra (s : TunPool) : List (Nat × Nat) := s.owner.pending ++ s.slots.map s.pair

def TunPool.OwnerOk (s : TunPool) : Prop :=
  match s.owner with
  | .filled _ q => s.pair s.nq = q
  | .spawned _ q => s.pair s.nq = q
  | .stopping _ i => 1 ≤ i ∧ i + 1 = s.nq
  | .joining _ i => i = s.nq
  | .locking _ i => i = s.nq
  | .closing _ i => i = s.nq
  | .endClose i => 1 ≤ i ∧ i ≤ s.nq
  | _ => True

def TunPool.WriterOk (s : TunPool) : TunWriter → Prop
  | .idle => True
  | .locked _ => True
  | .loaded slot => slot ∈ 0 :: s.slots
  | .chosen slot => slot ∈ 0 :: s.slots
  | .writing slot fd file => slot ∈ 0 :: s.slots ∧ fd = s.fd slot ∧ file = some (s.file slot)

/-- Each descriptor of the pool is open and stands for a file of its own, and a writer is in a queue
that has one; no write runs while descriptors are closed. -/
structure TunPool.Sound (base : Nat × Nat) (s : TunPool) : Prop where
  some : 1 ≤ s.nq
  zero : s.pair 0 = base
  holds : Holds base s.extra s.ledger
  place : s.OwnerOk
  writers : ∀ w ∈ s.writers, s.WriterOk w
  alone : s.owner.accepts = false → ∀ w ∈ s.writers, w = .idle

section

variable {base : Nat × Nat} {s : TunPool}

theorem TunPool.WriterOk.mono {t : TunPool} {w : TunWriter} (ok : s.WriterOk w)
    (kept : ∀ i ∈ 0 :: s.slots, i ∈ 0 :: t.slots ∧ t.pair i = s.pair i) : t.WriterOk w := by
  cases w with
  | loaded slot => exact (kept slot ok).1
  | chosen slot => exact (kept slot ok).1
  | writing slot fd file =>
    obtain ⟨inside, isFd, isFile⟩ := ok
    obtain ⟨still, same⟩ := kept slot inside
    refine ⟨still, ?_, ?_⟩
    · exact isFd.trans (congrArg Prod.fst same).symm
    · exact isFile.trans (congrArg Option.some (congrArg Prod.snd same).symm)
  | _ => trivial

theorem TunPool.Sound.move (sound : s.Sound base) {old : TunOwner} (here : s.owner = old)
    (owner : TunOwner) (slots : owner.slots s.nq = old.slots s.nq)
    (pending : owner.pending = old.pending) (place : TunPool.OwnerOk { s with owner })
    (alone : owner.accepts = false → ∀ w ∈ s.writers, w = .idle) :
    TunPool.Sound base { s with owner } := by
  subst here
  have extra : TunPool.extra { s with owner } = s.extra := by
    change owner.pending ++ (owner.slots s.nq).map s.pair = _
    rw [slots, pending]
    rfl
  refine ⟨sound.some, sound.zero, extra ▸ sound.holds, place, fun w member => ?_, alone⟩
  refine (sound.writers w member).mono fun i inside => ⟨?_, rfl⟩
  change i ∈ 0 :: owner.slots s.nq
  rw [slots]
  exact inside

theorem TunPool.Sound.setWriter (sound : s.Sound base) (writer : Nat) {w : TunWriter}
    (ok : s.WriterOk w) (alone : s.owner.accepts = false → w = .idle) :
    (s.setWriter writer w).Sound base where
  some := sound.some
  zero := sound.zero
  holds := sound.holds
  place := sound.place
  writers := by
    intro other member
    rcases List.mem_or_eq_of_mem_set member with old | rfl
    · exact sound.writers other old
    · exact ok
  alone := by
    intro closed other member
    rcases List.mem_or_eq_of_mem_set member with old | rfl
    · exact sound.alone closed other old
    · exact alone closed

theorem TunPool.Sound.mem_slots (sound : s.Sound base) {i : Nat} (member : i ∈ 0 :: s.slots) :
    s.pair i ∈ base :: s.extra := by
  rcases List.mem_cons.mp member with rfl | member
  · rw [sound.zero]
    exact List.mem_cons_self
  · exact List.mem_cons_of_mem _ (List.mem_append_right _ (List.mem_map_of_mem member))

theorem TunOwner.mem_slots {owner : TunOwner} (accepts : owner.accepts = true) {nq i : Nat}
    (below : i < nq) : i ∈ 0 :: owner.slots nq := by
  have inside : ∀ n, nq - 1 ≤ n → i ∈ 0 :: List.range' 1 n := by
    intro n enough
    rw [List.mem_cons, List.mem_range'_1]
    omega
  cases owner with
  | joining target i => exact inside nq (Nat.sub_le _ _)
  | locking target i => exact inside nq (Nat.sub_le _ _)
  | closing target i => cases accepts
  | endClose i => cases accepts
  | endUnlock => cases accepts
  | finished => cases accepts
  | _ => exact inside (nq - 1) (Nat.le_refl _)

theorem tunPoolWrite_sound (sound : s.Sound base) (writer tid : Nat) :
    (tunPoolWrite s writer tid).Sound base := by
  unfold tunPoolWrite
  split
  · exact sound
  · split
    · next open' =>
      refine sound.setWriter writer trivial fun closed => ?_
      rw [open'] at closed
      cases closed
    · exact sound
  · next old here =>
    have busy : s.owner.accepts = true := by
      cases accepts : s.owner.accepts with
      | true => rfl
      | false => cases sound.alone accepts _ (List.mem_of_getElem? here)
    split
    · exact sound.setWriter writer trivial fun _ => rfl
    · refine sound.setWriter writer ?_ fun closed => ?_
      · exact TunOwner.mem_slots busy (Nat.mod_lt _ sound.some)
      · rw [busy] at closed
        cases closed
  · next slot here =>
    have ok := sound.writers _ (List.mem_of_getElem? here)
    split
    · exact sound.setWriter writer trivial fun _ => rfl
    · refine sound.setWriter writer ok fun closed => ?_
      cases sound.alone closed _ (List.mem_of_getElem? here)
  · next slot here =>
    have ok : slot ∈ 0 :: s.slots := sound.writers _ (List.mem_of_getElem? here)
    refine sound.setWriter writer ⟨ok, rfl, ?_⟩ fun closed => ?_
    · exact (sound.holds.live (sound.mem_slots ok)).1
    · cases sound.alone closed _ (List.mem_of_getElem? here)
  · exact sound.setWriter writer trivial fun _ => rfl

theorem TunPool.Sound.flags (sound : s.Sound base) (stop dead running : Nat → Bool) :
    TunPool.Sound base { s with stop, dead, running } :=
  ⟨sound.some, sound.zero, sound.holds, sound.place, sound.writers, sound.alone⟩

def TunOwner.Steady (owner : TunOwner) : Prop := ∀ nq, owner.slots nq = List.range' 1 (nq - 1)

theorem range_append {nq : Nat} (some : 1 ≤ nq) :
    List.range' 1 nq = List.range' 1 (nq - 1) ++ [nq] := by
  obtain ⟨n, rfl⟩ : ∃ n, nq = n + 1 := ⟨nq - 1, by omega⟩
  rw [List.range'_1_concat, Nat.add_sub_cancel, Nat.add_comm]

variable {q : Nat × Nat}

theorem TunPool.Sound.fill (sound : s.Sound base) {source : TunSource}
    (steady : s.owner.Steady) (pending : (TunOwner.filled source q).pending = s.owner.pending)
    (accepts : (TunOwner.filled source q).accepts = s.owner.accepts) :
    (s.fill source q).Sound base := by
  have slots : s.slots = List.range' 1 (s.nq - 1) := steady s.nq
  have some := sound.some
  have below : ∀ i ∈ 0 :: s.slots, i ≠ s.nq := by
    intro i member
    rw [slots, List.mem_cons, List.mem_range'_1] at member
    omega
  have pair : ∀ i ∈ 0 :: s.slots, (s.fill source q).pair i = s.pair i := fun i member =>
    Prod.ext (update_of_ne (below i member) _ _)
      (update_of_ne (below i member) _ _)
  have same : (s.fill source q).slots = s.slots := slots.symm
  refine ⟨some, (pair 0 List.mem_cons_self).trans sound.zero, ?_, ?_, ?_, ?_⟩
  · have extra : (s.fill source q).extra = s.extra := by
      unfold TunPool.extra
      rw [same]
      refine congr (congrArg _ pending) (List.map_congr_left fun i member => ?_)
      exact pair i (List.mem_cons_of_mem _ member)
    rw [extra]
    exact sound.holds
  · exact Prod.ext (update_self _ _ _) (update_self _ _ _)
  · intro w member
    refine (sound.writers w member).mono fun i inside => ⟨?_, pair i inside⟩
    rw [same]
    exact inside
  · intro closed
    exact sound.alone (accepts ▸ closed)

theorem TunPool.Sound.close (sound : s.Sound base) (owner : TunOwner) (q : Nat × Nat)
    (split : s.extra.Perm (q :: (owner.pending ++ (owner.slots s.nq).map s.pair)))
    (place : TunPool.OwnerOk { s with owner })
    (slots : owner.slots s.nq = s.slots ∨ s.owner.accepts = false)
    (alone : owner.accepts = false → s.owner.accepts = false) :
    TunPool.Sound base { s.close q.1 with owner } := by
  refine ⟨sound.some, sound.zero, (sound.holds.perm split).close, place, ?_,
    fun closed => sound.alone (alone closed)⟩
  intro w member
  rcases slots with same | closed
  · refine (sound.writers w member).mono fun i inside => ⟨?_, rfl⟩
    change i ∈ 0 :: owner.slots s.nq
    rw [same]
    exact inside
  · rw [sound.alone closed w member]
    trivial

theorem TunPool.Sound.publish (sound : s.Sound base) (owner : TunOwner)
    (steady : s.owner.Steady) (steady' : owner.Steady) (filled : s.pair s.nq = q)
    (pending : s.owner.pending = q :: owner.pending) (accepts : owner.accepts = s.owner.accepts)
    (place : TunPool.OwnerOk { s with nq := s.nq + 1, owner }) :
    TunPool.Sound base { s with nq := s.nq + 1, owner } := by
  have slots : s.slots = List.range' 1 (s.nq - 1) := steady s.nq
  have slots' : owner.slots (s.nq + 1) = s.slots ++ [s.nq] := by
    rw [steady', Nat.add_sub_cancel, range_append sound.some, slots]
  have wider : ∀ i ∈ 0 :: s.slots, i ∈ 0 :: owner.slots (s.nq + 1) := by
    intro i member
    rw [slots']
    exact List.mem_append_left [s.nq] member
  refine ⟨Nat.le_succ_of_le sound.some, sound.zero, ?_, place, ?_,
    fun closed => sound.alone (accepts ▸ closed)⟩
  · refine sound.holds.perm ?_
    change (s.owner.pending ++ s.slots.map s.pair).Perm
      (owner.pending ++ (owner.slots (s.nq + 1)).map s.pair)
    rw [slots', pending, List.map_append, List.map_singleton, filled, ← List.append_assoc]
    exact (List.perm_append_singleton _ _).symm
  · intro w member
    exact (sound.writers w member).mono fun i inside => ⟨wider i inside, rfl⟩

variable {target : Nat} {creating : Bool}

theorem TunPool.Sound.attach (sound : s.Sound base) {fd : Nat}
    (here : s.owner = .grow target creating) (free : s.ledger.table fd = none) :
    TunPool.Sound base
      { s with
        ledger := s.ledger.attach fd
        owner := .attached target creating (fd, s.ledger.next) } := by
  have extra : s.extra = (List.range' 1 (s.nq - 1)).map s.pair := by
    rw [TunPool.extra, TunPool.slots, here]
    rfl
  refine ⟨sound.some, sound.zero, ?_, trivial, fun w member => ?_, fun closed => ?_⟩
  · have held := sound.holds.attach free
    rw [extra] at held
    exact held
  · refine (sound.writers w member).mono fun i inside => ⟨?_, rfl⟩
    rw [TunPool.slots, here] at inside
    exact inside
  · exact sound.alone (by rw [here]; exact closed)

theorem TunPool.Sound.grown (sound : s.Sound base)
    (here : s.owner = .grow target creating) : (s.grown target creating).Sound base := by
  cases creating with
  | true => exact sound.move here .idle rfl rfl trivial nofun
  | false => exact sound.move here (.shrink target) rfl rfl trivial nofun

theorem TunPool.Sound.close_grown (sound : s.Sound base)
    (steady : s.owner.Steady) (pending : s.owner.pending = [q]) :
    ((s.close q.1).grown target creating).Sound base := by
  have slots : s.slots = List.range' 1 (s.nq - 1) := steady s.nq
  have extra : s.extra = q :: (List.range' 1 (s.nq - 1)).map s.pair := by
    rw [TunPool.extra, slots, pending]
    rfl
  cases creating with
  | true => exact sound.close .idle q (.of_eq extra) trivial (.inl slots.symm) nofun
  | false => exact sound.close (.shrink target) q (.of_eq extra) trivial (.inl slots.symm) nofun

theorem TunPool.Sound.close_locked (sound : s.Sound base) {old owner : TunOwner} {i : Nat}
    (here : s.owner = old) (locked : old.accepts = false) (pending : old.pending = owner.pending)
    (split : (old.slots s.nq).Perm (i :: owner.slots s.nq)) (none : owner.pending = [])
    (place : TunPool.OwnerOk { s with owner }) :
    TunPool.Sound base { s.close (s.fd i) with owner } := by
  subst here
  refine sound.close owner (s.pair i) ?_ place (.inr locked) fun _ => locked
  rw [TunPool.extra, pending, none]
  exact split.map s.pair

theorem tunOwnerStep_sound (sound : s.Sound base) (choice : TunChoice) :
    (tunOwnerStep s choice).Sound base := by
  have place := sound.place
  have alone := sound.alone
  unfold TunPool.OwnerOk at place
  cases here : s.owner <;> rw [here] at place alone <;> unfold tunOwnerStep <;> rw [here]
  case prefill rest =>
    have steady : s.owner.Steady := here ▸ fun _ => rfl
    cases rest with
    | nil => exact sound.move here _ rfl rfl trivial alone
    | cons q rest =>
      dsimp only
      split
      · exact sound.fill steady (here ▸ rfl) (here ▸ rfl)
      · exact sound.move here _ rfl rfl trivial alone
  case leftover rest =>
    cases rest with
    | nil => exact sound.move here _ rfl rfl trivial fun _ => alone rfl
    | cons q rest =>
      refine sound.close (.leftover rest) q ?_ trivial (.inr (here ▸ rfl)) fun _ => here ▸ rfl
      rw [TunPool.extra, TunPool.slots, here]
      exact List.Perm.refl _
  case grow target creating =>
    dsimp only
    split
    · next attach => exact sound.attach here attach.2.2.2
    · exact sound.grown here
  case attached target creating q =>
    have steady : s.owner.Steady := here ▸ fun _ => rfl
    dsimp only
    split
    · exact sound.fill steady (here ▸ rfl) (here ▸ rfl)
    · exact sound.close_grown steady (here ▸ rfl)
  case filled source q =>
    cases source with
    | pre rest =>
      dsimp only
      split
      · exact (sound.move here (.spawned (.pre rest) q) rfl rfl place alone).flags s.stop s.dead _
      · exact sound.move here _ rfl rfl trivial alone
    | attach target creating =>
      dsimp only
      split
      · have moved := sound.move here (.spawned (.attach target creating) q) rfl rfl place alone
        exact moved.flags s.stop s.dead _
      · exact sound.close_grown (here ▸ fun _ => rfl) (here ▸ rfl)
  case spawned source q =>
    have steady : s.owner.Steady := here ▸ fun _ => rfl
    cases source with
    | pre rest =>
      exact sound.publish (.prefill rest) steady (fun _ => rfl) place (here ▸ rfl) (here ▸ rfl)
        trivial
    | attach target creating =>
      exact sound.publish (.grow target creating) steady (fun _ => rfl) place (here ▸ rfl)
        (here ▸ rfl) trivial
  case idle => exact sound
  case shrink target =>
    dsimp only
    split
    · next more =>
      have last : 1 ≤ s.nq - 1 ∧ s.nq - 1 + 1 = s.nq := by omega
      have moved := sound.move here (.stopping target (s.nq - 1)) rfl rfl last nofun
      exact moved.flags _ s.dead s.running
    · exact sound.move here _ rfl rfl trivial nofun
  case stopping target i =>
    -- the count is taken back, and the queue stays open
    have slots : s.slots = List.range' 1 i := by
      rw [TunPool.slots, here, ← place.2]
      rfl
    refine ⟨place.1, sound.zero, ?_, rfl, fun w member => ?_, nofun⟩
    · have held := sound.holds
      rw [TunPool.extra, slots, here] at held
      exact held
    · refine (sound.writers w member).mono fun j inside => ⟨?_, rfl⟩
      rw [slots] at inside
      exact inside
  case joining target i =>
    dsimp only
    split
    · exact sound
    · exact sound.move here _ rfl rfl place nofun
  case locking target i =>
    dsimp only
    split
    · next idle => exact sound.move here _ rfl rfl place fun _ => idle
    · exact sound
  case closing target i =>
    refine sound.close_locked here rfl rfl ?_ rfl trivial
    change (List.range' 1 s.nq).Perm (i :: List.range' 1 (s.nq - 1))
    rw [range_append sound.some, ← place]
    exact List.perm_append_singleton _ _
  case unlocking target => exact sound.move here _ rfl rfl trivial nofun
  case endStop i =>
    dsimp only
    split
    · exact (sound.move here (.endStop (i + 1)) rfl rfl trivial alone).flags _ s.dead s.running
    · exact sound.move here _ rfl rfl trivial alone
  case endJoin i =>
    dsimp only
    split
    · split
      · exact sound
      · exact sound.move here _ rfl rfl trivial alone
    · exact sound.move here _ rfl rfl trivial alone
  case endLock =>
    dsimp only
    split
    · next idle => exact sound.move here _ rfl rfl ⟨Nat.le_refl 1, sound.some⟩ fun _ => idle
    · exact sound
  case endClose i =>
    dsimp only
    split
    · next more =>
      refine sound.close_locked here rfl rfl ?_ rfl ⟨Nat.le_add_left 1 i, more⟩
      change (List.range' i (s.nq - i)).Perm (i :: List.range' (i + 1) (s.nq - (i + 1)))
      rw [show s.nq - i = (s.nq - (i + 1)) + 1 by omega, List.range'_succ]
    · next done =>
      refine sound.move here _ ?_ rfl trivial alone
      change [] = List.range' i (s.nq - i)
      rw [Nat.sub_eq_zero_of_le (Nat.le_of_not_lt done)]
      rfl
  case endUnlock => exact sound.move here _ rfl rfl trivial alone
  case finished => exact sound

theorem tunPoolTick_sound (sound : s.Sound base) (busy : BusyReading) :
    (tunPoolTick s busy).Sound base := by
  unfold tunPoolTick
  split
  · exact sound
  · next idle =>
    have here : s.owner = .idle := not_not.mp idle
    split
    · exact sound
    · have moved := sound.move here (.grow (min (tickTarget s busy).1 s.maxq) false) rfl rfl
        trivial nofun
      exact ⟨moved.some, moved.zero, moved.holds, moved.place, moved.writers, moved.alone⟩

theorem tunPoolDestroy_sound (sound : s.Sound base) : (tunPoolDestroy s).Sound base := by
  unfold tunPoolDestroy
  split
  · next ready =>
    obtain ⟨here, idle⟩ := ready
    exact sound.move here _ rfl rfl trivial fun _ => idle
  · exact sound

theorem tunReaderExit_sound (sound : s.Sound base) (slot : Nat) (lost : Bool) :
    (tunReaderExit s slot lost).Sound base := by
  unfold tunReaderExit
  split
  · exact sound.flags s.stop _ _
  · exact sound

theorem TunPool.Sound.ledger (sound : s.Sound base) {ledger : Ledger}
    (holds : Holds base s.extra ledger) : TunPool.Sound base { s with ledger } :=
  ⟨sound.some, sound.zero, holds, sound.place, sound.writers, sound.alone⟩

theorem tunStep_sound (sound : s.Sound base) (event : TunEvent) :
    (tunStep s event).1.Sound base := by
  cases event with
  | write writer tid => exact tunPoolWrite_sound sound writer tid
  | readerExit slot lost => exact tunReaderExit_sound sound slot lost
  | tick busy => exact tunPoolTick_sound sound busy
  | destroy => exact tunPoolDestroy_sound sound
  | owner choice => exact tunOwnerStep_sound sound choice
  | openOther fd => exact sound.ledger (sound.holds.openOther fd)
  | closeOther fd =>
    have file : s.file 0 = base.2 := congrArg Prod.snd sound.zero
    change TunPool.Sound base { s with ledger := s.ledger.closeOther (s.file 0) fd }
    rw [file]
    exact sound.ledger (sound.holds.closeOther fd)

end

def TunOwner.ending : TunOwner → Bool
  | .endStop _ => true
  | .endJoin _ => true
  | .endLock => true
  | .endClose _ => true
  | .endUnlock => true
  | .finished => true
  | _ => false

def TunOwner.left : TunOwner → Nat → Nat
  | .endStop i, nq => (nq - i) + 2 * nq + 5
  | .endJoin i, nq => (nq - i) + nq + 4
  | .endLock, nq => nq + 3
  | .endClose i, nq => (nq - i) + 2
  | .endUnlock, _ => 1
  | _, _ => 0

def TunPool.left (s : TunPool) : Nat := s.owner.left s.nq

/-- Destroy has begun, and every other thread has left. -/
structure TunPool.Ending (s : TunPool) : Prop where
  ending : s.owner.ending = true
  writers : ∀ w ∈ s.writers, w = .idle
  readers : ∀ i < s.nq, s.running i = false

variable {s : TunPool}

theorem TunPool.Ending.next {t : TunPool} (ending : s.Ending) (known : t.owner.ending = true)
    (writers : t.writers = s.writers) (readers : t.running = s.running) (count : t.nq = s.nq) :
    t.Ending :=
  ⟨known, writers ▸ ending.writers, fun i small => readers ▸ ending.readers i (count ▸ small)⟩

theorem TunPool.Ending.step (ending : s.Ending) (choice : TunChoice) :
    (tunOwnerStep s choice).Ending ∧ (tunOwnerStep s choice).left ≤ s.left - 1 := by
  have known := ending.ending
  unfold TunPool.left tunOwnerStep
  cases here : s.owner with
  | endStop i =>
    dsimp only
    split
    · refine ⟨ending.next rfl rfl rfl rfl, ?_⟩
      simp only [TunOwner.left]
      omega
    · refine ⟨ending.next rfl rfl rfl rfl, ?_⟩
      simp only [TunOwner.left]
      omega
  | endJoin i =>
    dsimp only
    split
    · next more =>
      rw [if_neg (by rw [ending.readers i more]; exact Bool.false_ne_true)]
      refine ⟨ending.next rfl rfl rfl rfl, ?_⟩
      simp only [TunOwner.left]
      omega
    · refine ⟨ending.next rfl rfl rfl rfl, ?_⟩
      simp only [TunOwner.left]
      omega
  | endLock =>
    dsimp only
    rw [if_pos ending.writers]
    refine ⟨ending.next rfl rfl rfl rfl, ?_⟩
    simp only [TunOwner.left]
    omega
  | endClose i =>
    dsimp only
    split
    · refine ⟨ending.next rfl rfl rfl rfl, ?_⟩
      simp only [TunOwner.left, TunPool.close]
      omega
    · refine ⟨ending.next rfl rfl rfl rfl, ?_⟩
      simp only [TunOwner.left]
      omega
  | endUnlock => exact ⟨ending.next rfl rfl rfl rfl, Nat.zero_le _⟩
  | finished => exact ⟨ending, (congrArg (TunOwner.left · s.nq) here).le⟩
  | _ =>
    rw [here] at known
    cases known

theorem TunPool.Ending.finished {s : TunPool} (ending : s.Ending) (done : s.left = 0) :
    s.owner = .finished := by
  have known := ending.ending
  unfold TunPool.left at done
  cases here : s.owner with
  | finished => rfl
  | _ =>
    rw [here] at known done
    cases known <;> cases done

theorem TunPool.Ending.run (ending : s.Ending) (choice : TunChoice) (n : Nat)
    (enough : s.left ≤ n) :
    (Trace.final tunStep s (List.replicate n (.owner choice))).owner = .finished := by
  induction n generalizing s with
  | zero => exact ending.finished (Nat.le_zero.mp enough)
  | succ n ih =>
    obtain ⟨ending, less⟩ := ending.step choice
    exact ih ending (less.trans (Nat.sub_le_of_le_add enough))

theorem tunReaderExit_eq (s : TunPool) (slot : Nat) : ∃ dead,
    tunReaderExit s slot false = { s with dead, running := update s.running slot false } := by
  unfold tunReaderExit
  split
  · exact ⟨_, rfl⟩
  · next stopped =>
    refine ⟨s.dead, ?_⟩
    rw [Function.update_eq_self_iff.mpr (Bool.eq_false_iff.mpr stopped).symm]

theorem readersExit (s : TunPool) (slots : List Nat) : ∃ dead running,
    Trace.final tunStep s (slots.map fun i => .readerExit i false) = { s with dead, running } ∧
      ∀ i, i ∈ slots ∨ s.running i = false → running i = false := by
  induction slots generalizing s with
  | nil => exact ⟨s.dead, s.running, rfl, fun i either => either.resolve_left List.not_mem_nil⟩
  | cons slot slots ih =>
    obtain ⟨dead, one⟩ := tunReaderExit_eq s slot
    obtain ⟨dead', running, same, readers⟩ := ih (tunReaderExit s slot false)
    rw [one] at same readers
    refine ⟨dead', running, ?_, fun i either => readers i ?_⟩
    · rw [← same, ← one]
      rfl
    · change i ∈ slots ∨ update s.running slot false i = false
      rcases eq_or_ne i slot with rfl | other
      · exact .inr (update_self ..)
      · rw [update_of_ne other]
        exact either.imp_left fun member => (List.mem_cons.mp member).resolve_left other

def destruction (s : TunPool) (steps : Nat) (choice : TunChoice) : List TunEvent :=
  .destroy :: ((List.range s.nq).map (fun i => .readerExit i false) ++
    List.replicate steps (.owner choice))

theorem destruction_finished (idle : s.owner = .idle)
    (writers : ∀ w ∈ s.writers, w = .idle) (choice : TunChoice) :
    ∃ steps, (Trace.final tunStep s (destruction s steps choice)).owner = .finished := by
  have begun : tunPoolDestroy s = { s with owner := .endStop 0 } := by
    rw [tunPoolDestroy, if_pos ⟨idle, writers⟩]
  obtain ⟨dead, running, same, readers⟩ :=
    readersExit { s with owner := .endStop 0 } (List.range s.nq)
  have ending : TunPool.Ending (Trace.final tunStep { s with owner := .endStop 0 }
      ((List.range s.nq).map fun i => .readerExit i false)) := by
    rw [same]
    exact ⟨rfl, writers, fun i below => readers i (.inl (List.mem_range.mpr below))⟩
  have finished := ending.run choice _ (Nat.le_refl _)
  rw [← Trace.final_append, ← begun] at finished
  exact ⟨_, finished⟩

theorem TunPool.create_sound {table : Nat → Option Nat} {next : Nat} {base : Nat × Nat}
    {prefds : List (Nat × Nat)} (maxq initq writers : Nat)
    (given : ∀ q ∈ base :: prefds, table q.1 = some q.2)
    (apart : (base.2 :: prefds.map Prod.snd).Nodup)
    (fresh : ∀ fd file, table fd = some file → file < next) :
    (TunPool.create table next base prefds maxq initq writers).Sound base where
  some := Nat.le_refl 1
  zero := rfl
  holds := by
    refine ⟨apart, ?_, ?_, ?_⟩
    · change ([] ++ (prefds ++ []).map Prod.snd).Perm (prefds.map Prod.snd)
      rw [List.append_nil, List.nil_append]
    · intro q member
      change q ∈ base :: (prefds ++ []) at member
      rw [List.append_nil] at member
      exact given q member
    · intro file member
      change file ∈ (base :: prefds).map Prod.snd at member
      obtain ⟨q, inside, rfl⟩ := List.mem_map.mp member
      exact fresh q.1 q.2 (given q inside)
  place := trivial
  writers := by
    intro w member
    rw [List.eq_of_mem_replicate member]
    trivial
  alone := fun _ w member => List.eq_of_mem_replicate member

/-- A write is on a file of the pool from start to end, each extra file is closed once, after the
readers have left, and that of queue 0 never. -/
theorem tunPoolWrite_run {table : Nat → Option Nat} {next : Nat} {base : Nat × Nat}
    {prefds : List (Nat × Nat)} (maxq initq writers : Nat)
    (given : ∀ q ∈ base :: prefds, table q.1 = some q.2)
    (apart : (base.2 :: prefds.map Prod.snd).Nodup)
    (fresh : ∀ fd file, table fd = some file → file < next) (events : List TunEvent) :
    let s := Trace.final tunStep (TunPool.create table next base prefds maxq initq writers) events
    (∀ slot fd file, .writing slot fd file ∈ s.writers → ∃ opened, file = some opened ∧
      s.ledger.table fd = some opened ∧ opened ∈ base.2 :: s.ledger.taken ∧
      opened ∉ s.ledger.closed) ∧
    s.ledger.taken.Nodup ∧ s.ledger.closed.Nodup ∧ s.ledger.closed ⊆ s.ledger.taken ∧
    base.2 ∉ s.ledger.closed ∧
    (s.owner = .finished → s.ledger.closed.Perm s.ledger.taken) ∧
    (s.owner = .idle → (∀ w ∈ s.writers, w = .idle) → ∀ choice, ∃ steps,
      (Trace.final tunStep s (destruction s steps choice)).owner = .finished) := by
  intro s
  have sound : s.Sound base := Trace.final_invariant tunStep (TunPool.Sound base)
    (fun t event sound => tunStep_sound sound event) _ events
    (TunPool.create_sound maxq initq writers given apart fresh)
  have nodup := sound.holds.split.nodup_iff.mpr (List.nodup_cons.mp sound.holds.unique).2
  refine ⟨?_, (List.nodup_cons.mp sound.holds.unique).2, nodup.of_append_left, ?_,
    (sound.holds.live List.mem_cons_self).2.2, ?_, fun idle => destruction_finished idle⟩
  · intro slot fd file member
    obtain ⟨inside, rfl, rfl⟩ := sound.writers _ member
    exact ⟨s.file slot, rfl, sound.holds.live (sound.mem_slots inside)⟩
  · exact fun file member => sound.holds.split.subset (List.mem_append_left _ member)
  · intro done
    have split := sound.holds.split
    have extra : s.extra = [] := by
      rw [TunPool.extra, TunPool.slots, done]
      rfl
    rw [extra, List.map_nil, List.append_nil] at split
    exact split

def twoFiles (fd : Nat) : Option Nat := if fd = 3 then some 0 else if fd = 4 then some 1 else none

def secondQueue : List TunEvent :=
  List.replicate 5 (.owner ⟨true, 0⟩) ++ List.replicate 2 (.owner ⟨true, 5⟩) ++
    List.replicate 4 (.write 0 1)

def ownerSteps (n fd : Nat) : List TunEvent := List.replicate n (.owner ⟨true, fd⟩)

def retire (i : Nat) : List TunEvent :=
  ownerSteps 2 0 ++ .readerExit i false :: ownerSteps 4 0

/-- A busy tick doubles the two queues, the fourth idle one halves them, then the pool is destroyed.
-/
def queueLife : List TunEvent :=
  secondQueue ++ .write 0 1 :: .tick .high :: ownerSteps 4 5 ++ ownerSteps 4 6 ++ ownerSteps 2 0 ++
    (List.replicate 3 (.tick .low :: ownerSteps 2 0)).flatten ++
    .tick .low :: ownerSteps 1 0 ++ retire 3 ++ retire 2 ++ ownerSteps 1 0 ++
    .destroy :: .readerExit 0 false :: .readerExit 1 false :: ownerSteps 12 0

def secondPool : TunPool := TunPool.create twoFiles 2 (3, 0) [(4, 1)] 8 2 1

theorem tunPoolWrite_run_second :
    .writing 1 4 (some 1) ∈ (Trace.final tunStep secondPool secondQueue).writers ∧
      (∃ opened, some 1 = some opened ∧
        (Trace.final tunStep secondPool secondQueue).ledger.table 4 = some opened ∧
        opened ∈ 0 :: (Trace.final tunStep secondPool secondQueue).ledger.taken ∧
        opened ∉ (Trace.final tunStep secondPool secondQueue).ledger.closed) ∧
      (Trace.final tunStep secondPool queueLife).owner = .finished ∧
      (Trace.final tunStep secondPool queueLife).ledger.taken = [1, 2, 3] ∧
      (Trace.final tunStep secondPool queueLife).ledger.closed.Perm
        (Trace.final tunStep secondPool queueLife).ledger.taken := by
  have fresh : ∀ fd file, twoFiles fd = some file → file < 2 := by
    intro fd file open'
    unfold twoFiles at open'
    split_ifs at open' with first second
    · cases open'
      decide
    · cases open'
      decide
  have given : ∀ q ∈ (3, 0) :: [(4, 1)], twoFiles q.1 = some q.2 := by decide
  have run := tunPoolWrite_run 8 2 1 given (by decide) fresh
  have live : ∀ events, .writing 1 4 (some 1) ∈ (Trace.final tunStep secondPool events).writers →
      ∃ opened, some 1 = some opened ∧
        (Trace.final tunStep secondPool events).ledger.table 4 = some opened ∧
        opened ∈ 0 :: (Trace.final tunStep secondPool events).ledger.taken ∧
        opened ∉ (Trace.final tunStep secondPool events).ledger.closed :=
    fun events => (run events).1 1 4 _
  have closed : ∀ events, (Trace.final tunStep secondPool events).owner = .finished →
      (Trace.final tunStep secondPool events).ledger.closed.Perm
        (Trace.final tunStep secondPool events).ledger.taken :=
    fun events => (run events).2.2.2.2.2.1
  have writing : .writing 1 4 (some 1) ∈ (Trace.final tunStep secondPool secondQueue).writers := by
    decide +kernel
  have ended : (Trace.final tunStep secondPool queueLife).owner = .finished := by decide +kernel
  exact ⟨writing, live secondQueue writing, ended, by decide +kernel, closed queueLife ended⟩

end Iwan
