import Iwan.Time
import Iwan.Lib.Trace

/- The failure lockout table of the two proxy listeners (lockout.c). -/
namespace Iwan

open Function (update update_of_ne update_self)

def LOCKOUT_KEY_MAX : Nat := 16

/-- A source that has failed. -/
structure LockoutRec where
  key : List UInt8
  fail : Int32
  firstFailMs : UInt64
  blockedUntilMs : UInt64
  inUse : Bool
deriving DecidableEq, Repr

def LockoutRec.zero : LockoutRec := ⟨List.replicate LOCKOUT_KEY_MAX 0, 0, 0, 0, false⟩

def LockoutRec.keyIs (r : LockoutRec) (key : List UInt8) : Bool := r.key.take key.length = key

def LockoutRec.copyKey (r : LockoutRec) (key : List UInt8) : LockoutRec :=
  { r with key := key ++ r.key.drop key.length }

def LockoutRec.Counts (r : LockoutRec) (key : List UInt8) : Prop :=
  r.inUse = true ∧ r.keyIs key = true

instance (r : LockoutRec) (key : List UInt8) : Decidable (r.Counts key) := instDecidableAnd

section

variable {n : Nat}

/-- The key's own record, the preferred victim and the last resort. -/
structure LockoutScan (n : Nat) where
  e : Option (Fin n)
  oldest : Option (Fin n)
  earliest : Fin n
deriving DecidableEq

/-- An empty slot wins as a victim, then the oldest without a ban. -/
def LockoutScan.pass (s : LockoutScan n) (tbl : Fin n → LockoutRec) (now : UInt64) (i : Fin n) :
    LockoutScan n where
  e := s.e
  oldest :=
    if (tbl i).inUse = false ∨ ((tbl i).blockedUntilMs ≤ now ∧
        ∀ o ∈ s.oldest, (tbl i).firstFailMs < (tbl o).firstFailMs) then some i
    else s.oldest
  earliest := if (tbl i).firstFailMs < (tbl s.earliest).firstFailMs then i else s.earliest

def lockoutScan (tbl : Fin n → LockoutRec) (key : List UInt8) (now : UInt64) :
    List (Fin n) → LockoutScan n → LockoutScan n
  | [], s => s
  | i :: rest, s =>
    if (tbl i).Counts key then { s with e := some i }
    else lockoutScan tbl key now rest (s.pass tbl now i)

def LockoutRec.ban (r : LockoutRec) (maxFails windowMs : UInt32) (now : UInt64) : LockoutRec :=
  if maxFails.toInt32 ≤ r.fail then { r with blockedUntilMs := now + windowMs.toUInt64 } else r

def LockoutRec.fresh (key : List UInt8) (maxFails windowMs : UInt32) (now : UInt64) : LockoutRec :=
  ({ LockoutRec.zero.copyKey key with fail := 1, firstFailMs := now, inUse := true }).ban
    maxFails windowMs now

def lockoutFail (e : LockoutRec) (key : List UInt8) (maxFails windowMs : UInt32) (now : UInt64) :
    LockoutRec :=
  if ¬ e.Counts key ∨ windowMs.toUInt64 ≤ now - e.firstFailMs then
    -- the count restarts under a ban that still runs
    if e.Counts key ∧ e.blockedUntilMs ≠ 0 ∧ now < e.blockedUntilMs then
      { e with fail := 1, firstFailMs := now }
    else LockoutRec.fresh key maxFails windowMs now
  else
    ({ e.copyKey key with fail := e.fail + 1 }).ban maxFails windowMs now

def lockoutNote (tbl : Fin n → LockoutRec) (key : List UInt8) (success : Bool)
    (maxFails windowMs : UInt32) (now : UInt64) : Fin n → LockoutRec :=
  if some_slot : 0 < n then
    if key.length = 0 ∨ LOCKOUT_KEY_MAX < key.length then tbl
    else if success then
      match (List.finRange n).find? fun i => (tbl i).Counts key with
      | some i => update tbl i LockoutRec.zero
      | none => tbl
    else
      let s := lockoutScan tbl key now (List.finRange n) ⟨none, none, ⟨0, some_slot⟩⟩
      let e := s.e.getD (s.oldest.getD s.earliest)
      update tbl e (lockoutFail (tbl e) key maxFails windowMs now)
  else tbl

def lockoutBlocked (tbl : Fin n → LockoutRec) (key : List UInt8) (now : UInt64) : Bool :=
  if key.length = 0 ∨ LOCKOUT_KEY_MAX < key.length then false
  else
    match (List.finRange n).find? fun i => (tbl i).blockedUntilMs ≠ 0 ∧ (tbl i).keyIs key with
    | some i => now < (tbl i).blockedUntilMs
    | none => false

end

section

variable {n : Nat} {tbl : Fin n → LockoutRec} {key : List UInt8} {now : UInt64}

variable (r : LockoutRec) (maxFails windowMs : UInt32)

@[simp] theorem LockoutRec.ban_key (now : UInt64) : (r.ban maxFails windowMs now).key = r.key := by
  unfold LockoutRec.ban
  split <;> rfl

@[simp] theorem LockoutRec.ban_inUse
    (now : UInt64) : (r.ban maxFails windowMs now).inUse = r.inUse := by
  unfold LockoutRec.ban
  split <;> rfl

@[simp] theorem LockoutRec.ban_fail
    (now : UInt64) : (r.ban maxFails windowMs now).fail = r.fail := by
  unfold LockoutRec.ban
  split <;> rfl

theorem LockoutRec.ban_blockedUntilMs (now : UInt64) :
    (r.ban maxFails windowMs now).blockedUntilMs = r.blockedUntilMs ∨
      (r.ban maxFails windowMs now).blockedUntilMs = now + windowMs.toUInt64 := by
  unfold LockoutRec.ban
  split
  · exact .inr rfl
  · exact .inl rfl

theorem LockoutRec.fresh_fail :
    (LockoutRec.fresh key maxFails windowMs now).fail = 1 := LockoutRec.ban_fail ..

theorem LockoutRec.fresh_blockedUntilMs :
    (LockoutRec.fresh key maxFails windowMs now).blockedUntilMs =
      if maxFails.toInt32 ≤ 1 then now + windowMs.toUInt64 else 0 := by
  unfold LockoutRec.fresh LockoutRec.ban
  split <;> rfl

theorem LockoutRec.keyIs_iff : r.keyIs key = true ↔ r.key.take key.length = key := by
  rw [LockoutRec.keyIs, decide_eq_true_iff]

theorem LockoutRec.copyKey_take : (r.copyKey key).key.take key.length = key := List.take_left

theorem LockoutRec.fresh_counts : (LockoutRec.fresh key maxFails windowMs now).Counts key := by
  refine ⟨LockoutRec.ban_inUse .., ?_⟩
  rw [LockoutRec.keyIs_iff, LockoutRec.fresh, LockoutRec.ban_key]
  exact LockoutRec.copyKey_take _

theorem lockoutFail_counts (e : LockoutRec) (maxFails windowMs : UInt32) :
    (lockoutFail e key maxFails windowMs now).Counts key := by
  unfold lockoutFail
  split
  · split
    · rename_i running
      exact running.1
    · exact LockoutRec.fresh_counts maxFails windowMs
  · rename_i counted
    rw [not_or, not_not] at counted
    refine ⟨?_, ?_⟩
    · rw [LockoutRec.ban_inUse]
      exact counted.1.1
    · rw [LockoutRec.keyIs_iff, LockoutRec.ban_key]
      exact LockoutRec.copyKey_take e

theorem lockoutFail_of_not_counts {e : LockoutRec} (other : ¬ e.Counts key)
    (maxFails windowMs : UInt32) :
    lockoutFail e key maxFails windowMs now = LockoutRec.fresh key maxFails windowMs now := by
  rw [lockoutFail, if_pos (Or.inl other), if_neg (fun running => other running.1)]

def LockoutRec.Spare (r : LockoutRec) (now : UInt64) : Prop :=
  r.inUse = false ∨ r.blockedUntilMs ≤ now

def LockoutFull (tbl : Fin n → LockoutRec) (now : UInt64) : Prop :=
  ∀ i, (tbl i).inUse = true ∧ now < (tbl i).blockedUntilMs

instance (tbl : Fin n → LockoutRec) (now : UInt64) : Decidable (LockoutFull tbl now) :=
  inferInstanceAs (Decidable (∀ i, (tbl i).inUse = true ∧ now < (tbl i).blockedUntilMs))

theorem LockoutRec.not_spare {r : LockoutRec} (kept : ¬ r.Spare now) :
    r.inUse = true ∧ now < r.blockedUntilMs := by
  unfold LockoutRec.Spare at kept
  rw [not_or, Bool.not_eq_false, UInt64.not_le] at kept
  exact kept

theorem LockoutScan.pass_spare (s : LockoutScan n) (i : Fin n)
    (spare : ∀ o ∈ s.oldest, (tbl o).Spare now) :
    ∀ o ∈ (s.pass tbl now i).oldest, (tbl o).Spare now := by
  intro o chosen
  unfold LockoutScan.pass at chosen
  dsimp only at chosen
  split at chosen
  · rename_i victim
    obtain rfl := Option.some.inj chosen
    exact victim.imp_right (·.1)
  · exact spare o chosen

theorem LockoutScan.pass_oldest_none {s : LockoutScan n} {i : Fin n}
    (none_yet : (s.pass tbl now i).oldest = none) :
    s.oldest = none ∧ ¬ (tbl i).Spare now := by
  unfold LockoutScan.pass at none_yet
  dsimp only at none_yet
  split at none_yet
  · cases none_yet
  · rename_i kept
    refine ⟨none_yet, ?_⟩
    rintro (empty | expired)
    · exact kept (Or.inl empty)
    · refine kept (Or.inr ⟨expired, ?_⟩)
      rw [none_yet]
      exact fun o absent => nomatch absent

theorem lockoutScan_found {slots : List (Fin n)} {s : LockoutScan n} {i : Fin n}
    (unset : s.e = none) (found : (lockoutScan tbl key now slots s).e = some i) :
    (tbl i).Counts key := by
  induction slots generalizing s with
  | nil =>
    rw [lockoutScan, unset] at found
    cases found
  | cons j rest ih =>
    unfold lockoutScan at found
    split at found
    · rename_i own
      obtain rfl := Option.some.inj found
      exact own
    · exact ih (s := s.pass tbl now j) unset found

theorem lockoutScan_missed {slots : List (Fin n)} {s : LockoutScan n}
    (missed : (lockoutScan tbl key now slots s).e = none) : ∀ i ∈ slots, ¬ (tbl i).Counts key := by
  induction slots generalizing s with
  | nil => simp
  | cons j rest ih =>
    unfold lockoutScan at missed
    split at missed
    · cases missed
    · rename_i other
      exact List.forall_mem_cons.mpr ⟨other, ih missed⟩

theorem lockoutScan_spare {slots : List (Fin n)} {s : LockoutScan n}
    (spare : ∀ o ∈ s.oldest, (tbl o).Spare now) :
    ∀ o ∈ (lockoutScan tbl key now slots s).oldest, (tbl o).Spare now := by
  induction slots generalizing s with
  | nil => exact spare
  | cons j rest ih =>
    unfold lockoutScan
    split
    · exact spare
    · exact ih (LockoutScan.pass_spare s j spare)

theorem lockoutScan_full {slots : List (Fin n)} {s : LockoutScan n}
    (missed : (lockoutScan tbl key now slots s).e = none)
    (none_spare : (lockoutScan tbl key now slots s).oldest = none) :
    s.oldest = none ∧ ∀ i ∈ slots, ¬ (tbl i).Spare now := by
  induction slots generalizing s with
  | nil => exact ⟨none_spare, by simp⟩
  | cons j rest ih =>
    unfold lockoutScan at missed none_spare
    split at missed
    · cases missed
    · rename_i other
      rw [if_neg other] at none_spare
      obtain ⟨none_yet, kept⟩ := ih missed none_spare
      obtain ⟨before, here⟩ := LockoutScan.pass_oldest_none none_yet
      exact ⟨before, List.forall_mem_cons.mpr ⟨here, kept⟩⟩

theorem lockoutNote_fails (some_slot : 0 < n)
    (tbl : Fin n → LockoutRec) (usable : key.length ≠ 0 ∧ key.length ≤ LOCKOUT_KEY_MAX)
    (now : UInt64) :
    (∃ i, (tbl i).Counts key ∧ lockoutNote tbl key false maxFails windowMs now =
        update tbl i (lockoutFail (tbl i) key maxFails windowMs now)) ∨
      ∃ i, (∀ j, ¬ (tbl j).Counts key) ∧ ((tbl i).Spare now ∨ LockoutFull tbl now) ∧
        lockoutNote tbl key false maxFails windowMs now =
          update tbl i (LockoutRec.fresh key maxFails windowMs now) := by
  unfold lockoutNote
  rw [dif_pos some_slot, if_neg (by omega)]
  simp only [Bool.false_eq_true, if_false]
  generalize scanned : lockoutScan tbl key now (List.finRange n) ⟨none, none, ⟨0, some_slot⟩⟩ = s
  cases own : s.e with
  | some i =>
    rw [← scanned] at own
    exact .inl ⟨i, lockoutScan_found rfl own, rfl⟩
  | none =>
    have missed : ∀ j, ¬ (tbl j).Counts key := by
      rw [← scanned] at own
      exact fun j => lockoutScan_missed own j (List.mem_finRange j)
    refine .inr ⟨s.oldest.getD s.earliest, missed, ?_, ?_⟩
    · cases oldest : s.oldest with
      | some o =>
        left
        rw [← scanned] at oldest
        exact lockoutScan_spare (by simp) o oldest
      | none =>
        right
        rw [← scanned] at own oldest
        intro i
        exact LockoutRec.not_spare ((lockoutScan_full own oldest).2 i (List.mem_finRange i))
    · rw [Option.getD_none, lockoutFail_of_not_counts (missed _)]

theorem lockoutNote_cases (tbl : Fin n → LockoutRec) (key : List UInt8) (success : Bool)
    (maxFails windowMs : UInt32) (now : UInt64) :
    lockoutNote tbl key success maxFails windowMs now = tbl ∨
      (∃ i, success = true ∧ (tbl i).Counts key ∧
        lockoutNote tbl key success maxFails windowMs now =
          update tbl i LockoutRec.zero) ∨
      (∃ i, success = false ∧ (tbl i).Counts key ∧
        lockoutNote tbl key success maxFails windowMs now =
          update tbl i (lockoutFail (tbl i) key maxFails windowMs now)) ∨
      ∃ i, success = false ∧ (∀ j, ¬ (tbl j).Counts key) ∧
        ((tbl i).Spare now ∨ LockoutFull tbl now) ∧
        lockoutNote tbl key success maxFails windowMs now =
          update tbl i (LockoutRec.fresh key maxFails windowMs now) := by
  by_cases some_slot : 0 < n
  · by_cases fits : key.length = 0 ∨ LOCKOUT_KEY_MAX < key.length
    · exact .inl (by rw [lockoutNote, dif_pos some_slot, if_pos fits])
    · cases success with
      | true =>
        rw [lockoutNote, dif_pos some_slot, if_neg fits, if_pos rfl]
        split
        · rename_i i found
          have own := List.find?_some found
          exact .inr (.inl ⟨i, rfl, of_decide_eq_true own, rfl⟩)
        · exact .inl rfl
      | false =>
        right; right
        have usable : key.length ≠ 0 ∧ key.length ≤ LOCKOUT_KEY_MAX := by omega
        rcases lockoutNote_fails maxFails windowMs some_slot tbl usable now with
          ⟨i, own, note⟩ | ⟨i, missed, room, note⟩
        · exact .inl ⟨i, rfl, own, note⟩
        · exact .inr ⟨i, rfl, missed, room, note⟩
  · exact .inl (by rw [lockoutNote, dif_neg some_slot])

theorem lockoutNote_takeover {success : Bool} {maxFails windowMs : UInt32} {i : Fin n}
    (before : ¬ (tbl i).Counts key)
    (after : (lockoutNote tbl key success maxFails windowMs now i).Counts key) :
    lockoutNote tbl key success maxFails windowMs now i =
      LockoutRec.fresh key maxFails windowMs now := by
  have elsewhere (j : Fin n) (r : LockoutRec) (counts : (update tbl j r i).Counts key) :
      j = i := by
    by_contra away
    rw [update_of_ne (Ne.symm away)] at counts
    exact before counts
  rcases lockoutNote_cases tbl key success maxFails windowMs now with
    same | ⟨j, _, own, cleared⟩ | ⟨j, _, own, counted⟩ | ⟨j, _, _, _, taken⟩
  · rw [same] at after
    exact absurd after before
  · rw [cleared] at after
    exact absurd own (elsewhere j _ after ▸ before)
  · rw [counted] at after
    exact absurd own (elsewhere j _ after ▸ before)
  · rw [taken] at after
    rw [taken, elsewhere j _ after, update_self]

end

/-- A call of lockout_note, with a key of the table's length. -/
structure LockoutCall (klen : Nat) where
  key : List UInt8
  sized : key.length = klen
  success : Bool
  now : NowMs

def LockoutCall.time {klen : Nat} (call : LockoutCall klen) : Nat := call.now.time

def lockoutStep {n klen : Nat} (maxFails windowMs : UInt32) (tbl : Fin n → LockoutRec)
    (call : LockoutCall klen) : (Fin n → LockoutRec) × List Empty :=
  (lockoutNote tbl call.key call.success maxFails windowMs call.now.ms, [])

@[simp] theorem lockoutStep_fst {n klen : Nat} (maxFails windowMs : UInt32)
    (tbl : Fin n → LockoutRec) (call : LockoutCall klen) :
    (lockoutStep maxFails windowMs tbl call).1 =
      lockoutNote tbl call.key call.success maxFails windowMs call.now.ms := rfl

def lockoutZero (n : Nat) : Fin n → LockoutRec := fun _ => LockoutRec.zero

def LockoutDistinct {n : Nat} (klen : Nat) (tbl : Fin n → LockoutRec) : Prop :=
  ∀ i j, (tbl i).inUse = true → (tbl j).inUse = true →
    (tbl i).key.take klen = (tbl j).key.take klen → i = j

def LockoutUntil {n : Nat} (tbl : Fin n → LockoutRec) (key : List UInt8) (deadline : UInt64) :
    Prop :=
  ∃ i, (tbl i).keyIs key = true ∧ (tbl i).blockedUntilMs = deadline

def LockoutCall.Spares {n klen : Nat} (key : List UInt8) (tbl : Fin n → LockoutRec)
    (call : LockoutCall klen) : Prop :=
  ¬ (call.success = true ∧ call.key = key) ∧
    ¬ (call.success = false ∧ call.key ≠ key ∧ LockoutFull tbl call.now.ms)

instance {n klen : Nat} (key : List UInt8) (tbl : Fin n → LockoutRec) (call : LockoutCall klen) :
    Decidable (call.Spares key tbl) := instDecidableAnd

section

variable {n klen : Nat} {maxFails windowMs : UInt32}

/-- One record a key, and no ban beyond a window from now. -/
structure LockoutSound (klen : Nat) (windowMs : UInt32) (now : Nat) (tbl : Fin n → LockoutRec) :
    Prop where
  distinct : LockoutDistinct klen tbl
  used : ∀ i, (tbl i).blockedUntilMs ≠ 0 → (tbl i).inUse = true
  bounded : ∀ i, (tbl i).blockedUntilMs.toNat ≤ now + windowMs.toNat

variable {now : Nat}

theorem LockoutSound.write {tbl : Fin n → LockoutRec}
    (sound : LockoutSound klen windowMs now tbl) {later : Nat} (order : now ≤ later) (i : Fin n)
    (r : LockoutRec)
    (apart : r.inUse = true → ∀ j, j ≠ i → (tbl j).inUse = true →
      (tbl j).key.take klen ≠ r.key.take klen)
    (used : r.blockedUntilMs ≠ 0 → r.inUse = true)
    (bounded : r.blockedUntilMs.toNat ≤ later + windowMs.toNat) :
    LockoutSound klen windowMs later (update tbl i r) := by
  refine ⟨?_, ?_, ?_⟩
  · intro j k usedJ usedK same
    by_cases atJ : j = i
    · by_cases atK : k = i
      · rw [atJ, atK]
      · subst atJ
        rw [update_self] at usedJ same
        rw [update_of_ne atK] at usedK same
        exact absurd same.symm (apart usedJ k atK usedK)
    · rw [update_of_ne atJ] at usedJ same
      by_cases atK : k = i
      · subst atK
        rw [update_self] at usedK same
        exact absurd same (apart usedK j atJ usedJ)
      · rw [update_of_ne atK] at usedK same
        exact sound.distinct j k usedJ usedK same
  · intro j
    by_cases atJ : j = i
    · subst atJ
      rw [update_self]
      exact used
    · rw [update_of_ne atJ]
      exact sound.used j
  · intro j
    by_cases atJ : j = i
    · subst atJ
      rw [update_self]
      exact bounded
    · rw [update_of_ne atJ]
      exact Nat.le_trans (sound.bounded j) (Nat.add_le_add_right order _)

theorem LockoutSound.zero : LockoutSound klen windowMs 0 (lockoutZero n) := by
  refine ⟨?_, ?_, ?_⟩
  · intro i j used
    cases used
  · intro i blocked
    exact absurd rfl blocked
  · intro i
    exact Nat.zero_le _

theorem NowMs.add_window (now : NowMs) (windowMs : UInt32) :
    (now.ms + windowMs.toUInt64).toNat = now.time + windowMs.toNat := by
  have short := windowMs.toNat_lt
  rw [add_toNat_of_le now now.ms _ (UInt64.le_refl _) (by rw [UInt32.toNat_toUInt64]; omega),
    UInt32.toNat_toUInt64]
  rfl

theorem LockoutRec.ban_bounded {r : LockoutRec} {now : NowMs}
    (bounded : r.blockedUntilMs.toNat ≤ now.time + windowMs.toNat) :
    (r.ban maxFails windowMs now.ms).blockedUntilMs.toNat ≤ now.time + windowMs.toNat := by
  rcases r.ban_blockedUntilMs maxFails windowMs now.ms with same | banned
  · rw [same]
    exact bounded
  · rw [banned, NowMs.add_window]

theorem LockoutRec.fresh_bounded (key : List UInt8) (now : NowMs) :
    (LockoutRec.fresh key maxFails windowMs now.ms).blockedUntilMs.toNat ≤
      now.time + windowMs.toNat :=
  LockoutRec.ban_bounded (Nat.zero_le _)

variable {key : List UInt8}

theorem lockoutFail_bounded {e : LockoutRec} {now : NowMs}
    (bounded : e.blockedUntilMs.toNat ≤ now.time + windowMs.toNat) :
    (lockoutFail e key maxFails windowMs now.ms).blockedUntilMs.toNat ≤
      now.time + windowMs.toNat := by
  unfold lockoutFail
  split
  · split
    · exact bounded
    · exact LockoutRec.fresh_bounded key now
  · exact LockoutRec.ban_bounded bounded

theorem lockoutFail_extends {e : LockoutRec} {now : NowMs}
    (own : e.Counts key) (running : now.ms < e.blockedUntilMs)
    (bounded : e.blockedUntilMs.toNat ≤ now.time + windowMs.toNat) :
    e.blockedUntilMs ≤ (lockoutFail e key maxFails windowMs now.ms).blockedUntilMs := by
  have banned : e.blockedUntilMs ≠ 0 := by
    rintro none
    rw [none] at running
    exact absurd running UInt64.not_lt_zero
  unfold lockoutFail
  split
  · rw [if_pos ⟨own, banned, running⟩]
    exact UInt64.le_refl _
  · rcases LockoutRec.ban_blockedUntilMs { e.copyKey key with fail := e.fail + 1 } maxFails
      windowMs now.ms with same | extended
    · rw [same]
      exact UInt64.le_refl _
    · rw [extended, UInt64.le_iff_toNat_le, NowMs.add_window]
      exact bounded

theorem LockoutRec.Counts.take {r : LockoutRec} (own : r.Counts key)
    (sized : key.length = klen) : r.key.take klen = key := by
  rw [← sized]
  exact (r.keyIs_iff).mp own.2

theorem LockoutSound.step {tbl : Fin n → LockoutRec} (call : LockoutCall klen)
    (sound : LockoutSound klen windowMs now tbl) (order : now ≤ call.time) :
    LockoutSound klen windowMs call.time (lockoutStep maxFails windowMs tbl call).1 := by
  have bounded (i : Fin n) := Nat.le_trans (sound.bounded i) (Nat.add_le_add_right order _)
  rcases lockoutNote_cases tbl call.key call.success maxFails windowMs call.now.ms with
    same | ⟨i, _, own, cleared⟩ | ⟨i, _, own, counted⟩ | ⟨i, _, missed, _, taken⟩
  · rw [lockoutStep_fst, same]
    exact ⟨sound.distinct, sound.used, bounded⟩
  · rw [lockoutStep_fst, cleared]
    exact sound.write order i _ (fun used => nomatch used) (fun banned => absurd rfl banned)
      (Nat.zero_le _)
  · rw [lockoutStep_fst, counted]
    have kept : (lockoutFail (tbl i) call.key maxFails windowMs call.now.ms).Counts call.key :=
      lockoutFail_counts (tbl i) maxFails windowMs
    refine sound.write order i _ ?_ (fun _ => kept.1) (lockoutFail_bounded (bounded i))
    intro _ j away used same
    rw [kept.take call.sized, ← own.take call.sized] at same
    exact away (sound.distinct j i used own.1 same)
  · rw [lockoutStep_fst, taken]
    have holds : (LockoutRec.fresh call.key maxFails windowMs call.now.ms).Counts call.key :=
      LockoutRec.fresh_counts maxFails windowMs
    refine sound.write order i _ ?_ (fun _ => holds.1) (LockoutRec.fresh_bounded call.key call.now)
    intro _ j away used same
    rw [holds.take call.sized] at same
    refine missed j ⟨used, (tbl j).keyIs_iff.mpr ?_⟩
    rw [call.sized]
    exact same

variable {moment : UInt64}

theorem LockoutSound.counts {tbl : Fin n → LockoutRec}
    (sound : LockoutSound klen windowMs now tbl) {i : Fin n}
    (held : (tbl i).keyIs key = true) (running : moment < (tbl i).blockedUntilMs) :
    (tbl i).Counts key := by
  refine ⟨sound.used i ?_, held⟩
  rintro none
  rw [none] at running
  exact absurd running UInt64.not_lt_zero

theorem LockoutCall.Spares.keeps {tbl : Fin n → LockoutRec} {call : LockoutCall klen}
    (spares : call.Spares key tbl) (maxFails : UInt32)
    (sized : key.length = klen)
    (sound : LockoutSound klen windowMs now tbl) (order : now ≤ call.time) {i : Fin n}
    (held : (tbl i).keyIs key = true) (running : call.now.ms < (tbl i).blockedUntilMs) :
    ((lockoutStep maxFails windowMs tbl call).1 i).keyIs key = true ∧
      (tbl i).blockedUntilMs ≤ ((lockoutStep maxFails windowMs tbl call).1 i).blockedUntilMs := by
  have own := sound.counts held running
  have same_key (j : Fin n) (other : (tbl j).Counts call.key) (here : j = i) : call.key = key := by
    subst here
    rw [← other.take call.sized, own.take sized]
  have untouched (j : Fin n) (r : LockoutRec) (away : j ≠ i) :
      (update tbl j r i).keyIs key = true ∧
        (tbl i).blockedUntilMs ≤ (update tbl j r i).blockedUntilMs := by
    rw [update_of_ne (Ne.symm away)]
    exact ⟨held, UInt64.le_refl _⟩
  rcases lockoutNote_cases tbl call.key call.success maxFails windowMs call.now.ms with
    same | ⟨j, succeeded, other, cleared⟩ | ⟨j, _, other, counted⟩ |
      ⟨j, failed, missed, victim, taken⟩
  · rw [lockoutStep_fst, same]
    exact ⟨held, UInt64.le_refl _⟩
  · rw [lockoutStep_fst, cleared]
    exact untouched j _ fun here => spares.1 ⟨succeeded, same_key j other here⟩
  · rw [lockoutStep_fst, counted]
    by_cases here : j = i
    · subst here
      have bounded := Nat.le_trans (sound.bounded j) (Nat.add_le_add_right order _)
      rw [update_self, same_key j other rfl]
      exact ⟨(lockoutFail_counts (tbl j) maxFails windowMs).2,
        lockoutFail_extends own running bounded⟩
    · exact untouched j _ here
  · rw [lockoutStep_fst, taken]
    apply untouched j
    rintro rfl
    have other : call.key ≠ key := fun same => missed j (same ▸ own)
    rcases victim with empty | full
    · rcases empty with unused | expired
      · rw [own.1] at unused
        cases unused
      · exact absurd running (UInt64.not_lt.mpr expired)
    · exact spares.2 ⟨failed, other, full⟩

theorem LockoutSound.ban_runs {tbl : Fin n → LockoutRec}
    (sound : LockoutSound klen windowMs now tbl) (sized : key.length = klen)
    (later : List (LockoutCall klen))
    (clocked : Trace.Clocked LockoutCall.time LockoutCall.time now later)
    (spared : Trace.Along (lockoutStep maxFails windowMs) (fun tbl call => call.Spares key tbl)
      tbl later)
    (reached : Trace.clockAfter LockoutCall.time now later ≤ moment.toNat) {i : Fin n}
    (held : (tbl i).keyIs key = true) (running : moment < (tbl i).blockedUntilMs) :
    ((Trace.final (lockoutStep maxFails windowMs) tbl later) i).keyIs key = true ∧
      moment < ((Trace.final (lockoutStep maxFails windowMs) tbl later) i).blockedUntilMs := by
  induction later generalizing now tbl with
  | nil => exact ⟨held, running⟩
  | cons call rest ih =>
    have soon : call.now.ms ≤ moment :=
      UInt64.le_iff_toNat_le.mpr (Nat.le_trans clocked.2.le_clockAfter reached)
    obtain ⟨held', longer⟩ := spared.1.keeps maxFails sized sound clocked.1 held
      (UInt64.lt_of_le_of_lt soon running)
    exact ih (sound.step call clocked.1) clocked.2 spared.2 reached held'
      (UInt64.lt_of_lt_of_le running longer)

theorem LockoutSound.blocked {tbl : Fin n → LockoutRec}
    (sound : LockoutSound klen windowMs now tbl) (klen_pos : klen ≠ 0)
    (klen_max : klen ≤ LOCKOUT_KEY_MAX) (sized : key.length = klen)
    {i : Fin n} (held : (tbl i).keyIs key = true)
    (running : moment < (tbl i).blockedUntilMs) : lockoutBlocked tbl key moment = true := by
  have own := sound.counts held running
  unfold lockoutBlocked
  rw [if_neg (by omega)]
  split
  · rename_i j found
    have chosen := List.find?_some found
    have first := of_decide_eq_true chosen
    have other : (tbl j).Counts key := ⟨sound.used j first.1, first.2⟩
    have here : j = i :=
      sound.distinct j i other.1 own.1 (by rw [other.take sized, own.take sized])
    rw [here]
    exact decide_eq_true running
  · rename_i missing
    have absent := List.find?_eq_none.mp missing i (List.mem_finRange i)
    refine absurd (decide_eq_true ⟨?_, held⟩) absent
    rintro none
    rw [none] at running
    exact absurd running UInt64.not_lt_zero

theorem lockoutRun_unusable (unusable : klen = 0 ∨ LOCKOUT_KEY_MAX < klen)
    (calls : List (LockoutCall klen)) :
    Trace.final (lockoutStep maxFails windowMs) (lockoutZero n) calls = lockoutZero n := by
  refine Trace.final_invariant _ (fun tbl => tbl = lockoutZero n) ?_ _ calls rfl
  rintro tbl call rfl
  rw [lockoutStep_fst, lockoutNote, call.sized]
  split <;> rfl

end

section

variable {n klen : Nat} (maxFails windowMs : UInt32) (calls : List (LockoutCall klen))

def lockoutRun (n : Nat) : Fin n → LockoutRec :=
  Trace.final (lockoutStep maxFails windowMs) (lockoutZero n) calls

def lockoutClock : Nat := Trace.clockAfter LockoutCall.time 0 calls

theorem lockoutRun_sound (clocked : Trace.Clocked LockoutCall.time LockoutCall.time 0 calls) :
    LockoutSound klen windowMs (lockoutClock calls) (lockoutRun maxFails windowMs calls n) :=
  Trace.final_clocked_invariant (lockoutStep maxFails windowMs) LockoutCall.time LockoutCall.time
    (LockoutSound klen windowMs)
    (fun _ _ call sound order => sound.step call order) 0 (lockoutZero n) calls clocked
    LockoutSound.zero

/-- Bans survive other traffic: keys stay distinct. -/
theorem lockoutRun_bans (clocked : Trace.Clocked LockoutCall.time LockoutCall.time 0 calls) :
    LockoutDistinct klen (lockoutRun maxFails windowMs calls n) ∧
      (∀ (key : List UInt8) (deadline : UInt64), key.length = klen →
        LockoutUntil (lockoutRun maxFails windowMs calls n) key deadline →
        ∀ later : List (LockoutCall klen),
          Trace.Clocked LockoutCall.time LockoutCall.time 0 (calls ++ later) →
          Trace.Along (lockoutStep maxFails windowMs) (fun tbl call => call.Spares key tbl)
            (lockoutRun maxFails windowMs calls n) later →
          ∀ moment : UInt64, lockoutClock (calls ++ later) ≤ moment.toNat → moment < deadline →
            lockoutBlocked (lockoutRun maxFails windowMs (calls ++ later) n) key moment = true) ∧
      (∀ (call : LockoutCall klen) (deadline : UInt64), lockoutClock calls ≤ call.time →
        call.success = false → call.now.ms < deadline →
        LockoutUntil (lockoutRun maxFails windowMs calls n) call.key deadline →
        ∃ extended, deadline ≤ extended ∧
          LockoutUntil (lockoutRun maxFails windowMs (calls ++ [call]) n) call.key extended) ∧
      (∀ (call : LockoutCall klen) (i : Fin n), lockoutClock calls ≤ call.time →
        ¬ (lockoutRun maxFails windowMs calls n i).Counts call.key →
        (lockoutRun maxFails windowMs (calls ++ [call]) n i).Counts call.key →
        (lockoutRun maxFails windowMs (calls ++ [call]) n i).fail = 1 ∧
          (lockoutRun maxFails windowMs (calls ++ [call]) n i).blockedUntilMs =
            if maxFails.toInt32 ≤ 1 then call.now.ms + windowMs.toUInt64 else 0) := by
  have sound := lockoutRun_sound (n := n) maxFails windowMs calls clocked
  have split_run (later : List (LockoutCall klen)) :
      lockoutRun maxFails windowMs (calls ++ later) n =
        Trace.final (lockoutStep maxFails windowMs) (lockoutRun maxFails windowMs calls n) later :=
    Trace.final_append _ _ calls later
  refine ⟨sound.distinct, ?_, ?_, ?_⟩
  · rintro key deadline sized ⟨i, held, rfl⟩ later clocked' spared moment reached running
    rw [Trace.Clocked.append] at clocked'
    rw [split_run]
    have still := lockoutRun_sound (n := n) maxFails windowMs (calls ++ later)
      ((Trace.Clocked.append ..).mpr clocked')
    rw [split_run] at still
    rw [lockoutClock, Trace.clockAfter_append] at reached
    obtain ⟨held', running'⟩ := sound.ban_runs sized later clocked'.2 spared reached held running
    by_cases unusable : klen = 0 ∨ LOCKOUT_KEY_MAX < klen
    · rw [lockoutRun, lockoutRun_unusable unusable] at running
      exact absurd running UInt64.not_lt_zero
    · exact still.blocked (by omega) (by omega) sized held' running'
  · rintro call deadline order failed running ⟨i, held, rfl⟩
    have spares : call.Spares call.key (lockoutRun maxFails windowMs calls n) := by
      refine ⟨fun cleared => ?_, fun other => other.2.1 rfl⟩
      rw [failed] at cleared
      exact Bool.false_ne_true cleared.1
    obtain ⟨held', longer⟩ := spares.keeps maxFails call.sized sound order held running
    rw [split_run]
    exact ⟨_, longer, i, held', rfl⟩
  · intro call i order before after
    rw [split_run, Trace.final_cons, Trace.final_nil, lockoutStep_fst] at after ⊢
    rw [lockoutNote_takeover before after]
    exact ⟨LockoutRec.fresh_fail .., LockoutRec.fresh_blockedUntilMs ..⟩

end

def lockoutCallAt (octet : UInt8) (ms : UInt64) (inRange : ms.toNat ≤ 2 ^ 64 / 1000) :
    LockoutCall 4 :=
  ⟨[10, 0, 0, octet], rfl, false, ⟨ms, inRange⟩⟩

def lockoutSampleCalls : List (LockoutCall 4) :=
  [lockoutCallAt 1 10 (by decide), lockoutCallAt 1 20 (by decide), lockoutCallAt 2 30 (by decide)]

def lockoutThird : LockoutCall 4 := lockoutCallAt 3 40 (by decide)

def lockoutAgain : LockoutCall 4 := lockoutCallAt 1 40 (by decide)

theorem lockoutRun_bans_sample :
    lockoutBlocked (lockoutRun 2 1000 (lockoutSampleCalls ++ [lockoutThird]) 2) [10, 0, 0, 1]
        1019 = true ∧
      (∃ extended, 1020 ≤ extended ∧
        LockoutUntil (lockoutRun 2 1000 (lockoutSampleCalls ++ [lockoutAgain]) 2) [10, 0, 0, 1]
          extended) ∧
      (lockoutRun 2 1000 (lockoutSampleCalls ++ [lockoutThird]) 2 0).fail = 1 := by
  have bans := lockoutRun_bans (n := 2) 2 1000 lockoutSampleCalls (by decide)
  have banned : LockoutUntil (lockoutRun 2 1000 lockoutSampleCalls 2) [10, 0, 0, 1] 1020 :=
    ⟨1, by decide +kernel, by decide +kernel⟩
  refine ⟨?_, ?_, ?_⟩
  · exact bans.2.1 [10, 0, 0, 1] 1020 rfl banned [lockoutThird] (by decide) (by decide +kernel) 1019
      (by decide) (by decide)
  · exact bans.2.2.1 lockoutAgain 1020 (by decide) rfl (by decide) banned
  · exact (bans.2.2.2 lockoutThird 0 (by decide) (by decide +kernel) (by decide +kernel)).1

end Iwan
