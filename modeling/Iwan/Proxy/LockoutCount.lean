import Iwan.Proxy.Lockout

/- When the lockout table bans a key (lockout.c). -/
namespace Iwan

open Function (update update_of_ne update_self)

/-- The failures of a key since the start of its counting window. -/
structure FailCount where
  fails : Nat
  since : Nat
deriving DecidableEq, Repr

def FailCount.Over (c : FailCount) (windowMs : UInt32) (now : Nat) : Prop :=
  c.fails = 0 ∨ windowMs.toNat ≤ now - c.since

instance (c : FailCount) (windowMs : UInt32) (now : Nat) : Decidable (c.Over windowMs now) :=
  instDecidableOr

def FailCount.note {klen : Nat} (windowMs : UInt32) (key : List UInt8) (c : FailCount)
    (call : LockoutCall klen) : FailCount :=
  if call.key ≠ key then c
  else if call.success then ⟨0, 0⟩
  else if c.Over windowMs call.time then ⟨1, call.time⟩
  else ⟨c.fails + 1, c.since⟩

def failCount {klen : Nat} (windowMs : UInt32) (key : List UInt8)
    (calls : List (LockoutCall klen)) :
    FailCount :=
  calls.foldl (FailCount.note windowMs key) ⟨0, 0⟩

theorem failCount_append {klen : Nat} (windowMs : UInt32) (key : List UInt8)
    (calls : List (LockoutCall klen)) (call : LockoutCall klen) :
    failCount windowMs key (calls ++ [call]) =
      (failCount windowMs key calls).note windowMs key call := by
  rw [failCount, List.foldl_append]
  rfl

/-- The call does not evict the record of a key that is not its own. -/
def LockoutCall.Keeps {n klen : Nat} (maxFails windowMs : UInt32) (key : List UInt8)
    (tbl : Fin n → LockoutRec) (call : LockoutCall klen) : Prop :=
  call.key ≠ key → (∃ i, (tbl i).Counts key) →
    ∃ i, ((lockoutStep maxFails windowMs tbl call).1 i).Counts key

instance {n klen : Nat} (maxFails windowMs : UInt32) (key : List UInt8)
    (tbl : Fin n → LockoutRec) (call : LockoutCall klen) :
    Decidable (call.Keeps maxFails windowMs key tbl) :=
  inferInstanceAs (Decidable (_ → _ → _))

section

variable {n klen : Nat} {maxFails windowMs : UInt32} {key : List UInt8}

/-- The table has one record for a key with failures, and it agrees with the count. -/
structure Tracked (klen : Nat) (windowMs : UInt32) (key : List UInt8) (now : Nat) (c : FailCount)
    (tbl : Fin n → LockoutRec) : Prop where
  sound : LockoutSound klen windowMs now tbl
  absent : c.fails = 0 → ∀ i, ¬ (tbl i).Counts key
  present : c.fails ≠ 0 → ∃ i, (tbl i).Counts key ∧ (tbl i).fail = Int32.ofNat c.fails ∧
    (tbl i).firstFailMs.toNat = c.since ∧ c.since ≤ now

variable {now : Nat}

theorem LockoutSound.only {tbl : Fin n → LockoutRec}
    (sound : LockoutSound klen windowMs now tbl) (sized : key.length = klen) {i j : Fin n}
    (here : (tbl i).Counts key) (there : (tbl j).Counts key) : i = j :=
  sound.distinct i j here.1 there.1 (by rw [here.take sized, there.take sized])

theorem LockoutRec.not_counts_zero : ¬ LockoutRec.zero.Counts key := fun counts => nomatch counts.1

theorem LockoutRec.Counts.key_eq {r : LockoutRec} {key' : List UInt8} (here : r.Counts key)
    (there : r.Counts key') (sized : key.length = klen) (sized' : key'.length = klen) :
    key = key' := by
  rw [← here.take sized, ← there.take sized']

variable {c : FailCount}

theorem over_iff (windowMs : UInt32) {now : NowMs} {r : LockoutRec} (some_fails : c.fails ≠ 0)
    (first : r.firstFailMs.toNat = c.since) (order : c.since ≤ now.time) :
    windowMs.toUInt64 ≤ now.ms - r.firstFailMs ↔ c.Over windowMs now.time := by
  have before : r.firstFailMs ≤ now.ms := by
    rw [UInt64.le_iff_toNat_le, first]
    exact order
  rw [UInt64.le_iff_toNat_le, UInt64.toNat_sub_of_le _ _ before, first, UInt32.toNat_toUInt64]
  unfold FailCount.Over
  exact ⟨Or.inr, fun ended => ended.resolve_left some_fails⟩

theorem LockoutRec.ban_firstFailMs (r : LockoutRec) (now : UInt64) :
    (r.ban maxFails windowMs now).firstFailMs = r.firstFailMs := by
  unfold LockoutRec.ban
  split <;> rfl

variable {e : LockoutRec}

theorem lockoutFail_running {maxFails windowMs : UInt32} {now : NowMs}
    (own : e.Counts key) (running : ¬ c.Over windowMs now.time)
    (same : windowMs.toUInt64 ≤ now.ms - e.firstFailMs ↔ c.Over windowMs now.time) :
    lockoutFail e key maxFails windowMs now.ms =
      ({ e.copyKey key with fail := e.fail + 1 }).ban maxFails windowMs now.ms := by
  refine if_neg ?_
  rw [not_or, not_not]
  exact ⟨own, fun ended => running (same.mp ended)⟩

theorem fail_succ {n : Nat} (count : e.fail = Int32.ofNat n) :
    e.fail + 1 = Int32.ofNat (n + 1) := by
  rw [count, Int32.ofNat_add]
  rfl

theorem lockoutFail_tracks (maxFails windowMs : UInt32) {now : NowMs}
    (own : e.Counts key) (some_fails : c.fails ≠ 0) (count : e.fail = Int32.ofNat c.fails)
    (first : e.firstFailMs.toNat = c.since) (order : c.since ≤ now.time) :
    (c.Over windowMs now.time → (lockoutFail e key maxFails windowMs now.ms).fail = 1 ∧
        (lockoutFail e key maxFails windowMs now.ms).firstFailMs.toNat = now.time) ∧
      (¬ c.Over windowMs now.time →
        (lockoutFail e key maxFails windowMs now.ms).fail = Int32.ofNat (c.fails + 1) ∧
        (lockoutFail e key maxFails windowMs now.ms).firstFailMs.toNat = c.since) := by
  have same := over_iff windowMs some_fails first order
  constructor
  · intro ended
    rw [lockoutFail, if_pos (Or.inr (same.mpr ended))]
    split
    · exact ⟨rfl, rfl⟩
    · refine ⟨LockoutRec.fresh_fail .., ?_⟩
      rw [LockoutRec.fresh, LockoutRec.ban_firstFailMs]
      rfl
  · intro running
    rw [lockoutFail_running own running same, LockoutRec.ban_fail, LockoutRec.ban_firstFailMs]
    exact ⟨fail_succ count, first⟩

theorem Tracked.other {now : Nat} {c : FailCount} {tbl : Fin n → LockoutRec}
    (tracked : Tracked klen windowMs key now c tbl) (sized : key.length = klen)
    (call : LockoutCall klen) (order : now ≤ call.time) (away : call.key ≠ key)
    (keeps : call.Keeps maxFails windowMs key tbl) :
    Tracked klen windowMs key call.time c (lockoutStep maxFails windowMs tbl call).1 := by
  -- a slot that counts for the key after the call is the slot that did before, untouched
  have stays (i : Fin n) (after : ((lockoutStep maxFails windowMs tbl call).1 i).Counts key) :
      (lockoutStep maxFails windowMs tbl call).1 i = tbl i := by
    have untouched (j : Fin n) (r : LockoutRec) (not_key : ¬ r.Counts key)
        (at_i : (update tbl j r i).Counts key) : update tbl j r i = tbl i := by
      by_cases here : i = j
      · rw [here, update_self] at at_i
        exact absurd at_i not_key
      · exact update_of_ne here ..
    have other (r : LockoutRec) (counts : r.Counts call.key) : ¬ r.Counts key := fun own =>
      away (counts.key_eq own call.sized sized)
    rw [lockoutStep_fst] at after ⊢
    rcases lockoutNote_cases tbl call.key call.success maxFails windowMs call.now.ms with
      same | ⟨j, _, _, cleared⟩ | ⟨j, _, _, counted⟩ | ⟨j, _, _, _, taken⟩
    · rw [same]
    · rw [cleared] at after ⊢
      exact untouched j _ LockoutRec.not_counts_zero after
    · rw [counted] at after ⊢
      exact untouched j _ (other _ (lockoutFail_counts (tbl j) maxFails windowMs)) after
    · rw [taken] at after ⊢
      exact untouched j _ (other _ (LockoutRec.fresh_counts maxFails windowMs)) after
  refine ⟨tracked.sound.step call order, ?_, ?_⟩
  · intro none i after
    rw [stays i after] at after
    exact tracked.absent none i after
  · intro some_fails
    obtain ⟨i, own, count, first, since⟩ := tracked.present some_fails
    obtain ⟨j, after⟩ := keeps away ⟨i, own⟩
    have before : (tbl j).Counts key := stays j after ▸ after
    obtain rfl := tracked.sound.only sized own before
    rw [← stays i after] at count first
    exact ⟨i, after, count, first, Nat.le_trans since order⟩

theorem Tracked.succeeds {tbl : Fin n → LockoutRec}
    (tracked : Tracked klen windowMs key now c tbl) (sized : key.length = klen)
    (usable : key.length ≠ 0 ∧ key.length ≤ LOCKOUT_KEY_MAX) (some_slot : 0 < n)
    (call : LockoutCall klen) (order : now ≤ call.time) (own : call.key = key)
    (success : call.success = true) :
    Tracked klen windowMs key call.time ⟨0, 0⟩ (lockoutStep maxFails windowMs tbl call).1 := by
  refine ⟨tracked.sound.step call order, fun _ i after => ?_,
    fun some_fails => absurd rfl some_fails⟩
  have fits : ¬ (key.length = 0 ∨ LOCKOUT_KEY_MAX < key.length) := by omega
  rw [lockoutStep_fst, own, success, lockoutNote, dif_pos some_slot,
    if_neg fits, if_pos rfl] at after
  cases cleared : (List.finRange n).find? fun i => (tbl i).Counts key with
  | some j =>
    rw [cleared] at after
    dsimp only at after
    have chosen := List.find?_some cleared
    have counts : (tbl j).Counts key := of_decide_eq_true chosen
    by_cases here : i = j
    · rw [here, update_self] at after
      exact LockoutRec.not_counts_zero after
    · rw [update_of_ne here] at after
      exact here (tracked.sound.only sized after counts)
  | none =>
    rw [cleared] at after
    dsimp only at after
    exact List.find?_eq_none.mp cleared i (List.mem_finRange i) (decide_eq_true after)

theorem Tracked.fails {tbl : Fin n → LockoutRec}
    (tracked : Tracked klen windowMs key now c tbl) (sized : key.length = klen)
    (usable : key.length ≠ 0 ∧ key.length ≤ LOCKOUT_KEY_MAX) (some_slot : 0 < n)
    (call : LockoutCall klen) (order : now ≤ call.time) (own : call.key = key)
    (failed : call.success = false) :
    Tracked klen windowMs key call.time (c.note windowMs key call)
      (lockoutStep maxFails windowMs tbl call).1 := by
  have note : c.note windowMs key call =
      if c.Over windowMs call.time then ⟨1, call.time⟩ else ⟨c.fails + 1, c.since⟩ := by
    rw [FailCount.note, if_neg (not_not.mpr own), failed, if_neg Bool.false_ne_true]
  have positive : (c.note windowMs key call).fails ≠ 0 := by
    rw [note]
    split
    · exact Nat.one_ne_zero
    · exact Nat.succ_ne_zero _
  refine ⟨tracked.sound.step call order, fun none => absurd none positive, fun _ => ?_⟩
  rw [lockoutStep_fst, own, failed, note]
  rcases lockoutNote_fails maxFails windowMs some_slot tbl usable call.now.ms
    with ⟨i, counts, entered⟩ | ⟨i, missed, -, entered⟩
  · have some_fails : c.fails ≠ 0 := fun none => tracked.absent none i counts
    obtain ⟨j, counts', count, first, since⟩ := tracked.present some_fails
    obtain rfl := tracked.sound.only sized counts counts'
    obtain ⟨restart, goes_on⟩ :=
      lockoutFail_tracks maxFails windowMs counts some_fails count first (Nat.le_trans since order)
    refine ⟨i, ?_⟩
    rw [entered, update_self]
    split
    · rename_i ended
      exact ⟨lockoutFail_counts .., (restart ended).1, (restart ended).2, Nat.le_refl _⟩
    · rename_i running
      exact ⟨lockoutFail_counts .., (goes_on running).1, (goes_on running).2,
        Nat.le_trans since order⟩
  · have none : c.fails = 0 := by
      by_contra some_fails
      obtain ⟨j, counts, _⟩ := tracked.present some_fails
      exact missed j counts
    refine ⟨i, ?_⟩
    have ended : c.Over windowMs call.time := Or.inl none
    rw [entered, update_self, if_pos ended]
    refine ⟨LockoutRec.fresh_counts .., LockoutRec.fresh_fail .., ?_, Nat.le_refl _⟩
    rw [LockoutRec.fresh, LockoutRec.ban_firstFailMs]
    rfl

theorem Tracked.step {tbl : Fin n → LockoutRec}
    (tracked : Tracked klen windowMs key now c tbl) (sized : key.length = klen)
    (usable : key.length ≠ 0 ∧ key.length ≤ LOCKOUT_KEY_MAX) (some_slot : 0 < n)
    (call : LockoutCall klen) (order : now ≤ call.time)
    (keeps : call.Keeps maxFails windowMs key tbl) :
    Tracked klen windowMs key call.time (c.note windowMs key call)
      (lockoutStep maxFails windowMs tbl call).1 := by
  by_cases own : call.key = key
  · cases outcome : call.success with
    | true =>
      have note : c.note windowMs key call = ⟨0, 0⟩ := by
        rw [FailCount.note, if_neg (not_not.mpr own), if_pos outcome]
      rw [note]
      exact tracked.succeeds sized usable some_slot call order own outcome
    | false => exact tracked.fails sized usable some_slot call order own outcome
  · have note : c.note windowMs key call = c := by
      rw [FailCount.note, if_pos own]
    rw [note]
    exact tracked.other sized call order own keeps

theorem Tracked.run {tbl : Fin n → LockoutRec}
    (tracked : Tracked klen windowMs key now c tbl) (sized : key.length = klen)
    (usable : key.length ≠ 0 ∧ key.length ≤ LOCKOUT_KEY_MAX) (some_slot : 0 < n)
    (calls : List (LockoutCall klen))
    (clocked : Trace.Clocked LockoutCall.time LockoutCall.time now calls)
    (kept : Trace.Along (lockoutStep maxFails windowMs)
      (fun tbl call => call.Keeps maxFails windowMs key tbl) tbl calls) :
    Tracked klen windowMs key (Trace.clockAfter LockoutCall.time now calls)
      (calls.foldl (FailCount.note windowMs key) c)
      (Trace.final (lockoutStep maxFails windowMs) tbl calls) := by
  induction calls generalizing now c tbl with
  | nil => exact tracked
  | cons call rest ih =>
    exact ih (tracked.step sized usable some_slot call clocked.1 kept.1) clocked.2 kept.2

theorem Tracked.zero : Tracked klen windowMs key 0 ⟨0, 0⟩ (lockoutZero n) :=
  ⟨LockoutSound.zero, fun _ _ => LockoutRec.not_counts_zero,
    fun some_fails => absurd rfl some_fails⟩

theorem toInt32_le_ofNat_iff {count : Nat} (small : maxFails.toNat < 2 ^ 31)
    (few : count < 2 ^ 31) : maxFails.toInt32 ≤ Int32.ofNat count ↔ maxFails.toNat ≤ count := by
  have threshold : maxFails.toInt32 = Int32.ofNat maxFails.toNat := by
    apply Int32.toBitVec_inj.mp
    apply BitVec.eq_of_toNat_eq
    simp
  rw [threshold, Int32.le_iff_toInt_le, Int32.toInt_ofNat_of_lt small, Int32.toInt_ofNat_of_lt few]
  omega

end

section

variable {n klen : Nat} {maxFails windowMs : UInt32} {key : List UInt8}

theorem LockoutSound.unblocked {now : Nat} {tbl : Fin n → LockoutRec}
    (sound : LockoutSound klen windowMs now tbl) {moment : UInt64}
    (expired : ∀ i, (tbl i).Counts key → (tbl i).blockedUntilMs ≤ moment) :
    lockoutBlocked tbl key moment = false := by
  unfold lockoutBlocked
  split
  · rfl
  · split
    · rename_i i found
      have chosen := List.find?_some found
      have banned := of_decide_eq_true chosen
      have counts : (tbl i).Counts key := ⟨sound.used i banned.1, banned.2⟩
      exact decide_eq_false (UInt64.not_lt.mpr (expired i counts))
    · rfl

theorem lockoutFail_threshold (maxFails windowMs : UInt32) {e : LockoutRec} {now : NowMs}
    {c : FailCount} (own : e.Counts key)
    (some_fails : c.fails ≠ 0) (count : e.fail = Int32.ofNat c.fails)
    (first : e.firstFailMs.toNat = c.since) (order : c.since ≤ now.time)
    (small : maxFails.toNat < 2 ^ 31) (few : c.fails + 1 < 2 ^ 31) :
    (c.Over windowMs now.time →
        (now.ms < e.blockedUntilMs ∨ maxFails.toNat ≤ 1 ∧
          (lockoutFail e key maxFails windowMs now.ms).blockedUntilMs =
            now.ms + windowMs.toUInt64) ∨
        1 < maxFails.toNat ∧ (lockoutFail e key maxFails windowMs now.ms).blockedUntilMs = 0) ∧
      (¬ c.Over windowMs now.time →
        (lockoutFail e key maxFails windowMs now.ms).blockedUntilMs =
          if maxFails.toNat ≤ c.fails + 1 then now.ms + windowMs.toUInt64
          else e.blockedUntilMs) := by
  have same := over_iff windowMs some_fails first order
  have one : (1 : Int32) = Int32.ofNat 1 := rfl
  constructor
  · intro ended
    rw [lockoutFail, if_pos (Or.inr (same.mpr ended))]
    split
    · rename_i running
      exact .inl (.inl running.2.2)
    · rw [LockoutRec.fresh_blockedUntilMs, one]
      simp only [toInt32_le_ofNat_iff small (by decide : 1 < 2 ^ 31)]
      by_cases single : maxFails.toNat ≤ 1
      · exact .inl (.inr ⟨single, if_pos single⟩)
      · exact .inr ⟨Nat.lt_of_not_le single, if_neg single⟩
  · intro running
    rw [lockoutFail_running own running same, LockoutRec.ban]
    simp only [fail_succ count, toInt32_le_ofNat_iff small few]
    split <;> rfl

section

variable {c : FailCount} {tbl : Fin n → LockoutRec} {before : Nat} {now : NowMs} {i : Fin n}
  {moment : UInt64}

theorem LockoutSound.blocked_until {last : Nat} (sound : LockoutSound klen windowMs last tbl)
    (usable : klen ≠ 0 ∧ klen ≤ LOCKOUT_KEY_MAX) (sized : key.length = klen)
    (counts : (tbl i).Counts key)
    (deadline : (tbl i).blockedUntilMs = now.ms + windowMs.toUInt64)
    (soon : moment.toNat < now.time + windowMs.toNat) : lockoutBlocked tbl key moment = true := by
  refine sound.blocked usable.1 usable.2 sized (i := i) counts.2 ?_
  rw [deadline, UInt64.lt_iff_toNat_lt, NowMs.add_window]
  exact soon

theorem LockoutSound.unblocked_from {last : Nat} (sound : LockoutSound klen windowMs last tbl)
    (sized : key.length = klen) (counts : (tbl i).Counts key)
    (expired : (tbl i).blockedUntilMs ≤ now.ms) (later : now.time ≤ moment.toNat) :
    lockoutBlocked tbl key moment = false := by
  apply sound.unblocked
  intro j counts'
  rw [sound.only sized counts' counts]
  exact UInt64.le_trans expired (UInt64.le_iff_toNat_le.mpr later)

/-- The deadline of a record after a failure that leaves it with `count` failures. -/
def DeadlineSet (maxFails windowMs : UInt32) (now : NowMs) (blocked : Bool) (count : Nat)
    (r : LockoutRec) : Prop :=
  (maxFails.toNat ≤ count → r.blockedUntilMs = now.ms + windowMs.toUInt64) ∧
    (blocked = false → count < maxFails.toNat → r.blockedUntilMs ≤ now.ms)

theorem LockoutRec.fresh_deadline (small : maxFails.toNat < 2 ^ 31) (blocked : Bool) :
    DeadlineSet maxFails windowMs now blocked 1
      (LockoutRec.fresh key maxFails windowMs now.ms) := by
  have one : (1 : Int32) = Int32.ofNat 1 := rfl
  have deadline : (LockoutRec.fresh key maxFails windowMs now.ms).blockedUntilMs = _ :=
    LockoutRec.fresh_blockedUntilMs maxFails windowMs
  rw [one] at deadline
  simp only [toInt32_le_ofNat_iff small (by decide : 1 < 2 ^ 31)] at deadline
  refine ⟨fun reached => ?_, fun _ below => ?_⟩
  · rw [deadline, if_pos reached]
  · rw [deadline, if_neg (Nat.not_le.mpr below)]
    exact UInt64.zero_le

/-- In the key's own record the window goes on or restarts. -/
theorem lockoutFail_deadline (own : (tbl i).Counts key) (some_fails : c.fails ≠ 0)
    (count : (tbl i).fail = Int32.ofNat c.fails) (first : (tbl i).firstFailMs.toNat = c.since)
    (order : c.since ≤ now.time) (positive : 1 ≤ maxFails.toNat) (small : maxFails.toNat < 2 ^ 31)
    (few : c.fails + 1 < 2 ^ 31) {blocked : Bool}
    (banned : now.ms < (tbl i).blockedUntilMs → blocked = true)
    (free : maxFails.toNat = 1 → c.Over windowMs now.time → blocked = false) :
    DeadlineSet maxFails windowMs now blocked
      (if c.Over windowMs now.time then 1 else c.fails + 1)
      (lockoutFail (tbl i) key maxFails windowMs now.ms) := by
  obtain ⟨restart, goes_on⟩ :=
    lockoutFail_threshold maxFails windowMs own some_fails count first order small few
  by_cases ended : c.Over windowMs now.time
  · rw [if_pos ended]
    rcases restart ended with (running | ⟨single, deadline⟩) | ⟨more, none⟩
    · refine ⟨fun reached => ?_, fun idle => ?_⟩
      · have idle := free (Nat.le_antisymm reached positive) ended
        rw [banned running] at idle
        cases idle
      · rw [banned running] at idle
        cases idle
    · exact ⟨fun _ => deadline, fun _ below => absurd single (Nat.not_le.mpr below)⟩
    · exact ⟨fun reached => absurd reached (Nat.not_le.mpr more),
        fun _ _ => none ▸ UInt64.zero_le⟩
  · rw [if_neg ended]
    refine ⟨fun reached => ?_, fun idle below => ?_⟩
    · rw [goes_on ended, if_pos reached]
    · rw [goes_on ended, if_neg (Nat.not_le.mpr below), ← UInt64.not_lt]
      intro running
      rw [banned running] at idle
      cases idle

theorem Tracked.deadline (tracked : Tracked klen windowMs key before c tbl)
    (sized : key.length = klen) (usable : key.length ≠ 0 ∧ key.length ≤ LOCKOUT_KEY_MAX)
    (some_slot : 0 < n) (order : before ≤ now.time) (positive : 1 ≤ maxFails.toNat)
    (small : maxFails.toNat < 2 ^ 31) (few : c.fails + 1 < 2 ^ 31)
    (free : maxFails.toNat = 1 → c.Over windowMs now.time →
      lockoutBlocked tbl key now.ms = false) :
    ∃ i, (lockoutNote tbl key false maxFails windowMs now.ms i).Counts key ∧
      DeadlineSet maxFails windowMs now (lockoutBlocked tbl key now.ms)
        (if c.Over windowMs now.time then 1 else c.fails + 1)
        (lockoutNote tbl key false maxFails windowMs now.ms i) := by
  rcases lockoutNote_fails maxFails windowMs some_slot tbl usable now.ms with
    ⟨i, counts, note⟩ | ⟨i, missed, -, note⟩
  · have some_fails : c.fails ≠ 0 := fun none => tracked.absent none i counts
    obtain ⟨j, counts', count, first, since⟩ := tracked.present some_fails
    obtain rfl := tracked.sound.only sized counts counts'
    refine ⟨i, ?_⟩
    rw [note, update_self]
    refine ⟨lockoutFail_counts _ maxFails windowMs, lockoutFail_deadline counts some_fails count
      first (Nat.le_trans since order) positive small few (fun running => ?_) free⟩
    rw [sized] at usable
    exact tracked.sound.blocked usable.1 usable.2 sized counts.2 running
  · have none : c.fails = 0 := by
      by_contra some_fails
      obtain ⟨j, counts, _⟩ := tracked.present some_fails
      exact missed j counts
    have ended : c.Over windowMs now.time := Or.inl none
    refine ⟨i, ?_⟩
    rw [note, update_self, if_pos ended]
    exact ⟨LockoutRec.fresh_counts maxFails windowMs, LockoutRec.fresh_deadline small _⟩

end

variable (maxFails windowMs) (calls : List (LockoutCall klen))

theorem lockoutRun_tracked (call : LockoutCall klen) (some_slot : 0 < n)
    (usable : call.key.length ≠ 0 ∧ call.key.length ≤ LOCKOUT_KEY_MAX)
    (clocked : Trace.Clocked LockoutCall.time LockoutCall.time 0 calls)
    (kept : Trace.Along (lockoutStep maxFails windowMs)
      (fun tbl earlier => earlier.Keeps maxFails windowMs call.key tbl) (lockoutZero n) calls) :
    Tracked klen windowMs call.key (lockoutClock calls) (failCount windowMs call.key calls)
      (lockoutRun maxFails windowMs calls n) :=
  Tracked.zero.run call.sized usable some_slot calls clocked kept

/-- The threshold law, for counts below the sign bit: a key at the threshold is blocked for a window
from its last failure, unless the threshold is one and a window restarts under a ban. -/
theorem lockoutRun_threshold (call : LockoutCall klen) (some_slot : 0 < n)
    (usable : klen ≠ 0 ∧ klen ≤ LOCKOUT_KEY_MAX)
    (clocked : Trace.Clocked LockoutCall.time LockoutCall.time 0 (calls ++ [call]))
    (kept : Trace.Along (lockoutStep maxFails windowMs)
      (fun tbl earlier => earlier.Keeps maxFails windowMs call.key tbl) (lockoutZero n) calls)
    (failed : call.success = false) (positive : 1 ≤ maxFails.toNat)
    (small : maxFails.toNat < 2 ^ 31)
    (few : (failCount windowMs call.key calls).fails + 1 < 2 ^ 31)
    (free : maxFails.toNat = 1 → (failCount windowMs call.key calls).Over windowMs call.time →
      lockoutBlocked (lockoutRun maxFails windowMs calls n) call.key call.now.ms = false) :
    (maxFails.toNat ≤ (failCount windowMs call.key (calls ++ [call])).fails →
        ∀ moment : UInt64, moment.toNat < call.time + windowMs.toNat →
          lockoutBlocked (lockoutRun maxFails windowMs (calls ++ [call]) n) call.key moment =
            true) ∧
      (lockoutBlocked (lockoutRun maxFails windowMs calls n) call.key call.now.ms = false →
        (failCount windowMs call.key (calls ++ [call])).fails < maxFails.toNat →
        ∀ moment : UInt64, call.time ≤ moment.toNat →
          lockoutBlocked (lockoutRun maxFails windowMs (calls ++ [call]) n) call.key moment =
            false) := by
  obtain ⟨before, last, _⟩ := (Trace.Clocked.append ..).mp clocked
  have usable' : call.key.length ≠ 0 ∧ call.key.length ≤ LOCKOUT_KEY_MAX := by
    rw [call.sized]
    exact usable
  have tracked := lockoutRun_tracked maxFails windowMs calls call some_slot usable' before kept
  have sound := lockoutRun_sound (n := n) maxFails windowMs (calls ++ [call]) clocked
  have stepped : lockoutRun maxFails windowMs (calls ++ [call]) n =
      lockoutNote (lockoutRun maxFails windowMs calls n) call.key false maxFails windowMs
        call.now.ms := by
    rw [lockoutRun, Trace.final_append, Trace.final_cons, Trace.final_nil, lockoutStep_fst, failed]
    rfl
  have count : (failCount windowMs call.key (calls ++ [call])).fails =
      if (failCount windowMs call.key calls).Over windowMs call.time then 1
      else (failCount windowMs call.key calls).fails + 1 := by
    rw [failCount_append, FailCount.note, if_neg (not_not.mpr rfl), failed,
      if_neg Bool.false_ne_true]
    split <;> rfl
  obtain ⟨i, counts, reaches, stays⟩ :=
    tracked.deadline call.sized usable' some_slot last positive small few free
  rw [← stepped] at counts reaches stays
  rw [count]
  exact ⟨fun reached moment soon =>
      sound.blocked_until usable call.sized counts (reaches reached) soon,
    fun idle below moment later =>
      sound.unblocked_from call.sized counts (stays idle below) later⟩

end

theorem lockoutRun_threshold_sample :
    lockoutBlocked (lockoutRun 2 1000 ([lockoutCallAt 1 10 (by decide)] ++
      [lockoutCallAt 1 20 (by decide)]) 2) [10, 0, 0, 1] 1019 = true :=
  (lockoutRun_threshold (n := 2) 2 1000 [lockoutCallAt 1 10 (by decide)]
    (lockoutCallAt 1 20 (by decide)) (by decide) (by decide) (by decide) (by decide +kernel) rfl
    (by decide) (by decide) (by decide +kernel) (by decide +kernel)).1 (by decide +kernel) 1019
    (by decide)

/-- With one failure allowed, the third starts a window under the second's ban, which stays. -/
theorem lockoutRun_threshold_missed :
    (failCount 100 [10, 0, 0, 1] [lockoutCallAt 1 10 (by decide), lockoutCallAt 1 60 (by decide),
        lockoutCallAt 1 120 (by decide)]).fails = 1 ∧
      lockoutBlocked (lockoutRun 1 100 [lockoutCallAt 1 10 (by decide),
        lockoutCallAt 1 60 (by decide), lockoutCallAt 1 120 (by decide)] 1) [10, 0, 0, 1] 160 =
          false := by
  decide +kernel

end Iwan
