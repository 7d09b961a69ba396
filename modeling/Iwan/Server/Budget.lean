import Iwan.Lib.Window
import Iwan.Server.Slots

/- The token budget as a counting window. -/
namespace Iwan

def Session.window (s : Session) : MarkWindow := ⟨s.tokMisWin.toNat, s.tokMisCnt.toNat⟩

section

variable (s : Session) (now : UInt64)

theorem tokWinLive_iff (opened : s.tokMisWin ≤ now) :
    tokWinLive s now = true ↔ s.window.Live 1000 now.toNat := by
  have elapsed : (now - s.tokMisWin).toNat = now.toNat - s.tokMisWin.toNat :=
    UInt64.toNat_sub_of_le _ _ opened
  have nonzero : s.tokMisWin ≠ 0 ↔ s.tokMisWin.toNat ≠ 0 := by
    rw [← UInt64.toNat_inj.ne]
    rfl
  simp only [tokWinLive, Bool.and_eq_true, decide_eq_true_eq, UInt64.lt_iff_toNat_lt, elapsed,
    nonzero]
  rfl

theorem tokBudgetOver_iff (opened : s.tokMisWin ≤ now) :
    tokBudgetOver s now = true ↔ s.window.Spent 1000 4 now.toNat := by
  simp only [tokBudgetOver, Bool.and_eq_true, tokWinLive_iff s now opened, decide_eq_true_eq,
    UInt32.le_iff_toNat_le]
  rfl

theorem tokRebindAllowed_window (opened : s.tokMisWin ≤ now)
    (allowed : tokRebindAllowed s now = true) (live : s.window.Live 1000 now.toNat) :
    s.window.count = 0 := by
  have running := (tokWinLive_iff s now opened).mpr live
  simp only [tokRebindAllowed, running, Bool.not_true, Bool.false_or, decide_eq_true_eq] at allowed
  exact congrArg UInt32.toNat allowed

theorem saturate_toNat (cnt : UInt32) :
    (saturate cnt rateTokenMismatchMax).toNat =
      if cnt.toNat < 4 then cnt.toNat + 1 else cnt.toNat := by
  unfold saturate
  by_cases free : cnt < rateTokenMismatchMax
  · have low : cnt.toNat < 4 := UInt32.lt_iff_toNat_lt.mp free
    rw [if_pos free, if_pos low, UInt32.toNat_add]
    exact Nat.mod_eq_of_lt (by simp only [UInt32.reduceToNat]; omega)
  · have high : ¬ cnt.toNat < 4 := fun low => free (UInt32.lt_iff_toNat_lt.mpr low)
    rw [if_neg free, if_neg high]

theorem tokBudgetCharge_window (opened : s.tokMisWin ≤ now) (bound : Bool) :
    (tokBudgetCharge s bound now).window = s.window.mark 1000 4 now.toNat (!bound) := by
  by_cases running : tokWinLive s now = true
  · have live := (tokWinLive_iff s now opened).mp running
    rw [MarkWindow.mark_live live]
    cases bound with
    | true => simp only [tokBudgetCharge, running, ↓reduceIte, Bool.not_true, Bool.false_eq_true,
        Session.window]
    | false =>
      simp only [tokBudgetCharge, running, ↓reduceIte, Bool.not_false, Bool.false_eq_true,
        Session.window, saturate_toNat]
      rfl
  · have dead : ¬ s.window.Live 1000 now.toNat :=
      fun live => running ((tokWinLive_iff s now opened).mpr live)
    rw [MarkWindow.mark_dead dead (by decide)]
    cases bound with
    | true => simp only [tokBudgetCharge, running, Bool.false_eq_true, ↓reduceIte, Bool.not_true,
        Session.window, UInt32.reduceToNat]
    | false => simp only [tokBudgetCharge, running, Bool.false_eq_true, ↓reduceIte, Bool.not_false,
        Session.window, saturate_toNat, UInt32.reduceToNat, Nat.ofNat_pos, Nat.zero_add]

end

/-- No stamp of a session is in the future. -/
structure Stamped (now : UInt64) (s : Session) : Prop where
  active : s.lastActiveMs ≤ now
  window : s.tokMisWin ≤ now

theorem Stamped.later {now now' : UInt64} {s : Session} (stamped : Stamped now s)
    (after : now ≤ now') : Stamped now' s :=
  ⟨UInt64.le_trans stamped.active after, UInt64.le_trans stamped.window after⟩

theorem tokBudgetCharge_stamped {now : UInt64} {s : Session} (stamped : Stamped now s)
    (bound : Bool) : Stamped now (tokBudgetCharge s bound now) := by
  unfold tokBudgetCharge
  dsimp only
  split_ifs
  · exact ⟨stamped.active, stamped.window⟩
  · exact ⟨stamped.active, UInt64.le_refl now⟩
  · exact ⟨stamped.active, stamped.window⟩
  · exact ⟨stamped.active, UInt64.le_refl now⟩

theorem Clock.entry_le_stall (clock : Clock) : clock.entry ≤ clock.stall :=
  UInt64.le_trans (UInt64.le_trans clock.entry_le_rate clock.rate_le_check)
    (UInt64.le_trans clock.check_le_stamp clock.stamp_le_stall)

theorem Event.start_le_finish (e : Event) : e.start ≤ e.finish := by
  cases e with
  | udp d env => exact env.clock.entry_le_stall
  | purge now => exact UInt64.le_refl now

section

variable {crypto : Crypto} {machine : Machine} {users : List ServerUser}

theorem SlotOutcome.stamped {w : World} {i : Slot} {e : Event} {s : Session} {fx : List Effect}
    (outcome : SlotOutcome crypto users w i e s fx) (stamped : Stamped e.start (w.ctx.sess i)) :
    Stamped e.finish s := by
  have kept := stamped.later e.start_le_finish
  cases outcome with
  | untouched e fx noWipe noInstall noCharge => exact kept
  | charged d env live cause =>
    exact (tokBudgetCharge_stamped stamped _).later env.clock.entry_le_stall
  | driven d env til fx live cause probe noWipe noInstall noCharge =>
    exact ⟨env.clock.stamp_le_stall, kept.window⟩
  | closed d env fx live cause wipes =>
    rw [Session.wiped, if_pos live]
    exact ⟨kept.active, kept.window⟩
  | expired now fx live idle wipes =>
    rw [Session.wiped, if_pos live]
    exact ⟨kept.active, kept.window⟩
  | refilled d env a u fx live cause wipes installs =>
    exact ⟨env.clock.stamp_le_stall, UInt64.zero_le⟩
  | filled d env a u ipu fx free granted newUser probed installs =>
    exact ⟨env.clock.stamp_le_stall, UInt64.zero_le⟩

/-- The table, with its stamps. -/
structure ClockedInv (now : UInt64) (w : World) : Prop where
  table : TableInv w.ctx
  stamped : ∀ i, Stamped now (w.ctx.sess i)

theorem Booted.clockedInv {w : World} (boot : Booted w.ctx) (now : UInt64) : ClockedInv now w := by
  refine ⟨boot.tableInv, fun i => ?_⟩
  rw [boot.zeroed i]
  exact ⟨UInt64.zero_le, UInt64.zero_le⟩

theorem serverStep_clockedInv (now : UInt64) (w : World) (e : Event) (inv : ClockedInv now w)
    (after : now ≤ e.start) :
    ClockedInv e.finish (serverStep crypto machine users w e).1 :=
  ⟨serverStep_tableInv w e inv.table,
    fun i => (serverStep_slot w e inv.table i).stamped ((inv.stamped i).later after)⟩

theorem serverRun_clockedInv (now : UInt64) (w : World) (events : List Event)
    (clocked : ServerClocked now events) (inv : ClockedInv now w) :
    ClockedInv (serverClock now events) (serverRun crypto machine users w events) :=
  Trace.final_clocked_invariant _ _ _ ClockedInv serverStep_clockedInv now w events clocked inv

end

end Iwan
