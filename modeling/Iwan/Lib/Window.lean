import Mathlib

/- A counter over a time window of length `width`; the count stops at `cap`. -/

/-- A window and its count. -/
structure MarkWindow where
  start : Nat
  count : Nat
deriving DecidableEq, Repr

namespace MarkWindow

variable (width cap : Nat)

def Live (w : MarkWindow) (now : Nat) : Prop := w.start ≠ 0 ∧ now - w.start < width

instance (w : MarkWindow) (now : Nat) : Decidable (w.Live width now) := by
  unfold Live
  infer_instance

def Spent (w : MarkWindow) (now : Nat) : Prop := w.Live width now ∧ cap ≤ w.count

def current (w : MarkWindow) (now : Nat) : MarkWindow := if w.Live width now then w else ⟨now, 0⟩

def mark (w : MarkWindow) (now : Nat) (counts : Bool) : MarkWindow :=
  let w := w.current width now
  if counts then { w with count := if w.count < cap then w.count + 1 else w.count } else w

section

variable {width cap : Nat} {w : MarkWindow} {now : Nat}

theorem mark_live (live : w.Live width now) (counts : Bool) :
    w.mark width cap now counts =
      if counts then ⟨w.start, if w.count < cap then w.count + 1 else w.count⟩ else w := by
  simp only [mark, current, if_pos live]

theorem mark_dead (dead : ¬ w.Live width now) (positive : 0 < cap) (counts : Bool) :
    w.mark width cap now counts = ⟨now, if counts then 1 else 0⟩ := by
  simp only [mark, current, if_neg dead, if_pos positive]
  cases counts <;> rfl

end

section

variable {width cap : Nat} {w : MarkWindow}

/-- The window still knows of an event at `past`. -/
structure Recalls (width : Nat) (w : MarkWindow) (past : Nat) : Prop where
  none : w.start = 0 → past = 0
  shown : w.start ≠ 0 → w.start ≤ past → 0 < w.count ∧ past - w.start < width

theorem mark_recalls (wide : 0 < width) (positive : 0 < cap) (now : Nat) :
    Recalls width (w.mark width cap now true) now := by
  by_cases live : w.Live width now
  · rw [mark_live live]
    refine ⟨fun zero => absurd zero live.1, fun _ _ => ⟨?_, live.2⟩⟩
    simp only [↓reduceIte]
    split_ifs <;> omega
  · rw [mark_dead live positive]
    exact ⟨id, fun _ _ => ⟨Nat.one_pos, by rw [Nat.sub_self]; exact wide⟩⟩

theorem Recalls.mark {past now : Nat} (recalls : Recalls width w past) (positive : 0 < cap)
    (opened : w.start ≤ now) (later : past ≤ now) (counts : Bool) :
    Recalls width (w.mark width cap now counts) past := by
  by_cases live : w.Live width now
  · rw [mark_live live]
    cases counts with
    | false => exact recalls
    | true =>
      refine ⟨fun zero => absurd zero live.1, fun nonzero before => ?_⟩
      obtain ⟨shown, inside⟩ := recalls.shown nonzero before
      refine ⟨?_, inside⟩
      simp only [↓reduceIte]
      split_ifs <;> omega
  · rw [mark_dead live positive]
    refine ⟨fun zero => Nat.eq_zero_of_le_zero (zero ▸ later), fun nonzero before => ?_⟩
    -- a window that opens at `past` itself would have found the old one running
    obtain rfl : now = past := Nat.le_antisymm before later
    have running : w.start ≠ 0 := fun zero => nonzero (recalls.none zero)
    exact absurd ⟨running, (recalls.shown running opened).2⟩ live

theorem Recalls.before {past now : Nat} (recalls : Recalls width w past)
    (live : w.Live width now) (unmarked : w.count = 0) : past < w.start := by
  by_contra inside
  have shown := (recalls.shown live.1 (Nat.not_lt.mp inside)).1
  omega

end

section

variable {width cap : Nat} {w : MarkWindow} {now : Nat}

def room (cap : Nat) (w : MarkWindow) (start : Nat) : Nat :=
  if w.start = start then cap - w.count else if w.start < start then cap else 0

theorem room_le (start : Nat) : w.room cap start ≤ cap := by
  unfold room
  split_ifs <;> omega

theorem mark_room (positive : 0 < cap) (wide : 0 < width) (opened : w.start ≤ now)
    (counts : Bool) (unspent : counts = true → ¬ w.Spent width cap now) (start : Nat)
    (nonzero : start ≠ 0) :
    (w.mark width cap now counts).room cap start +
      (if counts = true ∧ (w.mark width cap now counts).start = start then 1 else 0) ≤
        w.room cap start := by
  by_cases live : w.Live width now
  · rw [mark_live live]
    cases counts with
    | false => simp
    | true =>
      have free : w.count < cap := by
        by_contra full
        exact unspent rfl ⟨live, Nat.not_lt.mp full⟩
      simp only [↓reduceIte, true_and, free, room]
      split_ifs <;> omega
  · rw [mark_dead live positive]
    -- the old window is over, so it did not open at `now` or later
    have earlier : now = start → w.start < start := by
      rintro rfl
      by_contra late
      obtain same : w.start = now := by omega
      exact live ⟨same ▸ nonzero, by rw [same, Nat.sub_self]; exact wide⟩
    unfold room
    cases counts <;> simp only [Bool.false_eq_true, ↓reduceIte, false_and, true_and] <;>
      split_ifs <;> omega

end

end MarkWindow
