import Iwan.Lib.Trace
import Iwan.Lib.Window

/- Grants counted in windows. -/
namespace Quota

/-- When the window of the last grant opened, the grants in it, and the last one's time. -/
structure Ledger where
  start : Nat
  used : Nat
  last : Nat

def Ledger.empty : Ledger := ⟨0, 0, 0⟩

/-- One more grant in the window of the last, or the first of a later window. -/
inductive Grants (width cap : Nat) (l : Ledger) (now : Nat) : Ledger → Prop
  | again (room : l.used < cap) (later : l.last ≤ now) :
      Grants width cap l now ⟨l.start, l.used + 1, now⟩
  | anew (start : Nat) (room : 0 < cap) (ended : l.used = 0 ∨ l.start + width ≤ now)
      (after : l.last ≤ start) (opened : start ≤ now) : Grants width cap l now ⟨start, 1, now⟩

section

variable {width cap since now count : Nat} {l next : Ledger}

/-- A count fits the two windows that it can touch. -/
structure Within (cap since : Nat) (l : Ledger) (count : Nat) : Prop where
  used_le : l.used ≤ cap
  some_last : 0 < count → 0 < l.used ∧ since ≤ l.last
  windows : count ≤ l.used ∨ since ≤ l.start ∧ count ≤ cap + l.used

theorem Within.empty (cap since : Nat) : Within cap since Ledger.empty 0 :=
  ⟨Nat.zero_le cap, fun some => absurd some (Nat.lt_irrefl 0), Or.inl (Nat.zero_le 0)⟩

theorem Within.bound (within : Within cap since l count) : count ≤ 2 * cap := by
  have used := within.used_le
  rcases within.windows with one | ⟨_, two⟩ <;> omega

theorem Within.grant (within : Within cap since l count)
    (grants : Grants width cap l now next) (inside : since ≤ now) (short : now < since + width) :
    Within cap since next (count + 1) := by
  cases grants with
  | again room later =>
    refine ⟨room, fun _ => ⟨Nat.succ_pos l.used, inside⟩, ?_⟩
    rcases within.windows with one | ⟨opened, two⟩
    · exact .inl (Nat.succ_le_succ one)
    · exact .inr ⟨opened, by dsimp only; omega⟩
  | anew start room ended after opened =>
    refine ⟨room, fun _ => ⟨Nat.one_pos, inside⟩, ?_⟩
    dsimp only
    by_cases none : count = 0
    · exact .inl (by omega)
    · obtain ⟨used, last⟩ := within.some_last (Nat.pos_of_ne_zero none)
      have used_le := within.used_le
      refine .inr ⟨by omega, ?_⟩
      -- had the last window opened inside the interval, it would not be over yet
      rcases within.windows with one | ⟨early, _⟩ <;> omega

theorem Within.early (within : Within cap since l count) (grants : Grants width cap l now next)
    (outside : now < since) : Within cap since next count := by
  have none : count = 0 := by
    by_contra some
    have last := (within.some_last (Nat.pos_of_ne_zero some)).2
    cases grants <;> omega
  subst none
  cases grants with
  | again room _ =>
    exact ⟨room, fun some => absurd some (Nat.lt_irrefl 0), Or.inl (Nat.zero_le _)⟩
  | anew _ room =>
    exact ⟨room, fun some => absurd some (Nat.lt_irrefl 0), Or.inl (Nat.zero_le _)⟩

end

section

variable {σ ε φ : Type} (step : σ → ε → σ × List φ) (time : ε → Nat) (granted : σ → ε → Bool)

def grantsIn (since til : Nat) (s : σ) (events : List ε) : Nat :=
  Trace.count step (fun s e => granted s e && decide (since ≤ time e ∧ time e ≤ til)) s events

theorem grantsIn_late (since til now : Nat) (s : σ) (events : List ε) (late : til < now)
    (clocked : Trace.Clocked time time now events) :
    grantsIn step time granted since til s events = 0 := by
  induction events generalizing s now with
  | nil => rfl
  | cons e rest ih =>
    have later : til < time e := Nat.lt_of_lt_of_le late clocked.1
    have outside : ¬ (since ≤ time e ∧ time e ≤ til) := by omega
    have none := ih (time e) (step s e).1 later clocked.2
    unfold grantsIn at none ⊢
    rw [Trace.count_cons, none, decide_eq_false outside, Bool.and_false]
    rfl

theorem grantsIn_le {width cap : Nat} (cond : σ → ε → Prop) (follows : σ → Ledger → Nat → Prop)
    (advance : ∀ s l now e, follows s l now → now ≤ time e → cond s e →
      if granted s e then
        ∃ next, Grants width cap l (time e) next ∧ follows (step s e).1 next (time e)
      else follows (step s e).1 l (time e))
    (since til : Nat) (short : til < since + width) (s : σ) (l : Ledger) (now count : Nat)
    (events : List ε) (holds : follows s l now) (within : Within cap since l count)
    (clocked : Trace.Clocked time time now events) (along : Trace.Along step cond s events) :
    count + grantsIn step time granted since til s events ≤ 2 * cap := by
  induction events generalizing s l now count with
  | nil => exact within.bound
  | cons e rest ih =>
    by_cases late : til < time e
    · rw [grantsIn_late step time granted since til (time e) s (e :: rest) late
        ⟨Nat.le_refl (time e), clocked.2⟩]
      exact within.bound
    · have next := advance s l now e holds clocked.1 along.1
      have tail : ∀ l' count', follows (step s e).1 l' (time e) → Within cap since l' count' →
          count' + grantsIn step time granted since til (step s e).1 rest ≤ 2 * cap :=
        fun l' count' holds' within' =>
          ih (step s e).1 l' (time e) count' holds' within' clocked.2 along.2
      unfold grantsIn at tail ⊢
      rw [Trace.count_cons]
      by_cases grant : granted s e = true
      · rw [if_pos grant] at next
        obtain ⟨l', grants, holds'⟩ := next
        by_cases inside : since ≤ time e
        · have counted := tail l' (count + 1) holds' (within.grant grants inside (by omega))
          rw [if_pos (by rw [grant, decide_eq_true ⟨inside, Nat.not_lt.mp late⟩]; rfl)]
          omega
        · have counted := tail l' count holds' (within.early grants (Nat.not_le.mp inside))
          rw [if_neg
            (by rw [decide_eq_false (fun both => inside both.1), Bool.and_false]; decide)]
          omega
      · rw [if_neg grant] at next
        have counted := tail l count next within
        rw [if_neg (by rw [Bool.not_eq_true _ |>.mp grant, Bool.false_and]; decide)]
        omega

end

section

variable {width cap now : Nat} {holds holds' : Nat → Prop} {seat : Option MarkWindow} {l : Ledger}

/-- The window of the last grant gives no room any more. -/
def Over (width : Nat) (holds : Nat → Prop) (l : Ledger) (now : Nat) : Prop :=
  l.used = 0 ∨ l.start + width ≤ now ∨ holds (l.start + width)

/-- A seat of the table follows the ledger of its key. -/
structure Tracks (width cap : Nat) (holds : Nat → Prop) (seat : Option MarkWindow) (l : Ledger)
    (now : Nat) : Prop where
  start_le : l.start ≤ l.last
  last_le : l.last ≤ now
  absent : seat = none → Over width holds l now
  opened : ∀ w, seat = some w → w.start ≤ now
  unused : ∀ w, seat = some w → w.count = 0 → Over width holds l now ∧ l.last ≤ w.start
  counted : ∀ w, seat = some w → 0 < w.count → w.start = l.start ∧ l.used = min w.count cap

theorem Over.later {next : Nat} (ended : Over width holds l now) (later : now ≤ next)
    (kept : next < l.start + width → holds (l.start + width) → holds' (l.start + width)) :
    Over width holds' l next := by
  rcases ended with none | old | held
  · exact .inl none
  · exact .inr (.inl (Nat.le_trans old later))
  · by_cases past : l.start + width ≤ next
    · exact .inr (.inl past)
    · exact .inr (.inr (kept (Nat.not_le.mp past) held))

theorem Tracks.later {next : Nat} (tracks : Tracks width cap holds seat l now) (later : now ≤ next)
    (kept : next < l.start + width → holds (l.start + width) → holds' (l.start + width)) :
    Tracks width cap holds' seat l next where
  start_le := tracks.start_le
  last_le := Nat.le_trans tracks.last_le later
  absent := fun none => (tracks.absent none).later later kept
  opened := fun w held => Nat.le_trans (tracks.opened w held) later
  unused := fun w held zero =>
    ⟨(tracks.unused w held zero).1.later later kept, (tracks.unused w held zero).2⟩
  counted := tracks.counted

theorem Tracks.ended (tracks : Tracks width cap holds seat l now)
    (out : ∀ w, seat = some w → 0 < w.count → w.start + width ≤ now ∨ holds (w.start + width)) :
    Over width holds l now := by
  cases held : seat with
  | none => exact tracks.absent held
  | some w =>
    by_cases zero : w.count = 0
    · exact (tracks.unused w held zero).1
    · have shown := (tracks.counted w held (Nat.pos_of_ne_zero zero)).1
      have past := out w held (Nat.pos_of_ne_zero zero)
      rw [shown] at past
      exact .inr past

theorem Tracks.start_le_seat (tracks : Tracks width cap holds seat l now) (w : MarkWindow)
    (held : seat = some w) : l.start ≤ w.start := by
  by_cases zero : w.count = 0
  · exact Nat.le_trans tracks.start_le (tracks.unused w held zero).2
  · exact Nat.le_of_eq (tracks.counted w held (Nat.pos_of_ne_zero zero)).1.symm

theorem Tracks.lose (tracks : Tracks width cap holds seat l now)
    (out : ∀ w, seat = some w → 0 < w.count → w.start + width ≤ now ∨ holds (w.start + width)) :
    Tracks width cap holds none l now where
  start_le := tracks.start_le
  last_le := tracks.last_le
  absent := fun _ => tracks.ended out
  opened := fun _ held => nomatch held
  unused := fun _ held => nomatch held
  counted := fun _ held => nomatch held

theorem Tracks.sit (tracks : Tracks width cap holds seat l now)
    (out : ∀ w, seat = some w → w.start + width ≤ now) :
    Tracks width cap holds (some ⟨now, 0⟩) l now where
  start_le := tracks.start_le
  last_le := tracks.last_le
  absent := fun none => nomatch none
  opened := fun w held => by obtain rfl := Option.some.inj held; exact Nat.le_refl now
  unused := fun w held _ => by
    obtain rfl := Option.some.inj held
    exact ⟨tracks.ended fun w held _ => Or.inl (out w held), tracks.last_le⟩
  counted := fun w held some => by
    obtain rfl := Option.some.inj held
    exact absurd some (Nat.lt_irrefl 0)

theorem Tracks.grant {w : MarkWindow} (tracks : Tracks width cap holds (some w) l now)
    (free : holds (l.start + width) → l.start + width ≤ now) (room : w.count < cap) :
    ∃ next, Grants width cap l now next ∧
      Tracks width cap holds' (some ⟨w.start, w.count + 1⟩) next now := by
  have opened := tracks.opened w rfl
  by_cases zero : w.count = 0
  · obtain ⟨ended, after⟩ := tracks.unused w rfl zero
    have done : l.used = 0 ∨ l.start + width ≤ now := by
      rcases ended with none | old | held
      · exact .inl none
      · exact .inr old
      · exact .inr (free held)
    refine ⟨⟨w.start, 1, now⟩, .anew w.start (by omega) done after opened, ?_⟩
    exact {
      start_le := opened
      last_le := Nat.le_refl now
      absent := fun none => nomatch none
      opened := fun v held => by obtain rfl := Option.some.inj held; exact opened
      unused := fun v held none => by
        obtain rfl := Option.some.inj held
        exact absurd none (Nat.succ_ne_zero w.count)
      counted := fun v held _ => by
        obtain rfl := Option.some.inj held
        exact ⟨rfl, by dsimp only; omega⟩ }
  · obtain ⟨shown, used⟩ := tracks.counted w rfl (Nat.pos_of_ne_zero zero)
    refine ⟨⟨l.start, l.used + 1, now⟩, .again (by omega) tracks.last_le, ?_⟩
    exact {
      start_le := Nat.le_trans tracks.start_le tracks.last_le
      last_le := Nat.le_refl now
      absent := fun none => nomatch none
      opened := fun v held => by obtain rfl := Option.some.inj held; exact opened
      unused := fun v held none => by
        obtain rfl := Option.some.inj held
        exact absurd none (Nat.succ_ne_zero w.count)
      counted := fun v held _ => by
        obtain rfl := Option.some.inj held
        exact ⟨shown, by dsimp only; omega⟩ }

theorem Tracks.refuse {w : MarkWindow} (tracks : Tracks width cap holds (some w) l now)
    (full : cap ≤ w.count) (positive : 0 < w.count) :
    Tracks width cap holds (some ⟨w.start, w.count + 1⟩) l now where
  start_le := tracks.start_le
  last_le := tracks.last_le
  absent := fun none => nomatch none
  opened := fun v held => by obtain rfl := Option.some.inj held; exact tracks.opened w rfl
  unused := fun v held none => by
    obtain rfl := Option.some.inj held
    exact absurd none (Nat.succ_ne_zero w.count)
  counted := fun v held _ => by
    obtain rfl := Option.some.inj held
    obtain ⟨shown, used⟩ := tracks.counted w rfl positive
    exact ⟨shown, by dsimp only; omega⟩

end

end Quota
