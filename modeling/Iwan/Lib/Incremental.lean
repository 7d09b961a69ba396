import Mathlib

/- Readers of a growing buffer. -/
namespace Incremental

variable {α β σ : Type}

def Stable (judge : List α → Option β) : Prop :=
  ∀ buf more v, judge buf = some v → judge (buf ++ more) = some v

def SettledOn {γ : Type} (ready : List α → Prop) (value : List α → γ) : Prop :=
  ∀ buf more, ready buf → value (buf ++ more) = value buf

def StableOn (ready : List α → Prop) (judge : List α → Option β) : Prop :=
  ∀ buf more v, ready buf → judge buf = some v → judge (buf ++ more) = some v

section

variable {ready : List α → Prop} {judge other : List α → Option β}

theorem StableOn.stable (everywhere : StableOn (fun _ => True) judge) : Stable judge :=
  fun buf more v judged => everywhere buf more v trivial judged

theorem SettledOn.judgement (settled : SettledOn ready judge) : StableOn ready judge := by
  intro buf more v there judged
  rw [settled buf more there]
  exact judged

theorem StableOn.await {need : List α → Nat} (settled : SettledOn ready need)
    (later : StableOn (fun buf => ready buf ∧ need buf ≤ buf.length) judge) :
    StableOn ready fun buf => if buf.length < need buf then none else judge buf := by
  intro buf more v there judged
  dsimp only at judged ⊢
  by_cases short : buf.length < need buf
  · rw [if_pos short] at judged
    cases judged
  · rw [if_neg short] at judged
    rw [List.length_append, settled buf more there, if_neg (by omega)]
    exact later buf more v ⟨there, by omega⟩ judged

theorem StableOn.choose {test : List α → Prop} [DecidablePred test] (settled : SettledOn ready test)
    (yes : StableOn ready judge) (no : StableOn ready other) :
    StableOn ready fun buf => if test buf then judge buf else other buf := by
  intro buf more v there judged
  dsimp only at judged ⊢
  have same := settled buf more there
  by_cases holds : test buf
  · rw [if_pos holds] at judged
    rw [if_pos (same ▸ holds)]
    exact yes buf more v there judged
  · rw [if_neg holds] at judged
    rw [if_neg (same ▸ holds)]
    exact no buf more v there judged

end

/-- A parser that takes a message off the front of what has come, and does not change its mind. -/
structure Machine (σ α : Type) where
  step : σ → List α → Option (σ × Nat)
  rank : σ → Nat
  stable : ∀ s, Stable (step s)
  fits : ∀ s buf s' used, step s buf = some (s', used) → used ≤ buf.length
  falls : ∀ s buf s' used, step s buf = some (s', used) → rank s' < rank s

namespace Machine

variable (m : Machine σ α)

def settleWithin : Nat → σ → List α → σ × List α
  | 0, s, buf => (s, buf)
  | fuel + 1, s, buf =>
    match m.step s buf with
    | none => (s, buf)
    | some (s', used) => settleWithin fuel s' (buf.drop used)

def settle (s : σ) (buf : List α) : σ × List α := m.settleWithin (m.rank s) s buf

theorem settleWithin_of_wait (fuel : Nat) {s : σ} {buf : List α} (wait : m.step s buf = none) :
    m.settleWithin fuel s buf = (s, buf) := by
  cases fuel with
  | zero => rfl
  | succ fuel => rw [settleWithin, wait]

theorem settleWithin_of_step (fuel : Nat) {s s' : σ} {buf : List α} {used : Nat}
    (stepped : m.step s buf = some (s', used)) :
    m.settleWithin (fuel + 1) s buf = m.settleWithin fuel s' (buf.drop used) := by
  rw [settleWithin, stepped]

theorem settleWithin_enough {fuel fuel' : Nat} {s : σ} {buf : List α} (enough : m.rank s ≤ fuel)
    (enough' : m.rank s ≤ fuel') : m.settleWithin fuel s buf = m.settleWithin fuel' s buf := by
  induction fuel generalizing fuel' s buf with
  | zero =>
    cases stepped : m.step s buf with
    | none => rw [m.settleWithin_of_wait _ stepped, m.settleWithin_of_wait _ stepped]
    | some next =>
      have lower := m.falls s buf next.1 next.2 stepped
      omega
  | succ fuel ih =>
    cases stepped : m.step s buf with
    | none => rw [m.settleWithin_of_wait _ stepped, m.settleWithin_of_wait _ stepped]
    | some next =>
      have lower := m.falls s buf next.1 next.2 stepped
      cases fuel' with
      | zero => omega
      | succ fuel' =>
        rw [m.settleWithin_of_step _ stepped, m.settleWithin_of_step _ stepped]
        exact ih (by omega) (by omega)

theorem settleWithin_eq {fuel : Nat} {s : σ} {buf : List α} (enough : m.rank s ≤ fuel) :
    m.settleWithin fuel s buf = m.settle s buf :=
  m.settleWithin_enough enough (Nat.le_refl _)

theorem settle_of_wait {s : σ} {buf : List α} (wait : m.step s buf = none) :
    m.settle s buf = (s, buf) := m.settleWithin_of_wait _ wait

theorem settle_of_step {s s' : σ} {buf : List α} {used : Nat}
    (stepped : m.step s buf = some (s', used)) :
    m.settle s buf = m.settle s' (buf.drop used) := by
  have lower := m.falls s buf s' used stepped
  rw [← m.settleWithin_eq (Nat.le_succ (m.rank s)), m.settleWithin_of_step _ stepped]
  exact m.settleWithin_eq (Nat.le_of_lt lower)

theorem settle_append (s : σ) (buf more : List α) :
    m.settle s (buf ++ more) = m.settle (m.settle s buf).1 ((m.settle s buf).2 ++ more) := by
  induction rank_eq : m.rank s using Nat.strong_induction_on generalizing s buf with
  | _ rank ih =>
    cases stepped : m.step s buf with
    | none => rw [m.settle_of_wait stepped]
    | some next =>
      obtain ⟨s', used⟩ := next
      have lower := m.falls s buf s' used stepped
      have fits := m.fits s buf s' used stepped
      rw [m.settle_of_step stepped, m.settle_of_step (m.stable s buf more _ stepped),
        List.drop_append_of_le_length fits]
      exact ih (m.rank s') (rank_eq ▸ lower) s' (buf.drop used) rfl

def feed (p : σ × List α) (piece : List α) : σ × List α := m.settle p.1 (p.2 ++ piece)

theorem feeds_eq (s : σ) (buf : List α) (pieces : List (List α)) :
    pieces.foldl m.feed (m.settle s buf) = m.settle s (buf ++ pieces.flatten) := by
  induction pieces generalizing buf with
  | nil => rw [List.foldl_nil, List.flatten_nil, List.append_nil]
  | cons piece rest ih =>
    rw [List.foldl_cons, feed, ← m.settle_append, ih, List.flatten_cons, List.append_assoc]

end Machine

/-- A stream that comes in pieces. -/
structure Source (α : Type) where
  pieces : List (List α)
  taken : Nat

namespace Source

def rest (src : Source α) : List α := src.pieces.flatten

def Flowing (src : Source α) : Prop := ∀ piece ∈ src.pieces, piece ≠ []

def recv (src : Source α) (limit len : Nat) : Option (List α × Source α) :=
  match src.pieces with
  | [] => some ([], src)
  | piece :: later =>
    let got := piece.take len
    let left := if piece.length ≤ len then later else piece.drop len :: later
    if limit < src.taken + got.length then none
    else some (got, ⟨left, src.taken + got.length⟩)

def readWithin (judge : List α → Option β) (limit cap : Nat) :
    Nat → List α → Source α → Option (β × List α × Source α)
  | 0, _, _ => none
  | fuel + 1, buf, src =>
    match judge buf with
    | some v => some (v, buf, src)
    | none =>
      if cap ≤ buf.length then none
      else
        match src.recv limit (cap - buf.length) with
        | none => none
        | some ([], _) => none
        | some (got, src') => readWithin judge limit cap fuel (buf ++ got) src'

def readUntil (judge : List α → Option β) (limit cap : Nat) (buf : List α) (src : Source α) :
    Option (β × List α × Source α) :=
  readWithin judge limit cap (src.rest.length + 1) buf src

/-- A reader has moved a front of the stream into its buffer. -/
structure Behind (src : Source α) (buf : List α) (src' : Source α) (buf' : List α) : Prop where
  stream : buf' ++ src'.rest = buf ++ src.rest
  flowing : src'.Flowing
  taken : src'.taken + buf.length = src.taken + buf'.length

theorem Behind.refl {src : Source α} (flowing : src.Flowing) (buf : List α) :
    Behind src buf src buf :=
  ⟨rfl, flowing, rfl⟩

theorem Behind.trans {src src' src'' : Source α} {buf buf' buf'' : List α}
    (first : Behind src buf src' buf') (second : Behind src' buf' src'' buf'') :
    Behind src buf src'' buf'' where
  stream := second.stream.trans first.stream
  flowing := second.flowing
  taken := by
    have before := first.taken
    have after := second.taken
    omega

theorem recv_end {src : Source α} (done : src.rest = []) (flowing : src.Flowing)
    (limit len : Nat) : src.recv limit len = some ([], src) := by
  unfold recv
  cases pieces : src.pieces with
  | nil => rfl
  | cons piece later =>
    have nonempty := flowing piece (pieces ▸ List.mem_cons_self)
    rw [rest, pieces, List.flatten_cons] at done
    exact absurd (List.append_eq_nil_iff.mp done).1 nonempty

theorem recv_some {src : Source α} (more : src.rest ≠ []) (flowing : src.Flowing)
    {limit len : Nat} (wanted : 0 < len) (room : src.taken + len ≤ limit) :
    ∃ got src', src.recv limit len = some (got, src') ∧ got ≠ [] ∧ got.length ≤ len ∧
      got ++ src'.rest = src.rest ∧ src'.Flowing ∧ src'.taken = src.taken + got.length := by
  unfold recv
  cases pieces : src.pieces with
  | nil =>
    rw [rest, pieces] at more
    exact absurd rfl more
  | cons piece later =>
    have nonempty := flowing piece (pieces ▸ List.mem_cons_self)
    have short : (piece.take len).length ≤ len := List.length_take_le len piece
    dsimp only
    rw [if_neg (by omega)]
    refine ⟨_, _, rfl, ?_, short, ?_, ?_, rfl⟩
    · intro empty
      rcases List.take_eq_nil_iff.mp empty with zero | none
      · omega
      · exact nonempty none
    · rw [rest, rest, pieces]
      dsimp only
      split
      · rename_i whole
        rw [List.take_of_length_le whole, List.flatten_cons]
      · rw [List.flatten_cons, List.flatten_cons, ← List.append_assoc, List.take_append_drop]
    · intro part inside
      dsimp only at inside
      split at inside
      · exact flowing part (pieces ▸ List.mem_cons_of_mem piece inside)
      · rename_i longer
        rcases List.mem_cons.mp inside with rfl | other
        · intro empty
          exact longer (List.drop_eq_nil_iff.mp empty)
        · exact flowing part (pieces ▸ List.mem_cons_of_mem piece other)

section

variable {judge : List α → Option β} (limit : Nat) {cap : Nat}

theorem readWithin_spec (stable : Stable judge)
    (decides : ∀ buf, cap ≤ buf.length → judge buf ≠ none) (fuel : Nat) (buf : List α)
    (src : Source α) (flowing : src.Flowing) (room : src.taken + cap ≤ limit + buf.length)
    (enough : src.rest.length < fuel) :
    match judge (buf ++ src.rest) with
    | none => readWithin judge limit cap fuel buf src = none
    | some v => ∃ buf' src', readWithin judge limit cap fuel buf src = some (v, buf', src') ∧
        judge buf' = some v ∧ Behind src buf src' buf' ∧ buf'.length ≤ max cap buf.length := by
  induction fuel generalizing buf src with
  | zero => omega
  | succ fuel ih =>
    rw [readWithin]
    cases judged : judge buf with
    | some v =>
      rw [stable buf src.rest v judged]
      exact ⟨buf, src, rfl, judged, Behind.refl flowing buf, Nat.le_max_right _ _⟩
    | none =>
      have short : buf.length < cap := by
        by_contra full
        exact decides buf (by omega) judged
      dsimp only
      rw [if_neg (by omega)]
      by_cases done : src.rest = []
      · rw [recv_end done flowing, done, List.append_nil, judged]
      · obtain ⟨got, src', received, some_got, fits, cut, flowing', taken⟩ :=
          recv_some done flowing (show 0 < cap - buf.length by omega)
            (show src.taken + (cap - buf.length) ≤ limit by omega)
        have longer := List.length_pos_of_ne_nil some_got
        have size : got.length + src'.rest.length = src.rest.length := by
          rw [← cut, List.length_append]
        have next := ih (buf ++ got) src' flowing'
          (by rw [List.length_append]; omega) (by omega)
        rw [List.append_assoc, cut] at next
        rw [received]
        cases got with
        | nil => exact absurd rfl some_got
        | cons x xs =>
          dsimp only
          cases whole : judge (buf ++ src.rest) with
          | none =>
            rw [whole] at next
            exact next
          | some v =>
            rw [whole] at next
            obtain ⟨buf', src'', read, made, behind, bound⟩ := next
            have step : Behind src buf src' (buf ++ (x :: xs)) := by
              refine ⟨by rw [List.append_assoc, cut], flowing', ?_⟩
              rw [taken, List.length_append]
              omega
            refine ⟨buf', src'', read, made, step.trans behind, ?_⟩
            rw [List.length_append] at bound
            omega

theorem readUntil_spec (stable : Stable judge)
    (decides : ∀ buf, cap ≤ buf.length → judge buf ≠ none) (buf : List α) (src : Source α)
    (flowing : src.Flowing) (room : src.taken + cap ≤ limit + buf.length) :
    match judge (buf ++ src.rest) with
    | none => readUntil judge limit cap buf src = none
    | some v => ∃ buf' src', readUntil judge limit cap buf src = some (v, buf', src') ∧
        judge buf' = some v ∧ Behind src buf src' buf' ∧ buf'.length ≤ max cap buf.length :=
  readWithin_spec limit stable decides _ buf src flowing room (Nat.lt_succ_self _)

end

end Source

end Incremental
