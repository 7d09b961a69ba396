import Mathlib

/- The pacing of the send rate (util.c): the time that a call sleeps is credited to the next as
well. -/
namespace Iwan

/-- The token bucket of the senders. -/
structure PaceBucket where
  /-- Packets per second; zero switches the pacing off. -/
  pps : Nat
  budget : Nat
  /-- The last refill in microseconds. -/
  last : Nat

def PaceBucket.init (pps : Nat) : PaceBucket := ⟨pps, 0, 0⟩

def paceSlice : Nat := 10000

def paceSlices : Nat → Nat → List Nat
  | 0, _ => []
  | fuel + 1, need =>
    if need = 0 then []
    else
      let s := if need < paceSlice then need else paceSlice
      s :: paceSlices fuel (need - s)

/-- The function pace_take, with the sleeps it asks for. -/
def paceTake (b : PaceBucket) (npk now : Nat) : PaceBucket × List Nat :=
  if b.pps = 0 then (b, [])
  else
    let last := if b.last = 0 then now else b.last
    let budget := b.budget + (now - last) * b.pps % 2 ^ 64 / 1000000
    let budget := if b.pps / 10 < budget then b.pps / 10 else budget
    if budget < npk then
      let need := (npk - budget) * 1000000 / b.pps
      ({ b with budget := 0, last := now }, paceSlices need need)
    else ({ b with budget := budget - npk, last := now }, [])

/-- The packets that the time since the last call is worth. -/
def PaceBucket.refill (b : PaceBucket) (now : Nat) : Nat :=
  (now - (if b.last = 0 then now else b.last)) * b.pps % 2 ^ 64 / 1000000

/-- The budget that a call finds: what is left and the refill, capped. -/
def PaceBucket.found (b : PaceBucket) (now : Nat) : Nat :=
  if b.pps / 10 < b.budget + b.refill now then b.pps / 10 else b.budget + b.refill now

/-- A call for `npk` packets, and the moments at which it starts and returns. -/
structure PaceCall where
  npk : Nat
  start : Nat
  back : Nat
deriving DecidableEq

def PaceBucket.after (b : PaceBucket) (c : PaceCall) : PaceBucket := (paceTake b c.npk c.start).1

def PaceBucket.slept (b : PaceBucket) (c : PaceCall) : Nat := (paceTake b c.npk c.start).2.sum

def paceAfter (b : PaceBucket) (calls : List PaceCall) : PaceBucket :=
  calls.foldl PaceBucket.after b

def paceReturn (clock : Nat) (calls : List PaceCall) : Nat := calls.foldl (fun _ c => c.back) clock

def pacePackets (calls : List PaceCall) : Nat := (calls.map PaceCall.npk).sum

/-- The clock does not run back, and a sleep takes at least the time asked for. -/
def Paced : PaceBucket → Nat → List PaceCall → Prop
  | _, _, [] => True
  | b, clock, c :: rest =>
    clock ≤ c.start ∧ c.start + b.slept c ≤ c.back ∧ Paced (b.after c) c.back rest

instance Paced.decidable : ∀ (b : PaceBucket) (clock : Nat) (calls : List PaceCall),
    Decidable (Paced b clock calls)
  | _, _, [] => inferInstanceAs (Decidable True)
  | b, _, c :: rest =>
    have : Decidable (Paced (b.after c) c.back rest) := Paced.decidable (b.after c) c.back rest
    inferInstanceAs (Decidable (_ ∧ _ ∧ _))

/-- A call finds its packets in the budget, or lacks a number of them that whole microseconds of
sleep pay for, but for one packet. -/
def PaceCall.Paid (b : PaceBucket) (c : PaceCall) : Prop :=
  c.npk ≤ b.found c.start ∨ (c.npk - b.found c.start) * 1000000 % b.pps ≤ 1000000

/-- A call finds its packets in the budget, or the next one starts when the time since its return
alone fills the bucket. -/
def PaceCall.Rested (b : PaceBucket) (c d : PaceCall) : Prop :=
  c.npk ≤ b.found c.start ∨ 1000000 * (b.pps / 10) ≤ b.pps * (d.start - c.back)

def Unhurried : PaceBucket → List PaceCall → Prop
  | _, [] => True
  | b, [c] => c.Paid b
  | b, c :: d :: rest => c.Paid b ∧ c.Rested b d ∧ Unhurried (b.after c) (d :: rest)

instance Unhurried.decidable : ∀ (b : PaceBucket) (calls : List PaceCall),
    Decidable (Unhurried b calls)
  | _, [] => inferInstanceAs (Decidable True)
  | _, [_] => inferInstanceAs (Decidable (_ ∨ _))
  | b, c :: d :: rest =>
    have : Decidable (Unhurried (b.after c) (d :: rest)) :=
      Unhurried.decidable (b.after c) (d :: rest)
    inferInstanceAs (Decidable ((_ ∨ _) ∧ (_ ∨ _) ∧ _))

section

variable {b : PaceBucket} {c : PaceCall}

theorem paceSlices_sum (fuel need : Nat) (enough : need ≤ fuel) :
    (paceSlices fuel need).sum = need := by
  induction fuel generalizing need with
  | zero =>
    have none : need = 0 := by omega
    rw [none]
    rfl
  | succ fuel ih =>
    unfold paceSlices
    by_cases none : need = 0
    · rw [if_pos none, none]
      rfl
    · rw [if_neg none]
      dsimp only
      unfold paceSlice
      by_cases short : need < 10000
      · rw [if_pos short, List.sum_cons, ih _ (by omega)]
        omega
      · rw [if_neg short, List.sum_cons, ih _ (by omega)]
        omega

theorem paceTake_eq (on : b.pps ≠ 0) (npk now : Nat) :
    paceTake b npk now =
      if b.found now < npk then
        ({ b with budget := 0, last := now }, paceSlices ((npk - b.found now) * 1000000 / b.pps)
          ((npk - b.found now) * 1000000 / b.pps))
      else ({ b with budget := b.found now - npk, last := now }, []) := by
  rw [paceTake, if_neg on]
  rfl

theorem paceTake_cases (on : b.pps ≠ 0) :
    b.found c.start < c.npk ∧ b.after c = ⟨b.pps, 0, c.start⟩ ∧
        b.slept c = (c.npk - b.found c.start) * 1000000 / b.pps ∨
      c.npk ≤ b.found c.start ∧ b.after c = ⟨b.pps, b.found c.start - c.npk, c.start⟩ := by
  unfold PaceBucket.after PaceBucket.slept
  rw [paceTake_eq on]
  by_cases lacks : b.found c.start < c.npk
  · rw [if_pos lacks]
    exact .inl ⟨lacks, rfl, paceSlices_sum _ _ (Nat.le_refl _)⟩
  · rw [if_neg lacks]
    exact .inr ⟨Nat.not_lt.mp lacks, rfl⟩

theorem found_le_cap (b : PaceBucket) (now : Nat) : b.found now ≤ b.pps / 10 := by
  unfold PaceBucket.found
  split <;> omega

theorem found_le_credit (b : PaceBucket) (now : Nat) :
    1000000 * b.found now ≤ 1000000 * b.budget + b.pps * (now - b.last) := by
  have elapsed : now - (if b.last = 0 then now else b.last) ≤ now - b.last := by
    split <;> omega
  have scaled := Nat.mul_le_mul_left b.pps elapsed
  have wrapped := Nat.mod_le ((now - (if b.last = 0 then now else b.last)) * b.pps) (2 ^ 64)
  have refilled : 1000000 * b.refill now ≤ b.pps * (now - b.last) := by
    rw [PaceBucket.refill]
    rw [Nat.mul_comm b.pps] at scaled
    omega
  unfold PaceBucket.found
  split <;> omega

theorem after_pps (b : PaceBucket) (c : PaceCall) : (b.after c).pps = b.pps := by
  by_cases on : b.pps = 0
  · rw [PaceBucket.after, paceTake, if_pos on]
  · rcases paceTake_cases (c := c) on with ⟨_, next, _⟩ | ⟨_, next⟩
    · rw [next]
    · rw [next]

/-- What a call takes beyond the budget it finds is paid by its sleep, but for one packet. -/
theorem call_pays (on : b.pps ≠ 0) (slept : c.start + b.slept c ≤ c.back) (paid : c.Paid b) :
    1000000 * c.npk ≤ 1000000 * b.found c.start + b.pps * (c.back - c.start) + 1000000 := by
  rcases paceTake_cases (c := c) on with ⟨lacks, _, sleeps⟩ | ⟨enough, _⟩
  · have rounded := paid.resolve_left (Nat.not_le.mpr lacks)
    have whole := Nat.div_add_mod ((c.npk - b.found c.start) * 1000000) b.pps
    rw [← sleeps] at whole
    have time : b.pps * b.slept c ≤ b.pps * (c.back - c.start) :=
      Nat.mul_le_mul_left _ (by omega)
    omega
  · omega

end

section

variable {b : PaceBucket} {clock : Nat} {calls : List PaceCall} {c d : PaceCall}

theorem paceAfter_pps (b : PaceBucket) (calls : List PaceCall) :
    (paceAfter b calls).pps = b.pps := by
  induction calls generalizing b with
  | nil => rfl
  | cons c rest ih => exact (ih (b.after c)).trans (after_pps b c)

theorem Paced.append {before : List PaceCall} (run : Paced b clock (before ++ calls)) :
    Paced (paceAfter b before) (paceReturn clock before) calls := by
  induction before generalizing b clock with
  | nil => exact run
  | cons c rest ih => exact ih run.2.2

theorem Paced.returns (run : Paced b clock (c :: calls)) :
    c.start ≤ paceReturn clock (c :: calls) := by
  induction calls generalizing b clock c with
  | nil => exact Nat.le_trans (Nat.le_add_right _ _) run.2.1
  | cons d rest ih =>
    have slept := run.2.1
    have later := run.2.2.1
    exact Nat.le_trans (by omega) (ih run.2.2)

/-- What the next call finds is paid by the time up to its start: the cap by the time since the
return, if the call has slept, or what was left and the time since the call. -/
theorem next_pays (on : b.pps ≠ 0) (slept : c.start + b.slept c ≤ c.back) (later : c.back ≤ d.start)
    (paid : c.Paid b) (rested : c.Rested b d) :
    1000000 * (c.npk + (b.after c).found d.start) ≤
      1000000 * b.found c.start + b.pps * (d.start - c.start) + 1000000 := by
  rcases paceTake_cases (c := c) on with ⟨lacks, _, _⟩ | ⟨enough, next⟩
  · have call := call_pays on slept paid
    have refilled := rested.resolve_left (Nat.not_le.mpr lacks)
    have cap := found_le_cap (b.after c) d.start
    rw [after_pps] at cap
    have time : b.pps * (c.back - c.start) + b.pps * (d.start - c.back) =
        b.pps * (d.start - c.start) := by
      rw [← Nat.mul_add]
      congr 1
      omega
    omega
  · have credit := found_le_credit (b.after c) d.start
    rw [next] at credit ⊢
    dsimp only at credit
    omega

/-- The budget that the first call finds and the time that passes pay for all the calls. -/
theorem Unhurried.packets (on : b.pps ≠ 0) (run : Paced b clock (c :: calls))
    (unhurried : Unhurried b (c :: calls)) :
    1000000 * pacePackets (c :: calls) ≤
      1000000 * (b.found c.start + (calls.length + 1)) +
        b.pps * (paceReturn clock (c :: calls) - c.start) := by
  induction calls generalizing b clock c with
  | nil =>
    have call := call_pays on run.2.1 unhurried
    change 1000000 * (c.npk + 0) ≤ 1000000 * (b.found c.start + 1) + b.pps * (c.back - c.start)
    omega
  | cons d rest ih =>
    obtain ⟨_, slept, run'⟩ := run
    obtain ⟨paid, rested, unhurried'⟩ := unhurried
    have on' : (b.after c).pps ≠ 0 := by rwa [after_pps]
    have others := ih on' run' unhurried'
    have first := next_pays on slept run'.1 paid rested
    have returns := run'.returns
    rw [after_pps] at others
    change 1000000 * (c.npk + pacePackets (d :: rest)) ≤
      1000000 * (b.found c.start + (rest.length + 1 + 1)) +
        b.pps * (paceReturn c.back (d :: rest) - c.start)
    have time : b.pps * (d.start - c.start) +
        b.pps * (paceReturn c.back (d :: rest) - d.start) =
        b.pps * (paceReturn c.back (d :: rest) - c.start) := by
      rw [← Nat.mul_add]
      congr 1
      have := run'.1
      omega
    omega

/-- In every run, calls that do not hurry after a sleep send no more than the cap, what the time
pays for, and one packet for each. -/
theorem paceTake_rate (pps : Nat) (positive : 1 ≤ pps)
    (before calls : List PaceCall) (first : PaceCall)
    (run : Paced (PaceBucket.init pps) 0 (before ++ first :: calls))
    (unhurried : Unhurried (paceAfter (PaceBucket.init pps) before) (first :: calls)) :
    1000000 * pacePackets (first :: calls) ≤
      1000000 * (pps / 10 + first.npk + (first :: calls).length) +
        pps * (paceReturn first.start (first :: calls) - first.start) := by
  have same : (paceAfter (PaceBucket.init pps) before).pps = pps := paceAfter_pps _ _
  have on : (paceAfter (PaceBucket.init pps) before).pps ≠ 0 := by omega
  have pays := unhurried.packets on run.append
  have cap := found_le_cap (paceAfter (PaceBucket.init pps) before) first.start
  rw [same] at pays cap
  change 1000000 * pacePackets (first :: calls) ≤ _ +
    pps * (paceReturn first.start (first :: calls) - first.start) at pays
  rw [List.length_cons]
  omega

end

/-- A sender of 150 packets every 150 ms. -/
theorem paceTake_rate_sample :
    1000000 * pacePackets [⟨150, 300001, 350001⟩, ⟨150, 450001, 500001⟩, ⟨150, 600001, 650001⟩] ≤
      1000000 * (1000 / 10 + 150 + 3) + 1000 * (650001 - 300001) :=
  paceTake_rate 1000 (by decide) [⟨150, 1, 150001⟩]
    [⟨150, 450001, 500001⟩, ⟨150, 600001, 650001⟩] ⟨150, 300001, 350001⟩ (by decide +kernel)
    (by decide +kernel)

def eagerCalls : Nat → Nat → List PaceCall
  | 0, _ => []
  | rounds + 1, clock =>
    ⟨10, clock, clock + 10000⟩ :: ⟨10, clock + 10000, clock + 10000⟩ ::
      eagerCalls rounds (clock + 10000)

/-- Every second batch is covered by the sleep before it: 280 packets in 140 ms. -/
theorem paceTake_double_credit :
    Paced (PaceBucket.init 1000) 0 (eagerCalls 14 1) ∧
      (∀ c ∈ eagerCalls 14 1, 1 ≤ c.npk) ∧
      ¬ 1000000 * pacePackets (eagerCalls 14 1) ≤
        1000000 * (1000 / 10 + 10 + (eagerCalls 14 1).length) +
          1000 * (paceReturn 1 (eagerCalls 14 1) - 1) := by
  decide +kernel

end Iwan
