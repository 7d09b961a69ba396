import Mathlib

/- Runs of a step function that also emits effects. -/
namespace Trace

section

variable {σ ε φ : Type} (step : σ → ε → σ × List φ)

def final : σ → List ε → σ
  | s, [] => s
  | s, e :: rest => final (step s e).1 rest

def emitted : σ → List ε → List φ
  | _, [] => []
  | s, e :: rest => (step s e).2 ++ emitted (step s e).1 rest

def count (test : σ → ε → Bool) : σ → List ε → Nat
  | _, [] => 0
  | s, e :: rest => (if test s e then 1 else 0) + count test (step s e).1 rest

def Along (cond : σ → ε → Prop) : σ → List ε → Prop
  | _, [] => True
  | s, e :: rest => cond s e ∧ Along cond (step s e).1 rest

instance decidableAlong (cond : σ → ε → Prop) [∀ s e, Decidable (cond s e)] :
    ∀ s events, Decidable (Along step cond s events)
  | _, [] => isTrue trivial
  | s, e :: rest =>
    @instDecidableAnd _ _ (inferInstanceAs (Decidable (cond s e)))
      (decidableAlong cond (step s e).1 rest)

@[simp] theorem final_nil (s : σ) : final step s [] = s := rfl

@[simp] theorem final_cons (s : σ) (e : ε) (rest : List ε) :
    final step s (e :: rest) = final step (step s e).1 rest := rfl

@[simp] theorem emitted_nil (s : σ) : emitted step s [] = [] := rfl

@[simp] theorem emitted_cons (s : σ) (e : ε) (rest : List ε) :
    emitted step s (e :: rest) = (step s e).2 ++ emitted step (step s e).1 rest := rfl

@[simp] theorem count_nil (test : σ → ε → Bool) (s : σ) : count step test s [] = 0 := rfl

@[simp] theorem count_cons (test : σ → ε → Bool) (s : σ) (e : ε) (rest : List ε) :
    count step test s (e :: rest) =
      (if test s e then 1 else 0) + count step test (step s e).1 rest := rfl

theorem final_append (s : σ) (front back : List ε) :
    final step s (front ++ back) = final step (final step s front) back := by
  induction front generalizing s with
  | nil => rfl
  | cons e rest ih => exact ih (step s e).1

theorem emitted_append (s : σ) (front back : List ε) :
    emitted step s (front ++ back) =
      emitted step s front ++ emitted step (final step s front) back := by
  induction front generalizing s with
  | nil => rfl
  | cons e rest ih => simp only [List.cons_append, emitted_cons, final_cons, ih, List.append_assoc]

theorem final_invariant (inv : σ → Prop) (preserved : ∀ s e, inv s → inv (step s e).1)
    (s : σ) (events : List ε) (holds : inv s) : inv (final step s events) := by
  induction events generalizing s with
  | nil => exact holds
  | cons e rest ih => exact ih (step s e).1 (preserved s e holds)

theorem final_along_invariant (cond : σ → ε → Prop) (inv : σ → Prop)
    (preserved : ∀ s e, cond s e → inv s → inv (step s e).1) (s : σ) (events : List ε)
    (along : Along step cond s events) (holds : inv s) : inv (final step s events) := by
  induction events generalizing s with
  | nil => exact holds
  | cons e rest ih => exact ih (step s e).1 along.2 (preserved s e along.1 holds)

theorem Along.mono {cond weaker : σ → ε → Prop} (implies : ∀ s e, cond s e → weaker s e) (s : σ)
    (events : List ε) (along : Along step cond s events) : Along step weaker s events := by
  induction events generalizing s with
  | nil => trivial
  | cons e rest ih => exact ⟨implies s e along.1, ih (step s e).1 along.2⟩

theorem final_mem_invariant (kind : ε → Prop) (inv : σ → Prop)
    (preserved : ∀ s e, kind e → inv s → inv (step s e).1) (s : σ) (events : List ε)
    (kinds : ∀ e ∈ events, kind e) (holds : inv s) : inv (final step s events) := by
  induction events generalizing s with
  | nil => exact holds
  | cons e rest ih =>
    exact ih (step s e).1 (fun x found => kinds x (List.mem_cons_of_mem _ found))
      (preserved s e (kinds e List.mem_cons_self) holds)

end

section

variable {σ ε φ τ : Type} [LE τ] (step : σ → ε → σ × List φ) (start finish : ε → τ)

def Clocked : τ → List ε → Prop
  | _, [] => True
  | now, e :: rest => now ≤ start e ∧ Clocked (finish e) rest

instance decidableClocked [DecidableRel (LE.le : τ → τ → Prop)] :
    ∀ now events, Decidable (Clocked start finish now events)
  | _, [] => isTrue trivial
  | now, e :: rest =>
    @instDecidableAnd _ _ (inferInstanceAs (Decidable (now ≤ start e)))
      (decidableClocked (finish e) rest)

def clockAfter : τ → List ε → τ
  | now, [] => now
  | _, e :: rest => clockAfter (finish e) rest

theorem Clocked.append (now : τ) (front back : List ε) :
    Clocked start finish now (front ++ back) ↔
      Clocked start finish now front ∧ Clocked start finish (clockAfter finish now front) back := by
  induction front generalizing now with
  | nil => simp only [List.nil_append, Clocked, clockAfter, true_and]
  | cons e rest ih => simp only [List.cons_append, Clocked, clockAfter, ih, and_assoc]

omit [LE τ] in
theorem clockAfter_append (now : τ) (front back : List ε) :
    clockAfter finish now (front ++ back) =
      clockAfter finish (clockAfter finish now front) back := by
  induction front generalizing now with
  | nil => rfl
  | cons e rest ih => exact ih (finish e)

theorem final_clocked_invariant (inv : τ → σ → Prop)
    (preserved : ∀ now s e, inv now s → now ≤ start e → inv (finish e) (step s e).1)
    (now : τ) (s : σ) (events : List ε) (clocked : Clocked start finish now events)
    (holds : inv now s) : inv (clockAfter finish now events) (final step s events) := by
  induction events generalizing now s with
  | nil => exact holds
  | cons e rest ih =>
    exact ih (finish e) (step s e).1 clocked.2 (preserved now s e holds clocked.1)

end

theorem Clocked.le_clockAfter {ε τ : Type} [Preorder τ] {time : ε → τ} {now : τ} {events : List ε}
    (clocked : Clocked time time now events) : now ≤ clockAfter time now events := by
  induction events generalizing now with
  | nil => exact le_refl now
  | cons e rest ih => exact le_trans clocked.1 (ih clocked.2)

end Trace
