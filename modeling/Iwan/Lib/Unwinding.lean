import Iwan.Lib.Trace

/- Two runs of one step function, the second with extra events inserted. -/
namespace Unwinding

/-- An event of both runs, or of the second only. -/
inductive Insertion (ε : Type) where
  | common (e : ε)
  | extra (e : ε)

section

variable {σ ε φ : Type} (step : σ → ε → σ × List φ)

def commons : List (Insertion ε) → List ε
  | [] => []
  | .common e :: rest => e :: commons rest
  | .extra _ :: rest => commons rest

def everything : List (Insertion ε) → List ε
  | [] => []
  | .common e :: rest => e :: everything rest
  | .extra e :: rest => e :: everything rest

variable (common extra : σ → ε → Prop)

/-- Every event is allowed in the state it meets. -/
def Admissible : σ → σ → List (Insertion ε) → Prop
  | _, _, [] => True
  | s, t, .common e :: rest => common s e ∧ Admissible (step s e).1 (step t e).1 rest
  | s, t, .extra e :: rest => extra t e ∧ Admissible s (step t e).1 rest

variable {step common extra}

theorem final_related (related : σ → σ → Prop)
    (commonStep : ∀ s t e, related s t → common s e → related (step s e).1 (step t e).1)
    (extraStep : ∀ s t e, related s t → extra t e → related s (step t e).1)
    (s t : σ) (mix : List (Insertion ε)) (admissible : Admissible step common extra s t mix)
    (start : related s t) :
    related (Trace.final step s (commons mix)) (Trace.final step t (everything mix)) := by
  induction mix generalizing s t with
  | nil => exact start
  | cons inserted rest ih =>
    cases inserted with
    | common e => exact ih _ _ admissible.2 (commonStep s t e start admissible.1)
    | extra e => exact ih _ _ admissible.2 (extraStep s t e start admissible.1)

end

end Unwinding
