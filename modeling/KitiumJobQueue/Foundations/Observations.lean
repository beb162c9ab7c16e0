import Mathlib.Logic.Basic

/-!
# What can be observed of a machine

A machine answers each input with an output and goes on to another state. Two states that a
bisimulation relates cannot be told apart: the same inputs get the same outputs (`outputs_eq`).
-/

namespace Observations

variable {S T I O : Type*}

/-- The outputs of a machine on a list of inputs. -/
def outputs (step : S → I → O × S) : S → List I → List O
  | _, [] => []
  | s, i :: is => (step s i).1 :: outputs step (step s i).2 is

/-- Related states give the same output on every input, and go on to related states. -/
def Bisimulation (step : S → I → O × S) (step' : T → I → O × T) (R : S → T → Prop) : Prop :=
  ∀ s t i, R s t → (step s i).1 = (step' t i).1 ∧ R (step s i).2 (step' t i).2

/-- **The bisimulation rule.** -/
theorem outputs_eq {step : S → I → O × S} {step' : T → I → O × T} {R : S → T → Prop}
    (hR : Bisimulation step step' R) {s : S} {t : T} (h : R s t) (is : List I) :
    outputs step s is = outputs step' t is := by
  induction is generalizing s t with
  | nil => rfl
  | cons i is ih =>
    obtain ⟨hout, hnext⟩ := hR s t i h
    rw [outputs, outputs, hout, ih hnext]

end Observations
