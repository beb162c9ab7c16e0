import Mathlib.Data.List.Basic

/-!
# Systems that move by guarded steps

A system is a step function: `step s e` is the state after event `e`, or `none` where `e` cannot
happen in `s`. What the environment chooses (the order of an answer, the outcome of a call, the
reading of a clock) is part of the event, so one definition gives every interleaving: a run is a
list of events.

`StepsMeet C` restricts a run to steps that meet a condition on the state before the step and the
event; `invariant_of_stepsMeet` is the induction along such runs, and `invariant` the one along
all of them. A system does what another does if it can follow its steps
(`exists_run_of_simulation`).
-/

/-- A transition system with guarded steps. -/
structure System (S E : Type*) where
  step : S → E → Option S

namespace System

variable {S E : Type*} (sys : System S E)

/-- Run a list of events, `none` if one of them cannot happen when its turn comes. -/
def runFrom : S → List E → Option S
  | s, [] => some s
  | s, e :: es => (sys.step s e).bind fun s' => runFrom s' es

@[simp] theorem runFrom_nil (s : S) : sys.runFrom s [] = some s := rfl

theorem runFrom_cons (s : S) (e : E) (es : List E) :
    sys.runFrom s (e :: es) = (sys.step s e).bind fun s' => sys.runFrom s' es := rfl

variable {sys}

/-- A run of `e :: es` is a step of `e` followed by a run of `es`. -/
theorem runFrom_cons_eq_some {s s'' : S} {e : E} {es : List E} :
    sys.runFrom s (e :: es) = some s'' ↔
      ∃ s', sys.step s e = some s' ∧ sys.runFrom s' es = some s'' := by
  rw [runFrom_cons, Option.bind_eq_some_iff]

theorem runFrom_append_eq_some {s s'' : S} {es es' : List E} :
    sys.runFrom s (es ++ es') = some s'' ↔
      ∃ s', sys.runFrom s es = some s' ∧ sys.runFrom s' es' = some s'' := by
  induction es generalizing s with
  | nil => simp
  | cons e es ih =>
    simp only [List.cons_append, runFrom_cons_eq_some, ih]
    exact ⟨fun ⟨s₁, h₁, s', hes, hes'⟩ => ⟨s', ⟨s₁, h₁, hes⟩, hes'⟩,
      fun ⟨s', ⟨s₁, h₁, hes⟩, hes'⟩ => ⟨s₁, h₁, s', hes, hes'⟩⟩

/-- Every step of the run meets `C`, a condition on the state before the step and the event. -/
def StepsMeet (sys : System S E) (C : S → E → Prop) : S → List E → Prop
  | _, [] => True
  | s, e :: es => C s e ∧ ∀ s', sys.step s e = some s' → StepsMeet sys C s' es

instance StepsMeet.decidable (sys : System S E) (C : S → E → Prop) [∀ s e, Decidable (C s e)] :
    (s : S) → (es : List E) → Decidable (sys.StepsMeet C s es)
  | _, [] => .isTrue trivial
  | s, e :: es =>
    match h : sys.step s e with
    | none => decidable_of_iff (C s e) (by simp [StepsMeet, h])
    | some s' =>
      have := StepsMeet.decidable sys C s' es
      decidable_of_iff (C s e ∧ sys.StepsMeet C s' es) (by simp [StepsMeet, h])

theorem stepsMeet_append {C : S → E → Prop} {s : S} {es es' : List E} :
    sys.StepsMeet C s (es ++ es') ↔
      sys.StepsMeet C s es ∧ ∀ s', sys.runFrom s es = some s' → sys.StepsMeet C s' es' := by
  induction es generalizing s with
  | nil => simp [StepsMeet]
  | cons e es ih =>
    simp only [List.cons_append, StepsMeet, ih, runFrom_cons_eq_some, and_assoc]
    refine and_congr_right fun _ => ⟨fun h => ⟨fun s₁ h₁ => (h s₁ h₁).1, ?_⟩, fun h s₁ h₁ => ?_⟩
    · rintro s' ⟨s₁, h₁, hrun⟩
      exact (h s₁ h₁).2 s' hrun
    · exact ⟨h.1 s₁ h₁, fun s' hrun => h.2 s' ⟨s₁, h₁, hrun⟩⟩

/-- A condition on the events alone may be added. -/
theorem StepsMeet.and_forall {C : S → E → Prop} {D : E → Prop} {s : S} {es : List E}
    (hC : sys.StepsMeet C s es) (hD : ∀ e ∈ es, D e) :
    sys.StepsMeet (fun s e => C s e ∧ D e) s es := by
  induction es generalizing s with
  | nil => trivial
  | cons e es ih =>
    exact ⟨⟨hC.1, hD e List.mem_cons_self⟩,
      fun s' hs => ih (hC.2 s' hs) fun e' he => hD e' (List.mem_cons_of_mem e he)⟩

theorem StepsMeet.and {C D : S → E → Prop} {s : S} {es : List E} (hC : sys.StepsMeet C s es)
    (hD : sys.StepsMeet D s es) : sys.StepsMeet (fun s e => C s e ∧ D s e) s es := by
  induction es generalizing s with
  | nil => trivial
  | cons e es ih => exact ⟨⟨hC.1, hD.1⟩, fun s' hs => ih (hC.2 s' hs) (hD.2 s' hs)⟩

/-- The last step of a run whose steps all meet `C` does so in the state the rest leads to. -/
theorem meets_last {C : S → E → Prop} {s s' : S} {es : List E} {e : E}
    (hC : sys.StepsMeet C s (es ++ [e])) (h : sys.runFrom s es = some s') :
    sys.StepsMeet C s es ∧ C s' e := by
  obtain ⟨hes, hlast⟩ := stepsMeet_append.mp hC
  exact ⟨hes, (hlast s' h).1⟩

/-- **The invariant rule for restricted runs.** What the steps meeting `C` preserve holds at the
end of every run of such steps. -/
theorem invariant_of_stepsMeet {C : S → E → Prop} {I : S → Prop}
    (hstep : ∀ s e s', I s → C s e → sys.step s e = some s' → I s') {s s' : S} {es : List E}
    (h₀ : I s) (hC : sys.StepsMeet C s es) (h : sys.runFrom s es = some s') : I s' := by
  induction es generalizing s with
  | nil =>
    obtain rfl : s = s' := by simpa using h
    exact h₀
  | cons e es ih =>
    obtain ⟨s₁, h₁, h⟩ := runFrom_cons_eq_some.mp h
    exact ih (hstep s e s₁ h₀ hC.1 h₁) (hC.2 s₁ h₁) h

theorem stepsMeet_of_forall {C : S → E → Prop} (hC : ∀ s e, C s e) (s : S) (es : List E) :
    sys.StepsMeet C s es := by
  induction es generalizing s with
  | nil => trivial
  | cons e es ih => exact ⟨hC s e, fun s' _ => ih s'⟩

/-- **The invariant rule.** What every step preserves holds at the end of every run. -/
theorem invariant {I : S → Prop} (hstep : ∀ s e s', I s → sys.step s e = some s' → I s')
    {s s' : S} {es : List E} (h₀ : I s) (h : sys.runFrom s es = some s') : I s' :=
  invariant_of_stepsMeet (C := fun _ _ => True) (fun s e s' hI _ => hstep s e s' hI) h₀
    (stepsMeet_of_forall (fun _ _ => trivial) s es) h

/-! ## Simulations -/

/-- **The simulation rule.** If a step that meets `C` can be followed by a run of another system,
from related states to related ones, so can every run of such steps. -/
theorem exists_run_of_simulation {S' E' : Type*} {sys' : System S' E'} (Rel : S → S' → Prop)
    {C : S → E → Prop}
    (hstep : ∀ s t e s', Rel s t → C s e → sys.step s e = some s' →
      ∃ es t', sys'.runFrom t es = some t' ∧ Rel s' t')
    {s s' : S} {t : S'} {es : List E} (hrel : Rel s t) (hC : sys.StepsMeet C s es)
    (h : sys.runFrom s es = some s') : ∃ es' t', sys'.runFrom t es' = some t' ∧ Rel s' t' := by
  induction es generalizing s t with
  | nil =>
    obtain rfl : s = s' := by simpa using h
    exact ⟨[], t, rfl, hrel⟩
  | cons e es ih =>
    obtain ⟨s₁, h₁, h⟩ := runFrom_cons_eq_some.mp h
    obtain ⟨es₁, t₁, hrun₁, hrel₁⟩ := hstep s t e s₁ hrel hC.1 h₁
    obtain ⟨es₂, t₂, hrun₂, hrel₂⟩ := ih hrel₁ (hC.2 s₁ h₁) h
    exact ⟨es₁ ++ es₂, t₂, runFrom_append_eq_some.mpr ⟨t₁, hrun₁, hrun₂⟩, hrel₂⟩

end System
