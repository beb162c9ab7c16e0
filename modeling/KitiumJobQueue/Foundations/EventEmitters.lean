import Mathlib.Data.List.Basic

/-!
# Event emitters

An `EventEmitter` keeps its listeners in the order in which they were registered, each with the
function object it was registered with; the same object may be there several times. `off` takes away
the last listener for an event that has the very object it is given.

`emit` calls the listeners for an event that are there when it begins, one after another, and takes
away those registered for one call as it comes to them. A listener that throws ends it: the others
are not called and stay. `emit_eq` is what it does where that cuts nothing off.
-/

/-- What an emitter has registered for an event. -/
structure EventListener (E F : Type*) where
  event : E
  function : F
  once : Bool
  deriving DecidableEq

/-- Listeners in the order of their registration. -/
structure EventEmitter (E F : Type*) where
  listeners : List (EventListener E F) := []
  deriving DecidableEq

namespace EventEmitter

variable {E F : Type*} (emitter : EventEmitter E F) (event : E) (function : F)

/-- `on`, or `once`. -/
def add (once : Bool) : EventEmitter E F := ⟨emitter.listeners ++ [⟨event, function, once⟩]⟩

/-- The listeners that are left after the call of one of them. -/
def leave (l : EventListener E F) (rest : List (EventListener E F)) : List (EventListener E F) :=
  if l.once then rest else l :: rest

variable [DecidableEq E]

/-- `off` -/
def off [DecidableEq F] : EventEmitter E F where
  listeners := (emitter.listeners.reverse.eraseP fun l =>
    l.event = event ∧ l.function = function).reverse

/-- The listeners for an event. -/
def listenersFor (event : E) (listeners : List (EventListener E F)) : List (EventListener E F) :=
  listeners.filter (·.event = event)

/-- The functions that are called, and the listeners that are left: all for the event are called,
or those up to the one that throws, if its position among them is given. -/
def fire (event : E) :
    Option ℕ → List (EventListener E F) → List F × List (EventListener E F)
  | _, [] => ([], [])
  | threw, l :: rest =>
    if l.event = event then
      match threw with
      | some 0 => ([l.function], leave l rest)
      | some (k + 1) =>
        (l.function :: (fire event (some k) rest).1, leave l (fire event (some k) rest).2)
      | none => (l.function :: (fire event none rest).1, leave l (fire event none rest).2)
    else ((fire event threw rest).1, l :: (fire event threw rest).2)

/-- `emit`, with the functions that are called. -/
def emit (threw : Option ℕ) : List F × EventEmitter E F :=
  ((fire event threw emitter.listeners).1, ⟨(fire event threw emitter.listeners).2⟩)

variable {emitter event function}

/-- An object that was not registered takes nothing away. -/
theorem off_eq_self [DecidableEq F]
    (h : ∀ l ∈ emitter.listeners, l.event = event → l.function ≠ function) :
    emitter.off event function = emitter := by
  unfold off
  rw [List.eraseP_of_forall_not, List.reverse_reverse]
  intro l hl
  simpa using h l (List.mem_reverse.mp hl)

/-- A listener for another event is passed over. -/
theorem fire_cons_of_ne {l : EventListener E F} (h : l.event ≠ event) (threw : Option ℕ)
    (rest : List (EventListener E F)) :
    fire event threw (l :: rest) =
      ((fire event threw rest).1, l :: (fire event threw rest).2) := by
  rcases threw with _ | _ | k <;> simp only [fire, if_neg h]

omit [DecidableEq E] in
theorem leave_sublist (l : EventListener E F) {rest rest' : List (EventListener E F)}
    (h : rest'.Sublist rest) : (leave l rest').Sublist (l :: rest) := by
  unfold leave
  split
  · exact h.cons l
  · exact h.cons_cons l

/-- Listeners only go. -/
theorem fire_sublist (threw : Option ℕ) (listeners : List (EventListener E F)) :
    (fire event threw listeners).2.Sublist listeners := by
  induction listeners generalizing threw with
  | nil => exact List.Sublist.refl []
  | cons l rest ih =>
    by_cases hevent : l.event = event
    · rcases threw with _ | _ | k
      · simpa only [fire, if_pos hevent] using leave_sublist l (ih none)
      · simpa only [fire, if_pos hevent] using leave_sublist l (List.Sublist.refl rest)
      · simpa only [fire, if_pos hevent] using leave_sublist l (ih (some k))
    · rw [fire_cons_of_ne hevent]
      exact (ih threw).cons_cons l

theorem fire_none (listeners : List (EventListener E F)) :
    fire event none listeners = ((listenersFor event listeners).map EventListener.function,
      listeners.filter fun l => ¬ (l.event = event ∧ l.once)) := by
  induction listeners with
  | nil => rfl
  | cons l rest ih =>
    by_cases hevent : l.event = event
    · simp only [fire, if_pos hevent, ih]
      cases honce : l.once <;> simp [hevent, honce, leave, listenersFor]
    · rw [fire_cons_of_ne hevent, ih]
      simp [hevent, listenersFor]

/-- Where the last listener throws, all of them have been called. -/
theorem fire_some {k : ℕ} {listeners : List (EventListener E F)}
    (h : (listenersFor event listeners).length ≤ k + 1) :
    fire event (some k) listeners = fire event none listeners := by
  induction listeners generalizing k with
  | nil => rfl
  | cons l rest ih =>
    by_cases hevent : l.event = event
    · have hrest : (listenersFor event rest).length ≤ k := by
        simpa [listenersFor, hevent] using h
      cases k with
      | zero =>
        have hnone : listenersFor event rest = [] := List.length_eq_zero_iff.mp (by omega)
        have hkept : rest.filter (fun l => ¬ (l.event = event ∧ l.once)) = rest := by
          refine List.filter_eq_self.mpr fun m hm => ?_
          have hother : ¬ m.event = event := by
            simpa using List.filter_eq_nil_iff.mp hnone m hm
          simp [hother]
        simp only [fire, if_pos hevent]
        rw [fire_none, hnone, hkept]
        rfl
      | succ k => simp only [fire, if_pos hevent, ih hrest]
    · have hrest : (listenersFor event rest).length ≤ k + 1 := by
        simpa [listenersFor, hevent] using h
      rw [fire_cons_of_ne hevent, fire_cons_of_ne hevent, ih hrest]

/-- **What an emission does** if no listener throws before the last: all listeners for the event are
called, and those registered for one call are gone. -/
theorem emit_eq {threw : Option ℕ}
    (h : ∀ k, threw = some k → (listenersFor event emitter.listeners).length ≤ k + 1) :
    emitter.emit event threw =
      ((listenersFor event emitter.listeners).map EventListener.function,
        ⟨emitter.listeners.filter fun l => ¬ (l.event = event ∧ l.once)⟩) := by
  have hfire : fire event threw emitter.listeners = fire event none emitter.listeners := by
    cases threw with
    | none => rfl
    | some k => exact fire_some (h k rfl)
  rw [emit, hfire, fire_none]

end EventEmitter
