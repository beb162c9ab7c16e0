import KitiumJobQueue.Foundations.EventEmitters
import KitiumJobQueue.Foundations.Systems

/-!
# The listeners of a worker

`BullMQWorker` of `bullmq-worker.ts`: `process` creates the BullMQ worker, `close` lets go of it,
and `on`, `once` and `off` pass handlers on to it. A handler is registered inside a closure that is
made for it, and it is removed as it is. What handlers are called with is left out, and so is the
processor of jobs.

Beside the worker a ledger says which handlers should be called. The two agree along every run in
which handlers are registered while there is a worker, none that is registered is removed, and a
worker that replaces a closed one has nobody to call (`invoked_eq_due`); removing never does
anything (`off_eq_of_run`).
-/

namespace KitiumJobQueue.Adapters

variable {H : Type}

/-! ## The worker -/

/-- A function object: a handler, or the closure that the registration number `n` made for it. -/
inductive FunctionObject (H : Type)
  | handler (h : H)
  | closure (n : ℕ) (h : H)
  deriving DecidableEq

/-- The handler that is called in the end. -/
def FunctionObject.calls : FunctionObject H → H
  | .handler h | .closure _ h => h

/-- `BullMQWorker`: its BullMQ worker, and how many closures have been made. -/
structure BullMQWorker (H : Type) where
  worker : Option (EventEmitter String (FunctionObject H)) := none
  closures : ℕ := 0

namespace BullMQWorker

variable (w : BullMQWorker H) (event : String) (handler : H)

/-- `BullMQWorker.process` -/
def process : BullMQWorker H :=
  match w.worker with
  | none => { w with worker := some {} }
  | some _ => w

/-- What `on` and `once` share: a handler is wrapped and handed on, if there is a worker. -/
def register (once : Bool) : BullMQWorker H :=
  match w.worker with
  | none => w
  | some worker =>
    { worker := some (worker.add event (.closure w.closures handler) once)
      closures := w.closures + 1 }

/-- `BullMQWorker.on` -/
def on : BullMQWorker H := w.register event handler false

/-- `BullMQWorker.once` -/
def once : BullMQWorker H := w.register event handler true

/-- `BullMQWorker.off` -/
def off [DecidableEq H] : BullMQWorker H :=
  match w.worker with
  | none => w
  | some worker => { w with worker := some (worker.off event (.handler handler)) }

/-- `BullMQWorker.close`, from its call to its end; it fails if the closing of the worker does. -/
def close (succeeds : Bool) : BullMQWorker H :=
  if succeeds then { w with worker := none } else w

end BullMQWorker

/-! ## The ledger -/

/-- A handler registered for an event. -/
structure Registration (H : Type) where
  event : String
  handler : H
  once : Bool
  deriving DecidableEq

/-- The registrations that count, and the handlers that each event so far should have called. -/
structure Expected (H : Type) where
  live : List (Registration H) := []
  due : List (String × List H) := []

namespace Expected

variable (x : Expected H) (event : String) (handler : H)

/-- The handlers to be called at an event. -/
def handlers : List H := (x.live.filter (·.event = event)).map Registration.handler

/-- One more handler is registered. -/
def register (once : Bool) : Expected H := { x with live := x.live ++ [⟨event, handler, once⟩] }

/-- A handler is removed. -/
def remove [DecidableEq H] : Expected H :=
  { x with live := x.live.filter fun r => ¬ (r.event = event ∧ r.handler = handler) }

/-- An event calls its handlers, those registered for one call for the last time. -/
def fire : Expected H where
  live := x.live.filter fun r => ¬ (r.event = event ∧ r.once)
  due := x.due ++ [(event, x.handlers event)]

end Expected

/-! ## Runs -/

/-- A call of a method, or an event of the BullMQ worker; of an event, which of the handlers that it
calls throws. -/
inductive WorkerEvent (H : Type)
  | process
  | on (event : String) (handler : H)
  | once (event : String) (handler : H)
  | off (event : String) (handler : H)
  | close (succeeds : Bool)
  | emit (event : String) (threw : Option ℕ)

/-- The worker with the handlers that each event so far has called, and the ledger. -/
structure WorkerState (H : Type) where
  worker : BullMQWorker H := {}
  invoked : List (String × List H) := []
  expected : Expected H := {}

namespace WorkerState

variable [DecidableEq H]

/-- One call or event. Without a BullMQ worker there are no events. -/
def step (s : WorkerState H) : WorkerEvent H → Option (WorkerState H)
  | .process => some { s with worker := s.worker.process }
  | .on event handler => some
    { s with
      worker := s.worker.on event handler
      expected := s.expected.register event handler false }
  | .once event handler => some
    { s with
      worker := s.worker.once event handler
      expected := s.expected.register event handler true }
  | .off event handler => some
    { s with
      worker := s.worker.off event handler
      expected := s.expected.remove event handler }
  | .close succeeds => some { s with worker := s.worker.close succeeds }
  | .emit event threw => s.worker.worker.map fun worker =>
    { worker := { s.worker with worker := some (worker.emit event threw).2 }
      invoked := s.invoked ++ [(event, (worker.emit event threw).1.map FunctionObject.calls)]
      expected := s.expected.fire event }

/-- The runs of one worker. -/
def system : System (WorkerState H) (WorkerEvent H) where
  step := step

/-- What leads the worker away from the ledger does not happen: a handler is registered while there
is a worker, none that is registered is removed, a worker is created while no registration is left
from a former one, and no handler throws before the last. -/
def Meets (s : WorkerState H) : WorkerEvent H → Prop
  | .process => s.worker.worker = none → s.expected.live = []
  | .on _ _ | .once _ _ => s.worker.worker.isSome = true
  | .off event handler => ∀ r ∈ s.expected.live, ¬ (r.event = event ∧ r.handler = handler)
  | .close _ => True
  | .emit event threw => ∀ k ∈ threw, (s.expected.handlers event).length ≤ k + 1

instance (s : WorkerState H) (e : WorkerEvent H) : Decidable (s.Meets e) :=
  match e with
  | .process =>
    decidable_of_iff (s.worker.worker.isNone = true → s.expected.live.isEmpty = true)
      (by simp [Meets])
  | .on _ _ | .once _ _ => inferInstanceAs (Decidable (_ = true))
  | .off _ _ => inferInstanceAs (Decidable (∀ r ∈ s.expected.live, _))
  | .close _ => .isTrue trivial
  | .emit event threw =>
    inferInstanceAs (Decidable (∀ k ∈ threw, (s.expected.handlers event).length ≤ k + 1))

end WorkerState

/-! ## What every run keeps -/

/-- Everything that is registered with the BullMQ worker is a closure. -/
def BullMQWorker.Wrapped (w : BullMQWorker H) : Prop :=
  ∀ worker, w.worker = some worker → ∀ l ∈ worker.listeners, ∃ n h, l.function = .closure n h

namespace BullMQWorker.Wrapped

variable {w : BullMQWorker H}

theorem process (h : w.Wrapped) : w.process.Wrapped := by
  unfold BullMQWorker.process
  split
  · rintro worker ⟨⟩ l hl
    exact absurd hl List.not_mem_nil
  · exact h

theorem register (h : w.Wrapped) (event : String) (handler : H) (once : Bool) :
    (w.register event handler once).Wrapped := by
  unfold BullMQWorker.register
  split
  · exact h
  · next old hold =>
    rintro worker ⟨⟩ l hl
    rcases List.mem_append.mp hl with hl | hl
    · exact h old hold l hl
    · rw [List.mem_singleton.mp hl]
      exact ⟨_, _, rfl⟩

/-- No closure is the handler that it was made for, so nothing is removed. -/
theorem off_eq [DecidableEq H] (h : w.Wrapped) (event : String) (handler : H) :
    w.off event handler = w := by
  obtain ⟨worker, closures⟩ := w
  cases worker with
  | none => rfl
  | some worker =>
    have hself : worker.off event (.handler handler) = worker := by
      refine EventEmitter.off_eq_self fun l hl _ heq => ?_
      obtain ⟨n, h', hclosure⟩ := h worker rfl l hl
      cases hclosure.symm.trans heq
    exact congrArg (fun worker => (⟨some worker, closures⟩ : BullMQWorker H)) hself

theorem close (h : w.Wrapped) (succeeds : Bool) : (w.close succeeds).Wrapped := by
  unfold BullMQWorker.close
  split
  · rintro worker ⟨⟩
  · exact h

end BullMQWorker.Wrapped

namespace WorkerState

variable {s s' : WorkerState H}

/-! ## The ledger beside the worker -/

/-- What the ledger has of a listener. -/
def registration (l : EventListener String (FunctionObject H)) : Registration H :=
  ⟨l.event, l.function.calls, l.once⟩

/-- The handlers called so far are those that should have been, and a worker has the listeners that
the ledger has. -/
structure Agrees (s : WorkerState H) : Prop where
  wrapped : s.worker.Wrapped
  invoked : s.invoked = s.expected.due
  listeners : ∀ worker, s.worker.worker = some worker →
    worker.listeners.map registration = s.expected.live

theorem handlers_eq {worker : EventEmitter String (FunctionObject H)} {x : Expected H}
    (h : worker.listeners.map registration = x.live) (event : String) :
    ((EventEmitter.listenersFor event worker.listeners).map EventListener.function).map
      FunctionObject.calls = x.handlers event := by
  rw [Expected.handlers, ← h, List.filter_map, List.map_map, List.map_map]
  rfl

theorem Agrees.register (h : s.Agrees) (event : String) (handler : H) (once : Bool)
    (hworker : s.worker.worker.isSome = true) :
    Agrees { s with
      worker := s.worker.register event handler once
      expected := s.expected.register event handler once } where
  wrapped := h.wrapped.register event handler once
  invoked := h.invoked
  listeners := by
    obtain ⟨old, hold⟩ := Option.isSome_iff_exists.mp hworker
    unfold BullMQWorker.register
    rw [hold]
    rintro worker ⟨⟩
    change (old.listeners ++ [_]).map registration = s.expected.live ++ [_]
    rw [List.map_append, h.listeners old hold]
    rfl

variable [DecidableEq H]

/-! ## Steps and runs -/

theorem wrapped_step (h : s.worker.Wrapped) {e : WorkerEvent H} (hstep : s.step e = some s') :
    s'.worker.Wrapped := by
  cases e with
  | process =>
    cases hstep
    exact h.process
  | on event handler =>
    cases hstep
    exact h.register event handler false
  | once event handler =>
    cases hstep
    exact h.register event handler true
  | off event handler =>
    cases hstep
    rw [h.off_eq]
    exact h
  | close succeeds =>
    cases hstep
    exact h.close succeeds
  | emit event threw =>
    obtain ⟨worker, hworker, rfl⟩ := Option.map_eq_some_iff.mp hstep
    rintro worker' ⟨⟩ l hl
    exact h worker hworker l ((EventEmitter.fire_sublist threw worker.listeners).subset hl)

/-- **Removing does nothing**, in whatever state of whatever run. -/
theorem off_eq_of_run {es : List (WorkerEvent H)} (h : system.runFrom {} es = some s)
    (event : String) (handler : H) : s.worker.off event handler = s.worker := by
  have hwrapped : s.worker.Wrapped := System.invariant
    (I := fun s : WorkerState H => s.worker.Wrapped) (fun _ _ _ hI hstep => wrapped_step hI hstep)
    (by rintro worker ⟨⟩) h
  exact hwrapped.off_eq event handler

theorem Agrees.emit (h : s.Agrees) {event : String} {threw : Option ℕ}
    (hthrew : s.Meets (.emit event threw)) {worker : EventEmitter String (FunctionObject H)}
    (hworker : s.worker.worker = some worker)
    (hs' : s.step (.emit event threw) = some s') : s'.Agrees := by
  have hlength : (EventEmitter.listenersFor event worker.listeners).length =
      (s.expected.handlers event).length := by
    rw [← handlers_eq (h.listeners worker hworker), List.length_map, List.length_map]
  have hemit : worker.emit event threw = _ := EventEmitter.emit_eq fun k hk => by
    rw [hlength]
    exact hthrew k hk
  have hwrapped := wrapped_step h.wrapped hs'
  obtain ⟨worker', hworker', rfl⟩ := Option.map_eq_some_iff.mp hs'
  cases hworker.symm.trans hworker'
  refine ⟨hwrapped, ?_, ?_⟩
  · change s.invoked ++ [_] = s.expected.due ++ [_]
    rw [h.invoked, hemit, handlers_eq (h.listeners worker hworker)]
  · rintro worker' ⟨⟩
    rw [hemit]
    change List.map registration (List.filter _ _) = List.filter _ s.expected.live
    rw [← h.listeners worker hworker, List.filter_map]
    rfl

/-- A step that keeps the worker by the ledger. -/
theorem agrees_step (h : s.Agrees) {e : WorkerEvent H} (he : s.Meets e)
    (hstep : s.step e = some s') : s'.Agrees := by
  cases e with
  | process =>
    cases hstep
    refine ⟨h.wrapped.process, h.invoked, ?_⟩
    unfold BullMQWorker.process
    split
    · next hnone =>
      rintro worker ⟨⟩
      exact (he hnone).symm
    · exact h.listeners
  | on event handler =>
    cases hstep
    exact h.register event handler false he
  | once event handler =>
    cases hstep
    exact h.register event handler true he
  | off event handler =>
    have hkept : s.expected.remove event handler = s.expected := by
      have hall : s.expected.live.filter (fun r => ¬ (r.event = event ∧ r.handler = handler)) =
          s.expected.live := List.filter_eq_self.mpr fun r hr =>
          decide_eq_true (he r hr)
      rw [Expected.remove, hall]
    cases hstep
    rw [h.wrapped.off_eq, hkept]
    exact h
  | close succeeds =>
    cases hstep
    refine ⟨h.wrapped.close succeeds, h.invoked, ?_⟩
    unfold BullMQWorker.close
    split
    · rintro worker ⟨⟩
    · exact h.listeners
  | emit event threw =>
    obtain ⟨worker, hworker, -⟩ := Option.map_eq_some_iff.mp hstep
    exact h.emit he hworker hstep

/-- **At every event exactly the registered handlers are called**, in every run in which handlers
are registered with a worker that is there and never removed, no worker is created for
registrations of a former one, and no handler throws before the last. -/
theorem invoked_eq_due {es : List (WorkerEvent H)} (hmeets : system.StepsMeet Meets {} es)
    (hrun : system.runFrom {} es = some s) : s.invoked = s.expected.due :=
  (System.invariant_of_stepsMeet (I := Agrees) (fun _ _ _ hI he hstep => agrees_step hI he hstep)
    ⟨by rintro worker ⟨⟩, rfl, by rintro worker ⟨⟩⟩ hmeets hrun).invoked

/-- A worker with two handlers for one event, of which one is for one call. -/
def twoHandlers : List (WorkerEvent String) :=
  [.process, .on "completed" "count", .once "completed" "greet", .emit "completed" none,
    .off "completed" "greet", .emit "completed" (some 0), .close true]

/-- What that worker calls at its two events. -/
theorem invoked_twoHandlers :
    ∃ s, system.runFrom {} twoHandlers = some s ∧ s.invoked = s.expected.due := by
  have hmeets : system.StepsMeet Meets {} twoHandlers := by decide
  exact ⟨_, rfl, invoked_eq_due hmeets rfl⟩

/-- A handler that is removed is called, and one that is registered before `process` is not. -/
theorem not_invoked_eq_due :
    (∃ s, system.runFrom {} [.process, .on "completed" "count", .off "completed" "count",
        .emit "completed" none] = some s ∧ s.invoked ≠ s.expected.due) ∧
      ∃ s, system.runFrom {} [.on "completed" "count", .process, .emit "completed" none] = some s ∧
        s.invoked ≠ s.expected.due :=
  ⟨⟨_, rfl, by decide⟩, _, rfl, by decide⟩

end WorkerState

end KitiumJobQueue.Adapters
