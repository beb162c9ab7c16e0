import KitiumJobQueue.Foundations.LiveSets
import KitiumJobQueue.JobQueue.Basic

/-!
# Emitting an event

`EventCoordinator.emit` over the `EventHandlerRegistry`. The loop runs over the set in which the
registry keeps the handlers of the event, and `on` and `off` change that very set, so a handler sees
the loop react to what it registers and unregisters.

What the handlers do is a parameter: a `Behaviour` says, for the calls made so far, what is
registered and unregistered until the last of them is over, and how it ends. It may depend on
everything that has happened in the emission. `clear` is not called by handlers: the coordinator
does not offer it.

`snapshot` is the emission as it is meant, over the handlers registered when it begins;
`delivers_snapshot_iff` says when `emit` does that.
-/

namespace KitiumJobQueue.Events

open JavaScript

/-- The value of a `QueueEvent`. -/
def eventName : QueueEvent → String
  | .jobAdded => "job-added"
  | .jobStarted => "job-started"
  | .jobCompleted => "job-completed"
  | .jobFailed => "job-failed"
  | .jobRetrying => "job-retrying"
  | .jobStalled => "job-stalled"
  | .jobProgress => "job-progress"
  | .jobDlq => "job-dlq"
  | .queueError => "queue-error"

variable {H : Type} [DecidableEq H]

/-! ## The registry -/

/-- `EventHandlerRegistry`: the sets of handlers, for the events that have had one. -/
structure EventHandlerRegistry (H : Type) where
  handlers : QueueEvent → Option (LiveSet H)

namespace EventHandlerRegistry

variable (registry : EventHandlerRegistry H) (event : QueueEvent) (handler : H)

/-- `EventHandlerRegistry.getHandlers` -/
def getHandlers {H : Type} (registry : EventHandlerRegistry H) (event : QueueEvent) : LiveSet H :=
  (registry.handlers event).getD .empty

/-- `EventHandlerRegistry.register` -/
def register : EventHandlerRegistry H where
  handlers := Function.update registry.handlers event
    (some ((registry.getHandlers event).add handler))

/-- `EventHandlerRegistry.unregister`, and whether the handler was removed. -/
def unregister : Bool × EventHandlerRegistry H :=
  match registry.handlers event with
  | none => (false, registry)
  | some handlers =>
    (handlers.toList.contains handler,
      ⟨Function.update registry.handlers event (some (handlers.delete handler))⟩)

end EventHandlerRegistry

/-! ## Handlers -/

/-- A call of `EventCoordinator.on` or `EventCoordinator.off`. -/
inductive Request (H : Type)
  | on (event : QueueEvent) (handler : H)
  | off (event : QueueEvent) (handler : H)

/-- `EventCoordinator.on`, `EventCoordinator.off` -/
def EventHandlerRegistry.perform (registry : EventHandlerRegistry H) :
    Request H → EventHandlerRegistry H
  | .on event handler => registry.register event handler
  | .off event handler => (registry.unregister event handler).2

/-- How the call of a handler ends. -/
inductive Ending
  | returned
  | threw (error : Thrown)
  /-- The handler returned a promise, which is awaited. -/
  | resolved
  | rejected (error : Thrown)

/-- What happens from the call of a handler to its end. -/
structure Turn (H : Type) where
  requests : List (Request H)
  ending : Ending

/-- What the handlers do, given the calls made so far, the last one being the call in question. -/
abbrev Behaviour (H : Type) := List H → Turn H

/-! ## The loop -/

/-- A line in the error log. -/
structure LogLine where
  message : String
  error : String

/-- `handlerError instanceof Error ? handlerError.message : String(handlerError)` -/
def errorMessage : Thrown → String
  | .error e => e.message
  | .value text => text

/-- What is logged of the end of a call. -/
def Ending.logLines (event : QueueEvent) : Ending → List LogLine
  | .returned | .resolved => []
  | .threw error | .rejected error =>
    [⟨"Error in " ++ eventName event ++ " handler", errorMessage error⟩]

/-- How far an emission has come. -/
structure Emission (H : Type) where
  registry : EventHandlerRegistry H
  called : List H := []
  logged : List LogLine := []

variable (event : QueueEvent) (behave : Behaviour H)

/-- The handlers of the event at this point of an emission. -/
def Emission.handlers {H : Type} (event : QueueEvent) (s : Emission H) : LiveSet H :=
  s.registry.getHandlers event

/-- The body of the loop: one call, and what happens until it ends. -/
def callHandler (handler : H) (s : Emission H) : Emission H :=
  let called := s.called ++ [handler]
  { registry := (behave called).requests.foldl EventHandlerRegistry.perform s.registry
    called := called
    logged := s.logged ++ (behave called).ending.logLines event }

/-- `EventCoordinator.emit`, if the fuel is enough for its loop. -/
def emit (fuel : ℕ) (registry : EventHandlerRegistry H) : Option (Emission H) :=
  if (registry.getHandlers event).size = 0 then some { registry := registry }
  else LiveSet.forOf (Emission.handlers event) (callHandler event behave) fuel 0
    { registry := registry }

/-! ## The emission as it is meant -/

/-- What a request changes in the set of the event. -/
def Request.change? : Request H → Option (LiveSet.Change H)
  | .on event' handler => if event' = event then some (.add handler) else none
  | .off event' handler => if event' = event then some (.delete handler) else none

/-- What the call of a handler changes in the set of the event. -/
def changesOf (handler : H) (s : Emission H) : List (LiveSet.Change H) :=
  (behave (s.called ++ [handler])).requests.filterMap (Request.change? event)

/-- The emission over the handlers that are registered when it begins, in the order of their
registration, without those unregistered before their turn; with the handlers unregistered by the
end. -/
def snapshot (registry : EventHandlerRegistry H) : Emission H × List H :=
  LiveSet.initialLoop (Emission.handlers event) (callHandler event behave) (changesOf event behave)
    { registry := registry }

/-- The emission ends, and the calls are those that are meant. -/
def Delivers (registry : EventHandlerRegistry H) : Prop :=
  ∃ fuel s, emit event behave fuel registry = some s ∧
    s.called = (snapshot event behave registry).1.called

/-- When those that are to be called have been called, no handler registered in between is still
registered: each one left was there at the beginning and has not been unregistered. -/
def LeavesNoneAdded (registry : EventHandlerRegistry H) : Prop :=
  ∀ handler ∈ ((snapshot event behave registry).1.registry.getHandlers event).toList,
    handler ∈ (registry.getHandlers event).toList ∧
      handler ∉ (snapshot event behave registry).2

instance (registry : EventHandlerRegistry H) : Decidable (LeavesNoneAdded event behave registry) :=
  inferInstanceAs (Decidable (∀ _ ∈ _, _ ∧ _))

variable {event behave} {registry : EventHandlerRegistry H}

/-! ## Requests and changes -/

theorem getHandlers_register (event' : QueueEvent) (handler : H) :
    (registry.register event' handler).getHandlers event =
      if event' = event then (registry.getHandlers event).add handler
      else registry.getHandlers event := by
  unfold EventHandlerRegistry.getHandlers EventHandlerRegistry.register
  by_cases h : event' = event
  · subst h
    simp [EventHandlerRegistry.getHandlers]
  · simp [h, Function.update_of_ne (Ne.symm h)]

theorem getHandlers_unregister (event' : QueueEvent) (handler : H) :
    (registry.unregister event' handler).2.getHandlers event =
      if event' = event then (registry.getHandlers event).delete handler
      else registry.getHandlers event := by
  unfold EventHandlerRegistry.getHandlers EventHandlerRegistry.unregister
  by_cases h : event' = event
  · subst h
    cases hset : registry.handlers event' with
    | none => simp [hset, LiveSet.empty, LiveSet.delete, LiveSet.without]
    | some handlers => simp
  · cases hset : registry.handlers event' with
    | none => simp [h]
    | some handlers => simp [h, Function.update_of_ne (Ne.symm h)]

/-- Requests act on the set of the event as changes. -/
theorem getHandlers_requests (requests : List (Request H)) :
    (requests.foldl EventHandlerRegistry.perform registry).getHandlers event =
      (registry.getHandlers event).changes (requests.filterMap (Request.change? event)) := by
  induction requests generalizing registry with
  | nil => rfl
  | cons request requests ih =>
    rw [List.foldl_cons, ih]
    cases request with
    | on event' handler =>
      rw [EventHandlerRegistry.perform, getHandlers_register]
      by_cases h : event' = event
      · simp [h, Request.change?, LiveSet.changes, LiveSet.change]
      · simp [h, Request.change?]
    | off event' handler =>
      rw [EventHandlerRegistry.perform, getHandlers_unregister]
      by_cases h : event' = event
      · simp [h, Request.change?, LiveSet.changes, LiveSet.change]
      · simp [h, Request.change?]

variable (event behave) in
theorem handlers_callHandler (handler : H) (s : Emission H) :
    Emission.handlers event (callHandler event behave handler s) =
      (Emission.handlers event s).changes (changesOf event behave handler s) :=
  getHandlers_requests _

/-! ## The calls that are meant -/

variable (event behave) in
/-- The loop of the snapshot adds its calls to those made before, in the order of its list. -/
theorem called_forInitial (handlers gone : List H) (s : Emission H) :
    ∃ calls, (LiveSet.forInitial (callHandler event behave) (changesOf event behave) handlers gone
        s).1.called = s.called ++ calls ∧ calls.Sublist handlers := by
  induction handlers generalizing gone s with
  | nil => exact ⟨[], (List.append_nil _).symm, .slnil⟩
  | cons handler rest ih =>
    rw [LiveSet.forInitial]
    split
    · obtain ⟨calls, hcalls, hsub⟩ := ih gone s
      exact ⟨calls, hcalls, hsub.cons handler⟩
    · obtain ⟨calls, hcalls, hsub⟩ :=
        ih (gone ++ LiveSet.deleted (changesOf event behave handler s))
          (callHandler event behave handler s)
      refine ⟨handler :: calls, ?_, hsub.cons_cons handler⟩
      rw [hcalls, callHandler, List.append_assoc, List.singleton_append]

/-- Each handler of the beginning is called at most once, in the order of registration, and no other
one is. -/
theorem called_snapshot_sublist (registry : EventHandlerRegistry H) :
    (snapshot event behave registry).1.called.Sublist (registry.getHandlers event).toList := by
  obtain ⟨calls, hcalls, hsub⟩ := called_forInitial event behave
    (registry.getHandlers event).toList [] { registry := registry }
  have hcalled : (snapshot event behave registry).1.called = calls := hcalls
  rwa [hcalled]

/-- A handler of the beginning is called exactly if the turns before its own have not unregistered
it. -/
theorem mem_called_snapshot_iff {before after : List H} {handler : H}
    (h : (registry.getHandlers event).toList = before ++ handler :: after) :
    handler ∈ (snapshot event behave registry).1.called ↔
      handler ∉ (LiveSet.forInitial (callHandler event behave) (changesOf event behave) before []
        { registry := registry }).2 := by
  have hnodup : (before ++ handler :: after).Nodup := h ▸ (registry.getHandlers event).nodup
  obtain ⟨hbefore, hafter, hdisjoint⟩ := List.nodup_append'.mp hnodup
  have hnotBefore : handler ∉ before := fun hmem => hdisjoint hmem List.mem_cons_self
  have hnotAfter : handler ∉ after := (List.nodup_cons.mp hafter).1
  have hsplit : snapshot event behave registry =
      LiveSet.forInitial (callHandler event behave) (changesOf event behave)
        (before ++ handler :: after) [] { registry := registry } := by
    rw [← h]
    rfl
  rw [hsplit, LiveSet.forInitial_append]
  obtain ⟨calls, hcalls, hsub⟩ := called_forInitial event behave before []
    { registry := registry }
  generalize LiveSet.forInitial (callHandler event behave) (changesOf event behave) before []
    { registry := registry } = middle at hcalls ⊢
  have hearlier : handler ∉ middle.1.called := by
    rw [hcalls, List.nil_append]
    exact fun hmem => hnotBefore (hsub.subset hmem)
  rw [LiveSet.forInitial]
  split
  · next hgone =>
    obtain ⟨later, hlater, hsub'⟩ := called_forInitial event behave after
      middle.2 middle.1
    refine iff_of_false ?_ (not_not_intro hgone)
    rw [hlater, List.mem_append]
    exact not_or_intro hearlier fun hmem => hnotAfter (hsub'.subset hmem)
  · next hgone =>
    obtain ⟨later, hlater, -⟩ := called_forInitial event behave after
      (middle.2 ++ LiveSet.deleted (changesOf event behave handler middle.1))
      (callHandler event behave handler middle.1)
    refine iff_of_true ?_ hgone
    rw [hlater, callHandler]
    simp

/-! ## When an emission does what is meant -/

/-- **An emission ends with the calls that are meant exactly if, by then, no handler registered
during the emission is still registered.** -/
theorem delivers_snapshot_iff :
    Delivers event behave registry ↔ LeavesNoneAdded event behave registry := by
  unfold Delivers emit
  by_cases hsize : (registry.getHandlers event).size = 0
  · have hnone : (registry.getHandlers event).toList = [] := List.eq_nil_of_length_eq_zero hsize
    have hsnapshot : snapshot event behave registry = ({ registry := registry }, []) := by
      change LiveSet.forInitial _ _ (registry.getHandlers event).toList _ _ = _
      rw [hnone]
      rfl
    refine iff_of_true ⟨0, { registry := registry }, if_pos hsize, by rw [hsnapshot]⟩ ?_
    intro handler hhandler
    rw [hsnapshot, hnone] at hhandler
    exact absurd hhandler List.not_mem_nil
  · simp only [if_neg hsize]
    have hends := LiveSet.forOf_ends_iff (handlers_callHandler event behave)
      (fun s => s.called.length) (fun handler s => by simp [callHandler])
      { registry := registry }
    refine Iff.trans ⟨?_, fun h => ?_⟩ hends
    · rintro ⟨fuel, s, hend, hcalled⟩
      exact ⟨fuel, s, hend, congrArg List.length hcalled⟩
    · obtain ⟨fuel, hend⟩ :=
        LiveSet.forOf_of_settled (handlers_callHandler event behave) (hends.mp h)
      exact ⟨fuel, _, hend, rfl⟩

/-! ## A handler that registers itself again -/

/-- One handler is registered for added jobs. -/
def oneHandler : EventHandlerRegistry Unit :=
  EventHandlerRegistry.register ⟨fun _ => none⟩ .jobAdded ()

/-- Whenever it is called, the handler unregisters itself and registers itself again. -/
def registersAgain : Behaviour Unit := fun _ =>
  { requests := [.off .jobAdded (), .on .jobAdded ()], ending := .returned }

/-- Its slot moves ahead of the loop for ever. -/
theorem forOf_registersAgain (fuel i : ℕ) (s : Emission Unit)
    (h : (Emission.handlers .jobAdded s).slots = List.replicate i none ++ [some ()]) :
    LiveSet.forOf (Emission.handlers .jobAdded) (callHandler .jobAdded registersAgain) fuel i s =
      none := by
  induction fuel generalizing i s with
  | zero => rfl
  | succ fuel ih =>
    have hslot : (Emission.handlers .jobAdded s).slots[i]? = some (some ()) := by simp [h]
    rw [LiveSet.forOf_turn hslot]
    refine ih (i + 1) _ ?_
    have hdeleted : ((Emission.handlers .jobAdded s).delete ()).slots =
        List.replicate (i + 1) none := by
      simp [LiveSet.delete, LiveSet.without, h, Option.filter, List.replicate_succ']
    have habsent : () ∉ ((Emission.handlers .jobAdded s).delete ()).toList := by
      rw [LiveSet.toList, hdeleted, List.reduceOption_replicate_none]
      exact List.not_mem_nil
    rw [handlers_callHandler]
    change (((Emission.handlers .jobAdded s).delete ()).add ()).slots = _
    rw [LiveSet.slots_add habsent, hdeleted]

/-- The emission does not end. -/
theorem not_delivers_registersAgain :
    ¬ ∀ (event : QueueEvent) (behave : Behaviour Unit) (registry : EventHandlerRegistry Unit),
      Delivers event behave registry := by
  intro hclaim
  obtain ⟨fuel, s, hend, -⟩ := hclaim .jobAdded registersAgain oneHandler
  have hnever : emit .jobAdded registersAgain fuel oneHandler = none :=
    forOf_registersAgain fuel 0 { registry := oneHandler } rfl
  rw [hnever] at hend
  exact absurd hend (by simp)

end KitiumJobQueue.Events
