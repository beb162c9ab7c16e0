import KitiumJobQueue.Bull.Lifecycle
import KitiumJobQueue.Foundations.Effects
import KitiumJobQueue.Foundations.JavaScript
import KitiumJobQueue.JobQueue.Options

/-!
# The state of a `JobQueue`

A `JobQueue` (`JobQueue.ts`) acts on its two BullMQ queues and on what it is given from outside:
event handlers, a metrics adapter and a telemetry adapter. What it does to these is kept in a
trace. `emit` hands an event to handlers whose errors are caught, so it never fails; an adapter may
throw at any call.
-/

namespace KitiumJobQueue

/-- Queue event names. -/
inductive QueueEvent
  | jobAdded
  | jobStarted
  | jobCompleted
  | jobFailed
  | jobRetrying
  | jobStalled
  | jobProgress
  | jobDlq
  | queueError
  deriving DecidableEq, Repr

namespace JobQueue

open Effects JavaScript Bull

/-- What a `JobQueue` does to the world. -/
inductive Effect
  /-- An event is handed to its handlers, with the job's id and an error. -/
  | emitted (event : QueueEvent) (jobId : Option String) (error : Option JsError)
  | incremented (metric jobName : String)
  | observed (metric jobName : String)
  | spanStarted (name jobName queueName : String)
  | exceptionRecorded (error : JsError)
  | spanEnded
  | progressUpdated (percentage : ℚ)
  /-- The notification handler is called with a job of the dead letter queue. -/
  | notified (jobId : String)
  /-- A job is created in the main queue. -/
  | created (jobId : String)
  /-- A job is removed from the dead letter queue. -/
  | removed (jobId : String)
  deriving DecidableEq

/-- The two queues, and what has been done so far, the latest first. -/
structure State where
  queue : Queue
  dlqQueue : Option Queue
  trace : List Effect := []

/-- Add to the trace. -/
def State.record (s : State) (effect : Effect) : State := { s with trace := effect :: s.trace }

/-- `JobQueue.emit` -/
def emit (event : QueueEvent) (jobId : Option String) (error : Option JsError) :
    Async Thrown State Unit :=
  .modify fun s => s.record (.emitted event jobId error)

theorem keeps_queue_emit (event : QueueEvent) (jobId : Option String) (error : Option JsError) :
    (emit event jobId error).Keeps State.queue := fun _ => rfl

section Adapters

/-- Call an adapter, if there is one; it may throw. -/
def callAdapter (configured : Bool) (a : Answer Thrown) (effect : Effect) :
    Async Thrown State Unit :=
  if configured then perform a fun s => ((), s.record effect) else pure ()

theorem rejection_callAdapter (configured : Bool) (a : Answer Thrown) (effect : Effect)
    (s : State) :
    (callAdapter configured a effect).rejection s = if configured then a.error? else none := by
  unfold callAdapter
  split
  · exact Async.rejection_perform a _ s
  · rfl

theorem resolves_callAdapter {configured : Bool} {a : Answer Thrown}
    (h : configured → a.IsAnswered) (effect : Effect) :
    (callAdapter configured a effect).Resolves := by
  unfold callAdapter
  split
  · next hc => exact .perform (h hc) _
  · exact .pure ()

theorem rejects_callAdapter {configured : Bool} {a : Answer Thrown}
    (h : ¬ (configured → a.IsAnswered)) (effect : Effect) :
    (callAdapter configured a effect).Rejects := by
  obtain ⟨hc, ha⟩ := Classical.not_imp.mp h
  rw [callAdapter, if_pos hc]
  exact .perform ha _

theorem keeps_callAdapter {τ : Type} {f : State → τ} {effect : Effect}
    (h : ∀ s : State, f (s.record effect) = f s) (configured : Bool) (a : Answer Thrown) :
    (callAdapter configured a effect).Keeps f := by
  unfold callAdapter
  split
  · exact .perform h a
  · exact .pure ()

/-- A call changes what its effect changes, if it is made and takes effect. -/
theorem acts_callAdapter {τ : Type} {f : State → τ} {g : τ → τ} {effect : Effect}
    (h : ∀ s : State, f (s.record effect) = g (f s)) (configured : Bool) (a : Answer Thrown) :
    (callAdapter configured a effect).Acts f (if configured ∧ a.TakesEffect then g else id) := by
  intro s
  unfold callAdapter
  cases configured with
  | false => rfl
  | true =>
    cases a with
    | answered => exact h s
    | rejected e applied =>
      cases applied with
      | true => exact h s
      | false => rfl

variable (config : QueueConfig) (a : Answer Thrown)

/-- `this.metrics?.increment` -/
def increment (metric jobName : String) : Async Thrown State Unit :=
  callAdapter config.metrics a (.incremented metric jobName)

/-- `JobQueue.observeDuration` -/
def observeDuration (metric jobName : String) : Async Thrown State Unit :=
  callAdapter config.metrics a (.observed metric jobName)

/-- `this.telemetry?.startSpan` -/
def startSpan (name jobName : String) : Async Thrown State Unit :=
  callAdapter config.telemetry a (.spanStarted name jobName config.name)

/-- `span?.recordException` -/
def recordException (error : JsError) : Async Thrown State Unit :=
  callAdapter config.telemetry a (.exceptionRecorded error)

/-- `span?.end` -/
def endSpan : Async Thrown State Unit := callAdapter config.telemetry a .spanEnded

end Adapters

/-! ## Adding a job -/

/-- `this.queue.add` -/
def State.add (s : State) (name : String) (data : Json) (opts : JobsOptions) (now : ℕ) :
    Job × State :=
  let added := s.queue.add name data opts now
  let s' := { s with queue := added.2 }
  (added.1, if (s.queue.duplicate opts).isNone then s'.record (.created added.1.id) else s')

/-- The options `addJob` adds a job with. -/
def addJobOptions (config : QueueConfig) (random : ℚ) (options : Option JobOptions) : JobsOptions :=
  applyJitter random (buildJobOptions config options) (options.getD {}).jitter.toOption

/-- `JobQueue.addJob`; the two answers are those of the queue and of the metrics adapter. -/
def addJob (config : QueueConfig) (add metric : Answer Thrown) (random : ℚ) (now : ℕ)
    (jobName : String) (data : Json) (options : Option JobOptions) : Async Thrown State String := do
  let job ← perform add fun s => s.add jobName data (addJobOptions config random options) now
  emit .jobAdded (some job.id) none
  increment config metric "jobqueue.job.added" job.name
  pure job.id

theorem State.add_queue (s : State) (name : String) (data : Json) (opts : JobsOptions) (now : ℕ) :
    (s.add name data opts now).2.queue = (s.queue.add name data opts now).2 := by
  simp only [State.add]
  split
  · rfl
  · rfl

/-- What becomes of the main queue. -/
theorem queue_addJob (config : QueueConfig) (add metric : Answer Thrown) (random : ℚ) (now : ℕ)
    (jobName : String) (data : Json) (options : Option JobOptions) (s : State) :
    ((addJob config add metric random now jobName data options).run s).2.queue =
      if add.TakesEffect then
        (s.queue.add jobName data (addJobOptions config random options) now).2
      else s.queue := by
  unfold addJob
  rw [Async.Keeps.run_bind (f := State.queue)]
  · cases add with
    | answered => exact s.add_queue _ _ _ _
    | rejected e applied =>
      cases applied with
      | true => exact s.add_queue _ _ _ _
      | false => rfl
  · intro job
    apply Async.Keeps.bind (keeps_queue_emit _ _ _)
    intro
    apply Async.Keeps.bind (keeps_callAdapter (fun _ => rfl) _ _)
    intro
    exact .pure _

/-! ## Removing jobs -/

/-- `job.remove`, and whether it is done: a job that a worker holds stays. -/
def State.removeJob (s : State) (jobId : String) : Bool × State :=
  match s.queue.removeUnlocked jobId with
  | some queue => (true, { s with queue := queue })
  | none => (false, s)

/-- `JobQueue.removeJob`; the two answers are those of the queue and of the job, and `locked` is the
error for a job that a worker holds. -/
def removeJob (getJob remove : Answer Thrown) (locked : Thrown) (jobId : String) :
    Async Thrown State Unit := do
  match ← perform getJob fun s => (s.queue.getJob jobId, s) with
  | none => pure ()
  | some job =>
    if ← perform remove fun s => s.removeJob job.id then pure () else throw locked

/-- `JobQueue.clear` -/
def clear (rule : CleanRule) (clean : Answer Thrown) : Async Thrown State Unit :=
  perform clean fun s => ((), { s with queue := s.queue.clean rule 10000 .completed })

/-- `JobQueue.drain` -/
def drain (a : Answer Thrown) : Async Thrown State Unit :=
  perform a fun s => ((), { s with queue := s.queue.drain })

section Removing

variable {s : State}

theorem State.narrows_removeJob (h : s.queue.ids.Nodup) (jobId : String) :
    s.queue.Narrows (s.removeJob jobId).2.queue := by
  unfold State.removeJob
  split
  · next hremove => exact Queue.narrows_removeUnlocked h hremove
  · exact .refl h

theorem narrows_perform {α : Type} {op : State → α × State} (h : s.queue.ids.Nodup)
    (hop : s.queue.Narrows (op s).2.queue) (a : Answer Thrown) :
    s.queue.Narrows ((perform a op).run s).2.queue := by
  cases a with
  | answered => exact hop
  | rejected e applied =>
    cases applied with
    | true => exact hop
    | false => exact .refl h

theorem narrows_removeJob (h : s.queue.ids.Nodup) (getJob remove : Answer Thrown) (locked : Thrown)
    (jobId : String) :
    s.queue.Narrows ((removeJob getJob remove locked jobId).run s).2.queue := by
  unfold removeJob
  cases getJob with
  | rejected e applied =>
    rw [Async.run_bind_of_error (run_perform_rejected e applied _ s), ite_self]
    exact .refl h
  | answered =>
    rw [Async.run_bind_of_ok (run_perform_answered _ s)]
    cases s.queue.getJob jobId with
    | none => exact .refl h
    | some job =>
      rw [Async.Keeps.run_bind (f := State.queue)]
      · exact narrows_perform h (State.narrows_removeJob h job.id) remove
      · intro removed
        split
        · exact .pure ()
        · exact .throw locked

theorem narrows_clear (h : s.queue.ids.Nodup) (rule : CleanRule) (a : Answer Thrown) :
    s.queue.Narrows ((clear rule a).run s).2.queue := by
  have hclean := Queue.narrows_clean h rule 10000 .completed
  generalize hq : s.queue.clean rule 10000 .completed = q at hclean
  unfold clear
  apply narrows_perform h
  simp only [hq]
  exact hclean

theorem narrows_drain (h : s.queue.ids.Nodup) (a : Answer Thrown) :
    s.queue.Narrows ((drain a).run s).2.queue :=
  narrows_perform h (Queue.narrows_drain h) a

end Removing

end JobQueue

end KitiumJobQueue
