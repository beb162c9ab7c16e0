import KitiumJobQueue.JobQueue.DeadLetter

/-!
# Processing a job

`processJob` is what BullMQ calls for one attempt at a job. A processor that rejects, and an adapter
that throws while the success is being reported, lead through `handleJobFailure`; a job without a
processor and an adapter that throws before the processor is called do not.
-/

namespace KitiumJobQueue.JobQueue

open Effects JavaScript Bull

/-- The calls of one attempt that may fail. -/
inductive Site
  | startedIncrement
  | startSpan
  | completedIncrement
  | completedObserve
  | completedSpanEnd
  | dlqAdd
  | notificationHandler
  | dlqIncrement
  | retryingIncrement
  | recordException
  | failedSpanEnd
  | failedObserve
  deriving DecidableEq

/-- One run of a processor: the progress it reports, and how it ends. -/
structure ProcessorRun where
  progress : List ℚ := []
  outcome : Except Thrown Json

/-- What one attempt meets: the processor registered for the job's name, the fate of the calls, the
stack text an error made here would have, and the time. -/
structure Attempt where
  processor : Option ProcessorRun
  answers : Site → Answer Thrown
  stack : String
  now : ℕ
  timestamp : String

/-- The error for a job without a processor. -/
def processorNotFound (jobName stack : String) : JsError where
  message := "No processor registered for job: " ++ jobName
  stack := some stack
  fields :=
    [("code", .str "queue/processor_not_found"),
      ("severity", .str "error"),
      ("kind", .str "validation"),
      ("retryable", .bool false),
      ("source", .str "@kitiumai/job-queue")]

section

variable (config : QueueConfig) (attempt : Attempt)

/-- The `progress` callback, once for every report. -/
def reportProgress (job : Job) : List ℚ → Async Thrown State Unit
  | [] => pure ()
  | percentage :: percentages => do
    .modify fun s => s.record (.progressUpdated percentage)
    emit .jobProgress (some job.id) none
    reportProgress job percentages

/-- The call of the processor. -/
def runProcessor (processor : ProcessorRun) (job : Job) : Async Thrown State Json := do
  reportProgress job processor.progress
  match processor.outcome with
  | .ok result => pure result
  | .error e => throw e

/-- Announce another attempt. -/
def announceRetrying (job : Job) : Async Thrown State Unit := do
  emit .jobRetrying (some job.id) none
  increment config (attempt.answers .retryingIncrement) "jobqueue.job.retrying" job.name

/-- What `handleJobFailure` does before it closes the span: the dead letter queue or another
attempt. -/
def retryOrMove (job : Job) (error : JsError) : Async Thrown State Unit :=
  let maxAttempts := job.opts.attempts.getD 3
  if config.isDlqEnabled then
    if job.attemptsMade ≥ maxAttempts then do
      moveJobToDLQ config (attempt.answers .dlqAdd) (attempt.answers .notificationHandler)
        attempt.now attempt.timestamp job error
      emit .jobDlq (some job.id) (some error)
      increment config (attempt.answers .dlqIncrement) "jobqueue.job.dlq" job.name
    else do
      emit .jobFailed (some job.id) (some error)
      announceRetrying config attempt job
  else do
    emit .jobFailed (some job.id) (some error)
    if job.attemptsMade < maxAttempts then announceRetrying config attempt job else pure ()

/-- `JobQueue.handleJobFailure` -/
def handleJobFailure (job : Job) (error : JsError) : Async Thrown State Unit := do
  retryOrMove config attempt job error
  recordException config (attempt.answers .recordException) error
  endSpan config (attempt.answers .failedSpanEnd)
  observeDuration config (attempt.answers .failedObserve) "jobqueue.job.duration_ms" job.name

/-- What `processJob` does inside its `try`. -/
def complete (processor : ProcessorRun) (job : Job) : Async Thrown State Json := do
  let result ← runProcessor processor job
  emit .jobCompleted (some job.id) none
  increment config (attempt.answers .completedIncrement) "jobqueue.job.completed" job.name
  observeDuration config (attempt.answers .completedObserve) "jobqueue.job.duration_ms" job.name
  endSpan config (attempt.answers .completedSpanEnd)
  pure result

/-- `JobQueue.processJob` -/
def processJob (job : Job) : Async Thrown State Json :=
  match attempt.processor with
  | none => throw (.error (processorNotFound job.name attempt.stack))
  | some processor => do
    emit .jobStarted (some job.id) none
    increment config (attempt.answers .startedIncrement) "jobqueue.job.started" job.name
    startSpan config (attempt.answers .startSpan) "jobqueue.process" job.name
    tryCatch (complete config attempt processor job) fun error => do
      let error_ := error.toError attempt.stack
      handleJobFailure config attempt job error_
      throw (.error error_)

/-! ## What an attempt announces, and what it leaves alone -/

/-- The announcement in an effect: another attempt, or the end of all attempts. -/
def announcement : Effect → Option QueueEvent
  | .emitted .jobRetrying _ _ => some .jobRetrying
  | .emitted .jobDlq _ _ => some .jobDlq
  | _ => none

theorem keeps_reportProgress {τ : Type} {f : State → τ} (job : Job)
    (hprogress : ∀ percentage (s : State), f (s.record (.progressUpdated percentage)) = f s)
    (hemit : ∀ s : State, f (s.record (.emitted .jobProgress (some job.id) none)) = f s)
    (percentages : List ℚ) : (reportProgress job percentages).Keeps f := by
  induction percentages with
  | nil => exact .pure ()
  | cons percentage percentages ih =>
    apply Async.Keeps.bind (.modify (hprogress percentage))
    intro
    apply Async.Keeps.bind (.modify hemit)
    intro
    exact ih

theorem keeps_runProcessor {τ : Type} {f : State → τ} (job : Job)
    (hprogress : ∀ percentage (s : State), f (s.record (.progressUpdated percentage)) = f s)
    (hemit : ∀ s : State, f (s.record (.emitted .jobProgress (some job.id) none)) = f s)
    (processor : ProcessorRun) : (runProcessor processor job).Keeps f := by
  apply Async.Keeps.bind (keeps_reportProgress job hprogress hemit _)
  intro
  cases processor.outcome with
  | ok result => exact .pure result
  | error e => exact .throw e

section Quiet

variable {τ : Type} {f : State → τ}
  (hf : ∀ effect, announcement effect = none → ∀ s : State, f (s.record effect) = f s)
include hf

/-- Up to the end of the `try` nothing is announced, and nothing else than the trace is changed. -/
theorem keeps_complete (processor : ProcessorRun) (job : Job) :
    (complete config attempt processor job).Keeps f := by
  apply Async.Keeps.bind (keeps_runProcessor job (fun _ => hf _ rfl) (hf _ rfl) processor)
  intro
  apply Async.Keeps.bind (.modify (hf _ rfl))
  intro
  apply Async.Keeps.bind (keeps_callAdapter (hf _ rfl) _ _)
  intro
  apply Async.Keeps.bind (keeps_callAdapter (hf _ rfl) _ _)
  intro
  apply Async.Keeps.bind (keeps_callAdapter (hf _ rfl) _ _)
  intro
  exact .pure _

end Quiet

theorem keeps_queue_announceRetrying (job : Job) :
    (announceRetrying config attempt job).Keeps State.queue :=
  .bind (keeps_queue_emit _ _ _) fun _ => keeps_callAdapter (fun _ => rfl) _ _

theorem keeps_queue_retryOrMove (job : Job) (error : JsError) :
    (retryOrMove config attempt job error).Keeps State.queue := by
  have hretrying := keeps_queue_announceRetrying config attempt job
  simp only [retryOrMove]
  split
  · split
    · apply Async.Keeps.bind (keeps_moveJobToDLQ (fun _ _ => rfl) (fun _ _ => rfl) _ _ _ _ _ _ _)
      intro
      apply Async.Keeps.bind (keeps_queue_emit _ _ _)
      intro
      exact keeps_callAdapter (fun _ => rfl) _ _
    · exact .bind (keeps_queue_emit _ _ _) fun _ => hretrying
  · apply Async.Keeps.bind (keeps_queue_emit _ _ _)
    intro
    split
    · exact hretrying
    · exact .pure ()

theorem keeps_queue_handleJobFailure (job : Job) (error : JsError) :
    (handleJobFailure config attempt job error).Keeps State.queue := by
  apply Async.Keeps.bind (keeps_queue_retryOrMove _ _ _ _)
  intro
  apply Async.Keeps.bind (keeps_callAdapter (fun _ => rfl) _ _)
  intro
  apply Async.Keeps.bind (keeps_callAdapter (fun _ => rfl) _ _)
  intro
  exact keeps_callAdapter (fun _ => rfl) _ _

/-- An attempt leaves the main queue to BullMQ. -/
theorem keeps_queue_processJob (job : Job) : (processJob config attempt job).Keeps State.queue := by
  unfold processJob
  split
  · exact .throw _
  · apply Async.Keeps.bind (keeps_queue_emit _ _ _)
    intro
    apply Async.Keeps.bind (keeps_callAdapter (fun _ => rfl) _ _)
    intro
    apply Async.Keeps.bind (keeps_callAdapter (fun _ => rfl) _ _)
    intro
    apply (keeps_complete config attempt (fun _ _ _ => rfl) _ job).handle
    intro e
    exact .bind (keeps_queue_handleJobFailure _ _ _ _) fun _ => .throw _

/-! ## How an attempt ends -/

/-- The attempt reaches its processor. -/
def Attempt.Enters : Prop :=
  attempt.processor.isSome ∧
    (config.metrics → (attempt.answers .startedIncrement).IsAnswered) ∧
    (config.telemetry → (attempt.answers .startSpan).IsAnswered)

/-- The attempt reaches its processor, which resolves, and the success is reported. -/
def Attempt.Succeeds : Prop :=
  attempt.Enters config ∧ (∃ processor ∈ attempt.processor, processor.outcome.isOk) ∧
    (config.metrics → (attempt.answers .completedIncrement).IsAnswered) ∧
    (config.metrics → (attempt.answers .completedObserve).IsAnswered) ∧
    (config.telemetry → (attempt.answers .completedSpanEnd).IsAnswered)

instance : Decidable (attempt.Enters config) := inferInstanceAs (Decidable (_ ∧ _ ∧ _))

instance : Decidable (attempt.Succeeds config) :=
  inferInstanceAs (Decidable (_ ∧ _ ∧ _ ∧ _ ∧ _))

end

end KitiumJobQueue.JobQueue
