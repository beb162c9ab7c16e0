import KitiumJobQueue.Foundations.Coroutines
import KitiumJobQueue.Foundations.SharedInvariants
import KitiumJobQueue.JobQueue.Listing
import KitiumJobQueue.JobQueue.Processing

/-!
# Overlapping methods of a `JobQueue`

The methods of a `JobQueue` that change its queues, and the attempts its workers make at jobs, any
number of them at once, each call to a queue failing with or without effect. A worker is handed a
job by BullMQ and hands back how the attempt has ended; the run of its processor is part of the wait
for the job. Adapters are called at once, so what they throw is given with the call. Events, spans
and metrics are left out, and `bulkRetry`, which lists jobs and then does what `retryJob` does.
-/

namespace KitiumJobQueue.JobQueue.Overlapping

open Effects JavaScript Bull

/-! ## The queues -/

/-- The two queues, and the ids of all jobs that additions to the main queue have come to, be they
new or found there. -/
structure Server where
  queue : Queue
  dlqQueue : Queue
  offered : List String := []

/-- What is asked of the queues. The last three are BullMQ's own. -/
inductive Command
  | add (jobName : String) (data : Json) (opts : JobsOptions)
  | getJob (jobId : String)
  | moveToWait (jobId : String)
  | removeJob (jobId : String)
  | clean
  | drain
  | getDlqJobs (limit : ℕ)
  | addDlq (jobName : String) (data : Json)
  | removeDlqJob (jobId : String)
  /-- The call of the notification handler. -/
  | notify (jobId : String)
  /-- A worker takes a job. -/
  | start (jobId : String)
  /-- A worker is done with a job. -/
  | settle (jobId : String) (completed isDelayed : Bool)
  /-- The delay of a job has passed. -/
  | promote (jobId : String)

/-- What a command is answered with. -/
abbrev Reply : Command → Type
  | .add _ _ _ | .addDlq _ _ => Job
  | .getJob _ | .start _ => Option Job
  | .moveToWait _ | .removeJob _ => Bool
  | .getDlqJobs _ => List Job
  | .clean | .drain | .removeDlqJob _ | .notify _ | .settle _ _ _ | .promote _ => Unit

/-- The main queue after a step that is made or not. -/
def Server.afterStep (s : Server) (q : Option Queue) : Server := { s with queue := q.getD s.queue }

section

variable (rule : CleanRule)

/-- What the queues do on a command. -/
def respond (now : ℕ) : (c : Command) → Server → Reply c × Server
  | .add jobName data opts, s =>
    let added := s.queue.add jobName data opts now
    (added.1, { s with queue := added.2, offered := added.1.id :: s.offered })
  | .getJob jobId, s => (s.queue.getJob jobId, s)
  | .moveToWait jobId, s =>
    let q := s.queue.moveToWait jobId
    (q.isSome, s.afterStep q)
  | .removeJob jobId, s =>
    let q := s.queue.removeUnlocked jobId
    (q.isSome, s.afterStep q)
  | .clean, s => ((), { s with queue := s.queue.clean rule 10000 .completed })
  | .drain, s => ((), { s with queue := s.queue.drain })
  | .getDlqJobs limit, s => (s.dlqQueue.getJobs .waiting 0 (limit - 1), s)
  | .addDlq jobName data, s =>
    let added := s.dlqQueue.add jobName data dlqJobOptions now
    (added.1, { s with dlqQueue := added.2 })
  | .removeDlqJob jobId, s => ((), { s with dlqQueue := s.dlqQueue.remove jobId })
  | .notify _, s => ((), s)
  | .start jobId, s =>
    let q := s.queue.start jobId
    (q.bind fun q => q.getJob jobId, s.afterStep q)
  | .settle jobId completed isDelayed, s =>
    ((), s.afterStep
      (if completed then s.queue.complete jobId else s.queue.fail jobId isDelayed))
  | .promote jobId, s => ((), s.afterStep (s.queue.promote jobId))

/-- Any command may fail. -/
def serve : Serve Thrown Server (Effects.Choice Thrown) Reply :=
  fun v c s => (perform v.answer (respond rule v.now c)).run s

end

/-- An asynchronous method. -/
abbrev Method (α : Type) := Coroutine Thrown Unit Reply α

/-- Send a command and wait for its answer. -/
def ask (c : Command) : Method (Reply c) := .await c

/-- Go on with a value, or reject. -/
def settleWith {α : Type} : Except Thrown α → Method α
  | .ok a => pure a
  | .error e => throw e

/-! ## Methods -/

/-- Call an adapter, if there is one; it may throw. -/
def callAdapter (configured : Bool) : Answer Thrown → Except Thrown Unit
  | .answered => .ok ()
  | .rejected e _ => if configured then .error e else .ok ()

/-- `JobQueue.retryJob`; `missing` is the error of a job that is gone, or that no worker holds, when
it is to be moved. -/
def retryJob (stack : String) (missing : Thrown) (jobId : String) : Method Unit := do
  let job ← ask (.getJob jobId)
  match job with
  | none => throw (.error (Status.jobNotFound jobId stack))
  | some job => do
    let moved ← ask (.moveToWait job.id)
    if moved then pure () else throw missing

/-- `JobQueue.removeJob`; `locked` is the error for a job that a worker holds. -/
def removeJob (locked : Thrown) (jobId : String) : Method Unit := do
  let job ← ask (.getJob jobId)
  match job with
  | none => pure ()
  | some job => do
    let removed ← ask (.removeJob job.id)
    if removed then pure () else throw locked

section

variable (config : QueueConfig)

/-- `JobQueue.addJob` -/
def addJob (metric : Answer Thrown) (random : ℚ) (jobName : String) (data : Json)
    (options : Option JobOptions) : Method String := do
  let job ← ask (.add jobName data (addJobOptions config random options))
  settleWith (callAdapter config.metrics metric)
  pure job.id

/-- The loop of `replayDLQ`. -/
def replayJobs : List Job → ℕ → Method ℕ
  | [], moved => pure moved
  | job :: jobs, moved => do
    let _ ← ask (.add job.name job.data (replayOptions config job))
    ask (.removeDlqJob job.id)
    replayJobs jobs (moved + 1)

/-- `JobQueue.replayDLQ` -/
def replayDLQ (limit : ℕ) : Method ℕ :=
  if config.isDlqEnabled then do
    let jobs ← ask (.getDlqJobs limit)
    replayJobs config jobs 0
  else pure 0

/-- `JobQueue.moveJobToDLQ` -/
def moveJobToDLQ (timestamp : String) (job : Job) (error : JsError) : Method Unit :=
  if config.isDlqEnabled then do
    let dlqJob ← ask (.addDlq job.name (envelope config job error timestamp))
    if config.hasNotificationHandler then
      tryCatch (ask (.notify dlqJob.id)) fun _ => pure ()
    else pure ()
  else pure ()

/-- What `processJob` does inside its `try` once the processor has ended. -/
def complete (attempt : Attempt) (processor : ProcessorRun) : Except Thrown Json := do
  let result ← processor.outcome
  callAdapter config.metrics (attempt.answers .completedIncrement)
  callAdapter config.metrics (attempt.answers .completedObserve)
  callAdapter config.telemetry (attempt.answers .completedSpanEnd)
  pure result

/-- What `handleJobFailure` does before it closes the span. -/
def retryOrMove (attempt : Attempt) (job : Job) (error : JsError) : Method Unit :=
  let maxAttempts := job.opts.attempts.getD 3
  let announceRetrying :=
    settleWith (callAdapter config.metrics (attempt.answers .retryingIncrement))
  if config.isDlqEnabled then
    if job.attemptsMade ≥ maxAttempts then do
      moveJobToDLQ config attempt.timestamp job error
      settleWith (callAdapter config.metrics (attempt.answers .dlqIncrement))
    else announceRetrying
  else if job.attemptsMade < maxAttempts then announceRetrying
  else pure ()

/-- `JobQueue.handleJobFailure` -/
def handleJobFailure (attempt : Attempt) (job : Job) (error : JsError) : Method Unit := do
  retryOrMove config attempt job error
  settleWith (callAdapter config.telemetry (attempt.answers .recordException))
  settleWith (callAdapter config.telemetry (attempt.answers .failedSpanEnd))
  settleWith (callAdapter config.metrics (attempt.answers .failedObserve))

/-- `JobQueue.processJob` -/
def processJob (attempt : Attempt) (job : Job) : Method Json :=
  match attempt.processor with
  | none => throw (.error (processorNotFound job.name attempt.stack))
  | some processor => do
    settleWith (callAdapter config.metrics (attempt.answers .startedIncrement))
    settleWith (callAdapter config.telemetry (attempt.answers .startSpan))
    match complete config attempt processor with
    | .ok result => pure result
    | .error error => do
      let error_ := error.toError attempt.stack
      handleJobFailure config attempt job error_
      throw (.error error_)

/-- An attempt of a worker at a job, from BullMQ and back to it. -/
def work (attempt : Attempt) (isDelayed : Bool) (jobId : String) : Method Unit := do
  let job ← ask (.start jobId)
  match job with
  | none => pure ()
  | some job => do
    let completed ← tryCatch
      (do
        let _ ← processJob config attempt job
        pure true)
      fun _ => pure false
    ask (.settle jobId completed isDelayed)

/-! ## The system -/

/-- A call of a method, and what BullMQ does on its own. -/
inductive Call
  | addJob (jobName : String) (data : Json) (options : Option JobOptions) (random : ℚ)
    (metric : Answer Thrown)
  | retryJob (jobId stack : String) (missing : Thrown)
  | removeJob (jobId : String) (locked : Thrown)
  | replayDLQ (limit : ℕ)
  | clear
  | drain
  | promote (jobId : String)
  | work (jobId : String) (attempt : Attempt) (isDelayed : Bool)

/-- What a call resolves with. -/
inductive Result
  | jobId (id : String)
  | moved (count : ℕ)
  | done

/-- The method a call runs. -/
def Call.method : Call → Method Result
  | .addJob jobName data options random metric => do
    let id ← Overlapping.addJob config metric random jobName data options
    pure (.jobId id)
  | .retryJob jobId stack missing => do
    Overlapping.retryJob stack missing jobId
    pure .done
  | .removeJob jobId locked => do
    Overlapping.removeJob locked jobId
    pure .done
  | .replayDLQ limit => do
    let count ← Overlapping.replayDLQ config limit
    pure (.moved count)
  | .clear => do
    ask .clean
    pure .done
  | .drain => do
    ask .drain
    pure .done
  | .promote jobId => do
    ask (.promote jobId)
    pure .done
  | .work jobId attempt isDelayed => do
    Overlapping.work config attempt isDelayed jobId
    pure .done

end

/-- The queues, and the calls made so far. -/
abbrev World := Pool Thrown Unit Server Reply Call Result

/-- A `JobQueue` and its workers under any interleaving of calls. -/
def system (rule : CleanRule) (config : QueueConfig) :
    System World (PoolEvent Call (Effects.Choice Thrown)) :=
  Pool.system (serve rule) (Call.method config)

end KitiumJobQueue.JobQueue.Overlapping
