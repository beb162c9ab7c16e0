import KitiumJobQueue.Bull.Queue
import KitiumJobQueue.Config
import KitiumJobQueue.Foundations.Effects

/-!
# The dead letter queue manager

`DLQManager` of `dlq-manager.ts`, over the queue calls of `BullMQQueueClient`. The failed jobs of
the primary queue stand for the dead letter queue. Replaying a job adds a copy of it and then
removes a failed job with `clean(0, 1, 'failed')`, which is not told which one.
-/

namespace KitiumJobQueue.Dlq

open Effects Bull

/-- What `getDLQJobs` tells of a job. -/
structure DLQJobInfo where
  id : String
  name : String
  data : Json
  attempts : ℕ
  createdAt : ℕ

/-- The info of a failed job. -/
def toDLQJobInfo (job : Job) : DLQJobInfo where
  id := job.id
  name := job.name
  data := job.data
  attempts := job.attemptsMade
  createdAt := job.timestamp

section Methods

variable {ε : Type} (dlqConfig : Option DLQConfig) (rule : CleanRule) (answers : ℕ → Answer ε)
  (now : ℕ)

/-! ## The queue client -/

/-- `BullMQQueueClient.addJob` -/
def addJob (name : String) (data : Json) (options : Option JobOptions) :
    Async ε (Remote Queue) String :=
  call answers fun q =>
    let added := q.add name data { toJobOptions := options.getD {} } now
    (added.1.id, added.2)

/-- `BullMQQueueClient.getJob` -/
def getJob (jobId : String) : Async ε (Remote Queue) (Option Job) :=
  call answers fun q => (q.getJob jobId, q)

/-- `BullMQQueueClient.getJobsByState` -/
def getJobsByState (state : JobState) (start : ℕ) (stop : ℤ) : Async ε (Remote Queue) (List Job) :=
  call answers fun q => (q.getJobs state start stop, q)

/-- `BullMQQueueClient.clean` with no grace period. -/
def clean (limit : ℕ) (state : JobState) : Async ε (Remote Queue) Unit :=
  call answers fun q => ((), q.clean rule limit state)

/-! ## The manager -/

/-- `DLQManager.isEnabled` -/
def isEnabled : Bool := dlqConfig.any DLQConfig.enabled

/-- `DLQManager.getDLQJobs` -/
def getDLQJobs (limit : ℕ) : Async ε (Remote Queue) (List DLQJobInfo) :=
  if isEnabled dlqConfig then
    tryCatch
      (do
        let jobs ← getJobsByState answers .failed 0 (limit - 1)
        pure (jobs.map toDLQJobInfo))
      fun _ => pure []
  else pure []

/-- `DLQManager.replayJob` -/
def replayJob (jobId : String) (options : Option JobOptions) : Async ε (Remote Queue) Bool :=
  if isEnabled dlqConfig then
    tryCatch
      (do
        match ← getJob answers jobId with
        | none => pure false
        | some job => do
          let _newJobId ← addJob answers now job.name job.data options
          clean rule answers 1 .failed
          pure true)
      fun _ => pure false
  else pure false

/-- The loop of `replayDLQ`. -/
def replayJobs : List DLQJobInfo → ℕ → Async ε (Remote Queue) ℕ
  | [], replayed => pure replayed
  | dlqJob :: dlqJobs, replayed => do
    let isSuccess ← replayJob dlqConfig rule answers now dlqJob.id none
    replayJobs dlqJobs (if isSuccess then replayed + 1 else replayed)

/-- `DLQManager.replayDLQ` -/
def replayDLQ (limit : ℕ) : Async ε (Remote Queue) ℕ :=
  if isEnabled dlqConfig then
    tryCatch
      (do
        let dlqJobs ← getDLQJobs dlqConfig answers limit
        replayJobs dlqConfig rule answers now dlqJobs 0)
      fun _ => pure 0
  else pure 0

end Methods

end KitiumJobQueue.Dlq
