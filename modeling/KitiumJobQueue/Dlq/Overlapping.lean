import KitiumJobQueue.Bull.Retention
import KitiumJobQueue.Dlq.Manager
import KitiumJobQueue.Foundations.Accounts
import KitiumJobQueue.Foundations.SharedInvariants

/-!
# Overlapping replays of failed jobs

The methods of `DLQManager` as coroutines over the primary queue, any number of them at once, with
each call to the queue failing before or after it takes effect, while jobs are added by
`BullMQQueueClient.addJob` and workers start, complete and fail them.

A replay adds a copy of a failed job and then cleans some failed job, which need not be that one.
The queue counts what is added, copied and taken away.
-/

namespace KitiumJobQueue.Dlq.Overlapping

open Effects Bull

/-! ## The queue -/

/-- The primary queue, and how many jobs have come and gone. -/
structure Server where
  queue : Queue
  /-- The jobs that were added, copies apart. -/
  added : ℕ := 0
  /-- The copies that replays have added. -/
  copies : ℕ := 0
  /-- The jobs that went, other than by a replay. -/
  gone : ℕ := 0

/-- What is asked of the queue. The last three are BullMQ's own. -/
inductive Command
  | addJob (jobName : String) (data : Json) (options : Option JobOptions)
  /-- The same, when a replay does it. -/
  | addCopy (jobName : String) (data : Json) (options : Option JobOptions)
  | getJob (jobId : String)
  | getFailed (limit : ℕ)
  | countFailed
  /-- `clean(0, 1, 'failed')` -/
  | cleanOne
  /-- `clean(0, limit, 'failed')`, when `clearDLQ` does it. -/
  | cleanAll (limit : ℕ)
  | start (jobId : String)
  | settle (jobId : String) (completed isDelayed : Bool)
  | promote (jobId : String)

/-- What a command is answered with. -/
abbrev Reply : Command → Type
  | .addJob _ _ _ | .addCopy _ _ _ => String
  | .getJob _ => Option Job
  | .getFailed _ => List Job
  | .countFailed => ℕ
  | .cleanOne | .cleanAll _ | .start _ | .settle _ _ _ | .promote _ => Unit

/-- Other jobs are stored, and those that are not there any more have gone. -/
def Server.become (s : Server) (q : Queue) : Server :=
  { s with queue := q, gone := s.gone + (s.queue.jobs.length - q.jobs.length) }

section

variable (rule : CleanRule)

/-- What the queue does on a command. -/
def respond (now : ℕ) : (c : Command) → Server → Reply c × Server
  | .addJob jobName data options, s =>
    let stored := s.queue.add jobName data { toJobOptions := options.getD {} } now
    (stored.1.id, { s with queue := stored.2, added := s.added + 1 })
  | .addCopy jobName data options, s =>
    let stored := s.queue.add jobName data { toJobOptions := options.getD {} } now
    (stored.1.id, { s with queue := stored.2, copies := s.copies + 1 })
  | .getJob jobId, s => (s.queue.getJob jobId, s)
  | .getFailed limit, s => (s.queue.getJobs .failed 0 (limit - 1), s)
  | .countFailed, s => (s.queue.getJobCountByTypes [.failed], s)
  | .cleanOne, s => ((), { s with queue := s.queue.clean rule 1 .failed })
  | .cleanAll limit, s => ((), s.become (s.queue.clean rule limit .failed))
  | .start jobId, s => ((), s.become ((s.queue.start jobId).getD s.queue))
  | .settle jobId completed isDelayed, s =>
    ((), s.become ((if completed then s.queue.complete jobId
      else s.queue.fail jobId isDelayed).getD s.queue))
  | .promote jobId, s => ((), s.become ((s.queue.promote jobId).getD s.queue))

/-- Any command may fail. -/
def serve {ε : Type} : Serve ε Server (Choice ε) Reply :=
  fun v c s => (perform v.answer (respond rule v.now c)).run s

end

/-- An asynchronous method. -/
abbrev Method (ε α : Type) := Coroutine ε Unit Reply α

variable {ε : Type}

/-- Send a command and wait for its answer. -/
def ask (c : Command) : Method ε (Reply c) := .await c

/-! ## Methods -/

section

variable (dlqConfig : Option DLQConfig)

/-- `DLQManager.getDLQJobs` -/
def getDLQJobs (limit : ℕ) : Method ε (List DLQJobInfo) :=
  if isEnabled dlqConfig then
    tryCatch
      (do
        let jobs ← ask (.getFailed limit)
        pure (jobs.map toDLQJobInfo))
      fun _ => pure []
  else pure []

/-- `DLQManager.getDLQCount` -/
def getDLQCount : Method ε ℕ :=
  if isEnabled dlqConfig then tryCatch (ask .countFailed) fun _ => pure 0 else pure 0

/-- `DLQManager.replayJob` -/
def replayJob (jobId : String) (options : Option JobOptions) : Method ε Bool :=
  if isEnabled dlqConfig then
    tryCatch
      (do
        let job ← ask (.getJob jobId)
        match job with
        | none => pure false
        | some job => do
          let _newJobId ← ask (.addCopy job.name job.data options)
          ask .cleanOne
          pure true)
      fun _ => pure false
  else pure false

/-- The loop of `replayDLQ`. -/
def replayJobs : List DLQJobInfo → ℕ → Method ε ℕ
  | [], replayed => pure replayed
  | dlqJob :: dlqJobs, replayed => do
    let isSuccess ← replayJob dlqConfig dlqJob.id none
    replayJobs dlqJobs (if isSuccess then replayed + 1 else replayed)

/-- `DLQManager.replayDLQ` -/
def replayDLQ (limit : ℕ) : Method ε ℕ :=
  if isEnabled dlqConfig then
    tryCatch
      (do
        let dlqJobs ← getDLQJobs dlqConfig limit
        replayJobs dlqConfig dlqJobs 0)
      fun _ => pure 0
  else pure 0

/-- `DLQManager.clearDLQ` -/
def clearDLQ : Method ε ℕ :=
  if isEnabled dlqConfig then
    tryCatch
      (do
        let count ← getDLQCount dlqConfig
        ask (.cleanAll count)
        pure count)
      fun _ => pure 0
  else pure 0

/-! ## The system -/

/-- A call of a method, and what BullMQ and its workers do. -/
inductive Call
  | addJob (jobName : String) (data : Json) (options : Option JobOptions)
  | getDLQJobs (limit : ℕ)
  | getDLQCount
  | replayJob (jobId : String) (options : Option JobOptions)
  | replayDLQ (limit : ℕ)
  | clearDLQ
  | start (jobId : String)
  | settle (jobId : String) (completed isDelayed : Bool)
  | promote (jobId : String)

/-- What a call resolves with. -/
inductive Result
  | jobId (id : String)
  | jobs (jobs : List DLQJobInfo)
  | count (count : ℕ)
  | replayed (isSuccess : Bool)
  | done

/-- The method a call runs. -/
def Call.method : Call → Method ε Result
  | .addJob jobName data options => do
    let id ← ask (.addJob jobName data options)
    pure (.jobId id)
  | .getDLQJobs limit => do
    let jobs ← Overlapping.getDLQJobs dlqConfig limit
    pure (.jobs jobs)
  | .getDLQCount => do
    let count ← Overlapping.getDLQCount dlqConfig
    pure (.count count)
  | .replayJob jobId options => do
    let isSuccess ← Overlapping.replayJob dlqConfig jobId options
    pure (.replayed isSuccess)
  | .replayDLQ limit => do
    let count ← Overlapping.replayDLQ dlqConfig limit
    pure (.count count)
  | .clearDLQ => do
    let count ← Overlapping.clearDLQ dlqConfig
    pure (.count count)
  | .start jobId => do
    ask (.start jobId)
    pure .done
  | .settle jobId completed isDelayed => do
    ask (.settle jobId completed isDelayed)
    pure .done
  | .promote jobId => do
    ask (.promote jobId)
    pure .done

end

/-- The queue, and the calls made so far. -/
abbrev World (ε : Type) := Pool ε Unit Server Reply Call Result

/-- The manager, the client and the workers under any interleaving of calls. -/
def system (rule : CleanRule) (dlqConfig : Option DLQConfig) :
    System (World ε) (PoolEvent Call (Choice ε)) :=
  Pool.system (serve rule) (Call.method dlqConfig)

end KitiumJobQueue.Dlq.Overlapping
