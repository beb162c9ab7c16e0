import KitiumJobQueue.Bull.Record
import KitiumJobQueue.Foundations.JavaScript

/-!
# The status of a job

Two paths build a `JobStatusInfo`. `JobQueue.getJobStatus` asks BullMQ for the state of the job
(`getState`). `JobStatusFactory` gets the job in a `BullMQJobWrapper`, which infers the state from
four fields of the record, tested in a fixed order; `BullMQStateMapper` turns that into a status.
A field counts as set where JavaScript takes its value for true: a time other than `0`, a reason
other than `""`.
-/

namespace KitiumJobQueue.Status

open Bull JavaScript

/-- Job status enumeration. -/
inductive JobStatus
  | pending
  | active
  | completed
  | failed
  | delayed
  | waiting
  | paused
  | dlq
  deriving DecidableEq, Repr

/-- Job status information. -/
structure JobStatusInfo where
  id : String
  name : String
  status : JobStatus
  progress : ℚ
  data : Json
  attempts : ℕ
  maxAttempts : ℕ
  createdAt : ℕ
  processedAt : Option ℕ := none
  completedAt : Option ℕ := none
  failedAt : Option ℕ := none
  deriving DecidableEq

/-- A time is set. -/
def isTime (time : Option ℕ) : Bool := time.any (· ≠ 0)

/-- A text is set. -/
def isText (text : Option String) : Bool := text.any (· ≠ "")

/-- `typeof job.progress === 'number' ? job.progress : 0` -/
def toProgress : Json → ℚ
  | .num percentage => percentage
  | .null | .bool _ | .str _ | .arr _ | .obj _ => 0

/-! ## `JobQueue` -/

/-- The name `getState` gives a state. -/
def stateName : JobState → String
  | .waiting => "waiting"
  | .delayed => "delayed"
  | .prioritized => "prioritized"
  | .active => "active"
  | .completed => "completed"
  | .failed => "failed"
  | .paused => "paused"
  | .waitingChildren => "waiting-children"

/-- `JobQueue.getJobState` of the name. -/
def getJobState (state : String) : JobStatus :=
  match state with
  | "completed" => .completed
  | "failed" => .failed
  | "active" => .active
  | "delayed" => .delayed
  | "paused" => .paused
  | "prioritized" | "waiting-children" | "waiting" | "wait" => .waiting
  | "unknown" => .pending
  | _ => .pending

/-- The error for a job that is not there. -/
def jobNotFound (jobId stack : String) : JsError where
  message := "Job " ++ jobId ++ " not found"
  stack := some stack
  fields :=
    [("code", .str "queue/job_not_found"),
      ("severity", .str "error"),
      ("kind", .str "not_found"),
      ("retryable", .bool false),
      ("source", .str "@kitiumai/job-queue")]

/-- `JobQueue.getJobStatus`; `job` is what the queue has under the id. -/
def getJobStatus (jobId stack : String) (job : Option JobRecord) : Except JsError JobStatusInfo :=
  match job with
  | none => .error (jobNotFound jobId stack)
  | some job => .ok {
      id := job.id
      name := job.name
      status := getJobState (stateName job.state)
      progress := toProgress job.progress
      data := job.data
      attempts := job.attemptsMade
      maxAttempts := job.opts.attempts.getD 3
      createdAt := job.timestamp
      processedAt := job.processedOn
      completedAt := job.finishedOn
      failedAt := if isText job.failedReason then job.finishedOn else none }

/-! ## `JobStatusFactory` -/

/-- `BullMQJobWrapper` -/
structure BullMQJobWrapper where
  bullJob : JobRecord

/-- `BullMQJobWrapper.state` -/
def BullMQJobWrapper.state (job : BullMQJobWrapper) : String :=
  if isTime job.bullJob.finishedOn then
    if isText job.bullJob.failedReason then "failed" else "completed"
  else if isTime job.bullJob.processedOn then "active"
  else if job.bullJob.delay ≠ 0 then "delayed"
  else "waiting"

/-- `BullMQStateMapper.toJobStatus` -/
def toJobStatus (state : String) : JobStatus :=
  match state with
  | "completed" => .completed
  | "failed" => .failed
  | "active" => .active
  | "waiting" => .waiting
  | "paused" => .paused
  | "delayed" => .delayed
  | "pending" => .pending
  | _ => .pending

/-- `JobStatusFactory.createStatusInfo`; it never sets `failedAt`. -/
def createStatusInfo (job : BullMQJobWrapper) : JobStatusInfo where
  id := job.bullJob.id
  name := job.bullJob.name
  status := toJobStatus job.state
  progress := toProgress job.bullJob.progress
  data := job.bullJob.data
  attempts := job.bullJob.attemptsMade
  maxAttempts := job.bullJob.opts.attempts.getD 3
  createdAt := job.bullJob.timestamp
  processedAt := job.bullJob.processedOn
  completedAt := job.bullJob.finishedOn

/-! ## When the two agree -/

/-- The status of a state. -/
def statusOf : JobState → JobStatus
  | .waiting | .prioritized | .waitingChildren => .waiting
  | .delayed => .delayed
  | .active => .active
  | .completed => .completed
  | .failed => .failed
  | .paused => .paused

/-- Both paths give the same information, with the status of the state the job is in. -/
def Agree (job : JobRecord) (stack : String) : Prop :=
  ∃ info, getJobStatus job.id stack (some job) = .ok info ∧ createStatusInfo ⟨job⟩ = info ∧
    info.status = statusOf job.state

/-- The state can be told from the fields: a job that waits has not been started before, and a
completed one has no failure reason left. A failed job is never told apart in all fields. -/
def Telling (job : JobRecord) : Prop :=
  match job.state with
  | .waiting | .prioritized | .delayed => isTime job.processedOn = false
  | .active => isTime job.processedOn
  | .completed => isTime job.finishedOn ∧ isText job.failedReason = false
  | .failed | .paused | .waitingChildren => False

/-- `JobQueue` always reports the status of the state. -/
theorem getJobState_stateName (state : JobState) :
    getJobState (stateName state) = statusOf state := by
  cases state <;> rfl

/-- Apart from the status, only the time of the failure can differ. -/
theorem agree_iff {job : JobRecord} {stack : String} :
    Agree job stack ↔ toJobStatus (BullMQJobWrapper.state ⟨job⟩) = statusOf job.state ∧
      (isText job.failedReason → job.finishedOn = none) := by
  unfold Agree getJobStatus createStatusInfo
  dsimp only
  rw [getJobState_stateName]
  constructor
  · rintro ⟨info, hlegacy, rfl, hstatus⟩
    refine ⟨hstatus, fun htext => ?_⟩
    have hfailed := congrArg JobStatusInfo.failedAt (Except.ok.inj hlegacy)
    simpa only [htext, if_true] using hfailed
  · rintro ⟨hstatus, hfailed⟩
    refine ⟨_, rfl, ?_, rfl⟩
    rw [hstatus]
    congr 1
    split
    · next htext => exact (hfailed htext).symm
    · rfl

/-- What the wrapper infers of a job that is not finished. -/
theorem toJobStatus_state_of_finishedOn_eq_none {job : JobRecord} (h : job.finishedOn = none) :
    toJobStatus (BullMQJobWrapper.state ⟨job⟩) =
      if isTime job.processedOn then .active else if job.delay ≠ 0 then .delayed
      else .waiting := by
  rw [BullMQJobWrapper.state, h, apply_ite toJobStatus]
  have hdelay : toJobStatus (if job.delay ≠ 0 then "delayed" else "waiting") =
      if job.delay ≠ 0 then .delayed else .waiting := apply_ite toJobStatus _ _ _
  rw [← hdelay]
  exact apply_ite toJobStatus _ _ _

/-- What the wrapper takes for a completed job. -/
theorem toJobStatus_state_eq_completed {job : JobRecord} :
    toJobStatus (BullMQJobWrapper.state ⟨job⟩) = .completed ↔
      isTime job.finishedOn ∧ isText job.failedReason = false := by
  unfold BullMQJobWrapper.state
  dsimp only
  split_ifs with hfinished htext hprocessed hdelay
  · simp [htext, toJobStatus]
  · simp [htext, hfinished, toJobStatus]
  · simp [hfinished, toJobStatus]
  · simp [hfinished, toJobStatus]
  · simp [hfinished, toJobStatus]

/-- What the wrapper takes for a failed job. -/
theorem isText_of_toJobStatus_state_eq_failed {job : JobRecord}
    (h : toJobStatus (BullMQJobWrapper.state ⟨job⟩) = .failed) : isText job.failedReason := by
  revert h
  unfold BullMQJobWrapper.state
  dsimp only
  split_ifs with hfinished htext hprocessed hdelay
  · exact fun _ => htext
  · exact fun h => absurd h (by decide)
  · exact fun h => absurd h (by decide)
  · exact fun h => absurd h (by decide)
  · exact fun h => absurd h (by decide)

/-- **Where the fields fit the state, the two paths agree exactly if the state can be told from the
fields.** -/
theorem agree_iff_of_fits {job : JobRecord} (h : job.Fits) (stack : String) :
    Agree job stack ↔ Telling job := by
  rw [agree_iff]
  unfold JobRecord.Fits at h
  unfold Telling
  cases hst : job.state with
  | waiting | prioritized =>
    rw [hst] at h
    rw [toJobStatus_state_of_finishedOn_eq_none h.1, h.1, h.2]
    cases isTime job.processedOn with
    | true => simp [statusOf]
    | false => simp [statusOf]
  | delayed =>
    rw [hst] at h
    rw [toJobStatus_state_of_finishedOn_eq_none h.1, h.1, if_pos h.2]
    cases isTime job.processedOn with
    | true => simp [statusOf]
    | false => simp [statusOf]
  | active =>
    rw [hst] at h
    rw [toJobStatus_state_of_finishedOn_eq_none h.1, h.1, h.2.1]
    cases isTime job.processedOn with
    | true => simp [statusOf]
    | false => simp [statusOf]
  | completed =>
    rw [statusOf, toJobStatus_state_eq_completed]
    refine and_iff_left_of_imp fun ⟨_, hreason⟩ htext => ?_
    rw [hreason] at htext
    exact absurd htext Bool.false_ne_true
  | failed =>
    -- a reason makes the failure known and its time too, which the factory never tells
    rw [hst] at h
    refine iff_of_false (fun ⟨hstatus, hfailed⟩ => ?_) id
    have hnone := hfailed (isText_of_toJobStatus_state_eq_failed hstatus)
    rw [hnone] at h
    exact Bool.false_ne_true h.1
  | paused | waitingChildren =>
    rw [hst] at h
    exact h.elim

/-- **At every point in the life of a job the two paths agree exactly if the state can be told from
the fields.** -/
theorem agree_iff_of_run {id name : String} {data : Json} {opts : JobsOptions} {now : ℕ}
    {events : List LifeEvent} {job : JobRecord}
    (h : JobRecord.life.runFrom (JobRecord.added id name data opts now) events = some job)
    (stack : String) : Agree job stack ↔ Telling job :=
  agree_iff_of_fits (JobRecord.fits_of_run h) stack

/-- A job of three attempts. -/
def sampleJob : JobRecord :=
  JobRecord.added "7" "send-mail" .null { attempts := .value 3 } 900

/-- The paths agree on the job once a worker has taken it. -/
theorem agree_started : Agree { sampleJob with state := .active, processedOn := some 1000 } "" := by
  have hrun : JobRecord.life.runFrom sampleJob [.start 1000] =
      some { sampleJob with state := .active, processedOn := some 1000 } := rfl
  exact (agree_iff_of_run hrun "").mpr rfl

/-- When its first attempt has failed, the job waits for the next one, but the time it was taken
stays: the wrapper takes it for active. -/
theorem not_agree_retried :
    ¬ ∀ (id name : String) (data : Json) (opts : JobsOptions) (now : ℕ) (events : List LifeEvent)
        (job : JobRecord),
      JobRecord.life.runFrom (JobRecord.added id name data opts now) events = some job →
        ∀ stack, Agree job stack := by
  intro hclaim
  have hagree := hclaim "7" "send-mail" .null { attempts := .value 3 } 900
    [.start 1000, .failAttempt 0 "refused" true] _ rfl ""
  exact absurd (agree_iff.mp hagree).1 (by decide)

end KitiumJobQueue.Status
