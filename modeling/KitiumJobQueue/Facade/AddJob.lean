import KitiumJobQueue.Dlq.Manager
import KitiumJobQueue.JobQueue.Basic

/-!
# Adding a job through the facade

`JobQueueFacade` replaces the class `JobQueue`. Its `addJob` goes through `QueueConnectionManager`
to the queue client of `BullMQAdapter`, which hands the options to BullMQ as they come; `JobQueue`
fills in defaults of its own, in the queue and again in every job, and turns an idempotency key into
the job id. BullMQ spreads the options of a job over those of its queue, so what a job is enqueued
under is the result of that (`legacyOptions`, `facadeOptions`). The two results are compared by what
BullMQ makes of them, where a missing delay or priority is `0` and a missing removal policy keeps
every job.
-/

namespace KitiumJobQueue.Facade

open Effects JavaScript Bull

/-! ## The two queues -/

/-- The queue of the `JobQueue` constructor, over what Redis holds. -/
def legacyQueue (config : QueueConfig) (stored : Queue) : Queue :=
  { stored with defaultJobOptions := JobQueue.buildDefaultJobOptions config.defaultJobOptions }

/-- `BullMQAdapter.createQueue`: the queue of the `BullMQQueueClient` constructor. -/
def createQueue (config : QueueConfig) (stored : Queue) : Queue :=
  { stored with defaultJobOptions := { toJobOptions := config.defaultJobOptions.getD {} } }

/-- The error of a `QueueConnectionManager` that has no client yet. -/
def queueNotConnected (stack : String) : JsError where
  message := "Queue not connected. Call connect() first."
  stack := some stack

/-- `QueueConnectionManager.addJob`; the manager has a client once `connect` has made one. -/
def QueueConnectionManager.addJob (hasClient : Bool) (stack : String)
    (answers : ℕ → Answer Thrown) (now : ℕ) (name : String) (data : Json)
    (options : Option JobOptions) : Async Thrown (Remote Queue) String :=
  if hasClient then Dlq.addJob answers now name data options
  else throw (.error (queueNotConnected stack))

/-- `JobQueueFacade.addJob`; an error is logged and thrown again. -/
def JobQueueFacade.addJob (hasClient : Bool) (stack : String) (answers : ℕ → Answer Thrown)
    (now : ℕ) (jobName : String) (data : Json) (options : Option JobOptions) :
    Async Thrown (Remote Queue) String :=
  tryCatch (QueueConnectionManager.addJob hasClient stack answers now jobName data options) throw

/-! ## The options a job is enqueued under -/

section

variable (config : QueueConfig) (random : ℚ) (options : Option JobOptions)

/-- What `JobQueue.addJob` enqueues a job under. -/
def legacyOptions : JobsOptions :=
  (JobQueue.buildDefaultJobOptions config.defaultJobOptions).spread
    (JobQueue.addJobOptions config random options)

/-- What `JobQueueFacade.addJob` enqueues a job under. -/
def facadeOptions : JobsOptions where
  toJobOptions := (config.defaultJobOptions.getD {}).spread (options.getD {})

/-- The job `JobQueue.addJob` stores, if its id is free. -/
theorem opts_of_addJob {stored : Queue} {s : JobQueue.State}
    (hs : s.queue = legacyQueue config stored)
    (hfree : s.queue.duplicate (JobQueue.addJobOptions config random options) = none) (now : ℕ)
    (metric : Answer Thrown) (jobName : String) (data : Json) :
    ∃ job, ((JobQueue.addJob config .answered metric random now jobName data options).run s).2.queue
        = { s.queue.put job with counter := s.queue.counter + 1 } ∧
      job.opts = legacyOptions config random options := by
  have hdone : (Answer.answered : Answer Thrown).TakesEffect := trivial
  rw [JobQueue.queue_addJob, if_pos hdone, Queue.add_eq_put hfree]
  refine ⟨_, rfl, ?_⟩
  rw [Queue.newJob, hs]
  rfl

theorem run_addJob_of_answered {r : Remote Queue} {answers : ℕ → Answer Thrown}
    (h : answers r.calls = .answered) (now : ℕ) (name : String) (data : Json) :
    (Dlq.addJob answers now name data options).run r =
      (.ok (r.server.add name data { toJobOptions := options.getD {} } now).1.id,
        ⟨(r.server.add name data { toJobOptions := options.getD {} } now).2, r.calls + 1⟩) := by
  unfold Dlq.addJob
  exact run_call_of_answered h

/-- The job `JobQueueFacade.addJob` stores; its id is always free. -/
theorem opts_of_facade_addJob {stored : Queue} {r : Remote Queue}
    (hr : r.server = createQueue config stored) {answers : ℕ → Answer Thrown}
    (hanswer : answers r.calls = .answered) (stack : String) (now : ℕ) (jobName : String)
    (data : Json) :
    ∃ job, ((JobQueueFacade.addJob true stack answers now jobName data options).run r).2.server
        = { r.server.put job with counter := r.server.counter + 1 } ∧
      job.opts = facadeOptions config options := by
  have hfree : r.server.duplicate { toJobOptions := options.getD {} } = none := by
    rw [Queue.duplicate, hr]
    rfl
  have hclient := run_addJob_of_answered options hanswer now jobName data
  have hfacade : JobQueueFacade.addJob true stack answers now jobName data options =
      tryCatch (Dlq.addJob answers now jobName data options) throw := rfl
  rw [hfacade, Async.run_tryCatch_of_ok hclient, Queue.add_eq_put hfree]
  refine ⟨_, rfl, ?_⟩
  rw [Queue.newJob, hr]
  rfl

end

/-! ## When the two agree -/

/-- How many jobs a removal policy keeps, all of them for none. -/
def kept (policy : OptionalField KeepJobs) : Option ℕ :=
  policy.toOption.bind fun policy =>
    match policy with
    | .remove true => some 0
    | .remove false => none
    | .keep count => some count

/-- BullMQ makes the same of the two options. -/
structure SameEnqueue (a b : JobsOptions) : Prop where
  jobId : a.customId = b.customId
  attempts : a.attempts.getD 0 = b.attempts.getD 0
  delay : a.delay.getD 0 = b.delay.getD 0
  priority : a.priority.getD 0 = b.priority.getD 0
  backoff : a.backoff.toOption = b.backoff.toOption
  removeOnComplete : kept a.removeOnComplete = kept b.removeOnComplete
  removeOnFail : a.removeOnFail.getD false = b.removeOnFail.getD false

/-- Options without jitter and repetition. -/
structure Plain (options : Option JobOptions) : Prop where
  jitter : (options.getD {}).jitter.toOption = none
  repeatConfig : (options.getD {}).repeatConfig.toOption = none

/-- The options leave nothing to the defaults of `JobQueue`: no idempotency key, attempts and
backoff mentioned in the queue's options or the job's, and a removal policy for completed jobs
mentioned in the job's options or given in the queue's. -/
structure Explicit (config : QueueConfig) (options : Option JobOptions) : Prop where
  idempotencyKey : (options.getD {}).idempotencyKey.toOption.filter (· ≠ "") = none
  attempts : (config.defaultJobOptions.getD {}).attempts ≠ .absent ∨
    (options.getD {}).attempts ≠ .absent
  backoff : (config.defaultJobOptions.getD {}).backoff ≠ .absent ∨
    (options.getD {}).backoff ≠ .absent
  removeOnComplete : (config.defaultJobOptions.getD {}).removeOnComplete.toOption ≠ none ∨
    (options.getD {}).removeOnComplete ≠ .absent

section

variable (config : QueueConfig) {options : Option JobOptions}

/-- The id a job gets is its idempotency key, unless that is empty. -/
theorem customId_buildJobOptions :
    (JobQueue.buildJobOptions config options).customId =
      (options.getD {}).idempotencyKey.toOption.filter (· ≠ "") := by
  unfold JobQueue.buildJobOptions
  dsimp only
  split
  · next key hkey =>
    rw [hkey]
    split
    · rfl
    · next hempty =>
      rw [Option.filter_some, if_neg (by simpa using hempty)]
      rfl
  · next hkey =>
    rw [hkey]
    rfl

variable (h : Plain options) (random : ℚ)
include h

/-- Without jitter the options are those of `buildJobOptions`. -/
theorem Plain.addJobOptions_eq :
    JobQueue.addJobOptions config random options = JobQueue.buildJobOptions config options := by
  simp only [JobQueue.addJobOptions, JobQueue.applyJitter, h.jitter, Option.getD_none, le_refl,
    if_true]

/-- The defaults of `JobQueue` are spread twice, to the same effect as once. -/
theorem Plain.toJobOptions_legacyOptions :
    (legacyOptions config random options).toJobOptions =
      (JobQueue.buildDefaultJobOptions config.defaultJobOptions).toJobOptions.spread
        (options.getD {}) := by
  rw [legacyOptions, h.addJobOptions_eq, JobsOptions.spread,
    JobQueue.toJobOptions_buildJobOptions]
  simp only [JobOptions.spread, OptionalField.override_override_self]

theorem Plain.customId_legacyOptions :
    (legacyOptions config random options).customId =
      (options.getD {}).idempotencyKey.toOption.filter (· ≠ "") := by
  rw [legacyOptions, h.addJobOptions_eq, ← customId_buildJobOptions config]
  have habsent (x : OptionalField String) : OptionalField.override .absent x = x := by
    cases x <;> rfl
  exact congrArg (fun x => x.toOption.filter (· ≠ "")) (habsent _)

/-- Attempts agree unless `JobQueue` fills in its own number. -/
theorem Plain.attempts_iff :
    (legacyOptions config random options).attempts.getD 0 =
        (facadeOptions config options).attempts.getD 0 ↔
      (config.defaultJobOptions.getD {}).attempts ≠ .absent ∨
        (options.getD {}).attempts ≠ .absent := by
  have hl := congrArg JobOptions.attempts (h.toJobOptions_legacyOptions config random)
  simp only [JobOptions.spread, JobQueue.buildDefaultJobOptions,
    OptionalField.override_value_getD] at hl
  rw [hl]
  exact OptionalField.read_override_override_iff (fun attempts => attempts.getD 0) (by decide)

/-- Backoffs agree unless `JobQueue` fills in its own strategy. -/
theorem Plain.backoff_iff :
    (legacyOptions config random options).backoff.toOption =
        (facadeOptions config options).backoff.toOption ↔
      (config.defaultJobOptions.getD {}).backoff ≠ .absent ∨
        (options.getD {}).backoff ≠ .absent := by
  have hl := congrArg JobOptions.backoff (h.toJobOptions_legacyOptions config random)
  simp only [JobOptions.spread, JobQueue.buildDefaultJobOptions,
    OptionalField.override_value_getD] at hl
  rw [hl]
  exact OptionalField.read_override_override_iff OptionalField.toOption (Option.some_ne_none _)

/-- Removal policies for completed jobs agree unless `JobQueue` fills in that none is kept. -/
theorem Plain.removeOnComplete_iff :
    kept (legacyOptions config random options).removeOnComplete =
        kept (facadeOptions config options).removeOnComplete ↔
      (config.defaultJobOptions.getD {}).removeOnComplete.toOption ≠ none ∨
        (options.getD {}).removeOnComplete ≠ .absent := by
  have hl := congrArg JobOptions.removeOnComplete (h.toJobOptions_legacyOptions config random)
  simp only [JobOptions.spread, JobQueue.buildDefaultJobOptions] at hl
  rw [hl]
  simp only [facadeOptions, JobOptions.spread]
  cases (options.getD {}).removeOnComplete with
  | undefined => simp [OptionalField.override]
  | value policy => simp
  | absent =>
    -- the policy of the queue decides; only a missing one becomes another
    cases (config.defaultJobOptions.getD {}).removeOnComplete with
    | absent => simp [OptionalField.getD, OptionalField.toOption, kept]
    | undefined => simp [OptionalField.getD, OptionalField.toOption, kept]
    | value policy => simp [OptionalField.getD]

/-- **A job is enqueued alike by `JobQueue` and by the facade exactly if its options leave nothing
to the defaults of `JobQueue` and give no idempotency key.** -/
theorem sameEnqueue_iff :
    SameEnqueue (legacyOptions config random options) (facadeOptions config options) ↔
      Explicit config options := by
  have hl := h.toJobOptions_legacyOptions config random
  have hid : (legacyOptions config random options).customId =
        (facadeOptions config options).customId ↔
      (options.getD {}).idempotencyKey.toOption.filter (· ≠ "") = none :=
    Eq.congr_left (h.customId_legacyOptions config random)
  constructor
  · intro hsame
    exact {
      idempotencyKey := hid.mp hsame.jobId
      attempts := (h.attempts_iff config random).mp hsame.attempts
      backoff := (h.backoff_iff config random).mp hsame.backoff
      removeOnComplete := (h.removeOnComplete_iff config random).mp hsame.removeOnComplete }
  · intro hexplicit
    exact {
      jobId := hid.mpr hexplicit.idempotencyKey
      attempts := (h.attempts_iff config random).mpr hexplicit.attempts
      delay := by
        rw [congrArg JobOptions.delay hl]
        simp only [JobOptions.spread, JobQueue.buildDefaultJobOptions,
          OptionalField.override_value_getD]
        exact OptionalField.getD_override_override _ _ _
      priority := by
        rw [congrArg JobOptions.priority hl]
        simp only [JobOptions.spread, JobQueue.buildDefaultJobOptions,
          OptionalField.override_value_getD]
        exact OptionalField.getD_override_override _ _ _
      backoff := (h.backoff_iff config random).mpr hexplicit.backoff
      removeOnComplete := (h.removeOnComplete_iff config random).mpr hexplicit.removeOnComplete
      removeOnFail := by
        rw [congrArg JobOptions.removeOnFail hl]
        exact OptionalField.getD_override_value_getD _ _ _ }

end

/-- A queue whose options say all that `JobQueue` would fill in. -/
def explicitConfig : QueueConfig where
  name := "mail"
  defaultJobOptions := some
    { attempts := .value 5
      backoff := .value { type := .fixed, delay := 500 }
      removeOnComplete := .value (.remove true) }

/-- A delayed job of such a queue. -/
theorem sameEnqueue_explicitConfig :
    SameEnqueue (legacyOptions explicitConfig 0 (some { delay := .value 100 }))
      (facadeOptions explicitConfig (some { delay := .value 100 })) :=
  (sameEnqueue_iff explicitConfig ⟨rfl, rfl⟩ 0).mpr {
    idempotencyKey := rfl
    attempts := .inl (by decide)
    backoff := .inl (by decide)
    removeOnComplete := .inl (by decide) }

/-- An idempotency key is dropped by the facade. -/
theorem not_sameEnqueue_of_key :
    ¬ ∀ (config : QueueConfig) (random : ℚ) (options : Option JobOptions), Plain options →
      SameEnqueue (legacyOptions config random options) (facadeOptions config options) := by
  intro hclaim
  have hsame := (hclaim explicitConfig 0 (some { idempotencyKey := .value "order-1" })
    ⟨rfl, rfl⟩).jobId
  revert hsame
  decide

end KitiumJobQueue.Facade
