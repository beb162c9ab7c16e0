import KitiumJobQueue.Foundations.OptionalField
import KitiumJobQueue.Foundations.Json

/-!
# Job options

The options record of `types.ts` (`JobOptions`) and the one BullMQ takes (`JobsOptions`), which has
a job id besides. Every property is optional in the sense of `OptionalField`: the compiler settings
of the project let a caller pass `undefined` explicitly, and a spread then tells the difference.
-/

namespace KitiumJobQueue

/-- `BackoffConfig.type` -/
inductive BackoffType
  | exponential
  | fixed
  deriving DecidableEq, Repr

/-- Backoff strategy configuration. -/
structure BackoffConfig where
  type : BackoffType
  delay : ℚ
  maxDelay : OptionalField ℚ := .absent
  deriving DecidableEq, Repr

/-- Job repeat configuration. -/
structure RepeatConfig where
  pattern : OptionalField String := .absent
  every : OptionalField ℚ := .absent
  limit : OptionalField ℚ := .absent
  immediately : OptionalField Bool := .absent
  deriving DecidableEq, Repr

/-- `boolean | number`: whether a completed job is removed, or how many of them are kept. -/
inductive KeepJobs
  | remove (b : Bool)
  | keep (count : ℕ)
  deriving DecidableEq, Repr

/-- Job configuration options (`JobOptions`). -/
structure JobOptions where
  attempts : OptionalField ℕ := .absent
  idempotencyKey : OptionalField String := .absent
  delay : OptionalField ℚ := .absent
  priority : OptionalField ℚ := .absent
  removeOnComplete : OptionalField KeepJobs := .absent
  removeOnFail : OptionalField Bool := .absent
  backoff : OptionalField BackoffConfig := .absent
  timeout : OptionalField ℚ := .absent
  metadata : OptionalField Json := .absent
  repeatConfig : OptionalField RepeatConfig := .absent
  jitter : OptionalField ℚ := .absent
  deriving DecidableEq

/-- `{ ...a, ...b }` -/
def JobOptions.spread (a b : JobOptions) : JobOptions where
  attempts := a.attempts.override b.attempts
  idempotencyKey := a.idempotencyKey.override b.idempotencyKey
  delay := a.delay.override b.delay
  priority := a.priority.override b.priority
  removeOnComplete := a.removeOnComplete.override b.removeOnComplete
  removeOnFail := a.removeOnFail.override b.removeOnFail
  backoff := a.backoff.override b.backoff
  timeout := a.timeout.override b.timeout
  metadata := a.metadata.override b.metadata
  repeatConfig := a.repeatConfig.override b.repeatConfig
  jitter := a.jitter.override b.jitter

namespace Bull

/-- The options BullMQ takes (`JobsOptions`). -/
structure JobsOptions extends JobOptions where
  jobId : OptionalField String := .absent
  deriving DecidableEq

/-- `{ ...a, ...b }` -/
def JobsOptions.spread (a b : JobsOptions) : JobsOptions where
  toJobOptions := a.toJobOptions.spread b.toJobOptions
  jobId := a.jobId.override b.jobId

/-- The custom job id: BullMQ takes an empty one for none. -/
def JobsOptions.customId (o : JobsOptions) : Option String :=
  o.jobId.toOption.filter (· ≠ "")

/-- A job id given with the job is its custom id, whatever the defaults. -/
theorem JobsOptions.customId_spread {a b : JobsOptions} {id : String} (h : b.jobId = .value id)
    (hid : id ≠ "") : (a.spread b).customId = some id := by
  rw [customId, spread, h, OptionalField.override_value, OptionalField.toOption_value,
    Option.filter_some, if_pos (decide_eq_true hid)]

end Bull

end KitiumJobQueue
