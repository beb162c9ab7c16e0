import KitiumJobQueue.Config
import Mathlib.Algebra.Order.Floor.Ring
import Mathlib.Data.Rat.Floor

/-!
# The options a job is added with

`buildDefaultJobOptions`, `buildJobOptions` and `applyJitter` of `JobQueue.ts`.
-/

namespace KitiumJobQueue.JobQueue

open Bull

/-- `JobQueue.buildDefaultJobOptions` -/
def buildDefaultJobOptions (options : Option JobOptions) : JobsOptions :=
  let options := options.getD {}
  let removeOnComplete := options.removeOnComplete.getD (.remove true)
  let shouldRemoveOnFail := options.removeOnFail.getD false
  let defaults : JobOptions :=
    { attempts := .value (options.attempts.getD 3)
      delay := .value (options.delay.getD 0)
      priority := .value (options.priority.getD 0)
      backoff := .value (options.backoff.getD { type := .exponential, delay := 1000 })
      timeout := .value (options.timeout.getD 30000) }
  { defaults.spread options with
    removeOnComplete := .value removeOnComplete
    removeOnFail := .value shouldRemoveOnFail }

/-- `JobQueue.buildJobOptions`; an empty idempotency key counts as none. -/
def buildJobOptions (config : QueueConfig) (options : Option JobOptions) : JobsOptions :=
  let baseOptions := buildDefaultJobOptions config.defaultJobOptions
  let jobOptions := baseOptions.spread { toJobOptions := options.getD {} }
  match (options.getD {}).idempotencyKey.toOption with
  | some key => if key ≠ "" then { jobOptions with jobId := .value key } else jobOptions
  | none => jobOptions

/-- `JobQueue.applyJitter`; `random` is what `Math.random()` returns. -/
def applyJitter (random : ℚ) (jobOptions : JobsOptions) (jitterMs : Option ℚ) : JobsOptions :=
  let jitter := jitterMs.getD 0
  if jitter ≤ 0 then jobOptions
  else { jobOptions with delay := .value (jobOptions.delay.getD 0 + ⌊random * jitter⌋) }

/-- Without the job id, the options are the defaults with those of the call spread over them. -/
theorem toJobOptions_buildJobOptions (config : QueueConfig) (options : Option JobOptions) :
    (buildJobOptions config options).toJobOptions =
      (buildDefaultJobOptions config.defaultJobOptions).toJobOptions.spread (options.getD {}) := by
  unfold buildJobOptions
  dsimp only
  split
  · split
    · rfl
    · rfl
  · rfl

/-! ## The job id -/

/-- An idempotency key becomes the job id. -/
theorem buildJobOptions_jobId_of_key (config : QueueConfig) {options : Option JobOptions}
    {key : String} (h : (options.getD {}).idempotencyKey.toOption = some key) (hkey : key ≠ "") :
    (buildJobOptions config options).jobId = .value key := by
  simp only [buildJobOptions, h, if_pos hkey]

@[simp] theorem applyJitter_jobId (random : ℚ) (jobOptions : JobsOptions) (jitterMs : Option ℚ) :
    (applyJitter random jobOptions jitterMs).jobId = jobOptions.jobId := by
  simp only [applyJitter]
  split
  · rfl
  · rfl

end KitiumJobQueue.JobQueue
