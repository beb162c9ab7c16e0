import KitiumJobQueue.JobQueue.Basic
import Mathlib.Tactic.Linarith

/-!
# The options of scheduled jobs

`scheduleJob` and `scheduleEvery` of `JobQueue.ts`, and the options with which they and `addJob`
enqueue. What BullMQ does with a job that repeats is a parameter.

Options are filled in where they are `undefined`, but then the options they were filled into are
spread over them, and the repeat options of the call are replaced. `layered_iff` says when the
result is nevertheless the option of the call, else that of the queue, else the built-in one, for
all three methods.
-/

namespace KitiumJobQueue.JobQueue

open Effects JavaScript Bull

/-! ## The methods -/

section

variable (config : QueueConfig) (random : ℚ) (options : Option JobOptions)

/-- The options `scheduleJob` adds a job with. -/
def scheduleJobOptions (cronPattern : String) : JobsOptions :=
  { buildJobOptions config options with
    repeatConfig := .value { pattern := .value cronPattern } }

/-- The options `scheduleEvery` adds a job with. -/
def scheduleEveryOptions (everyMs : ℚ) : JobsOptions :=
  let repeated := (options.getD {}).repeatConfig
  applyJitter random
    { buildJobOptions config options with
      repeatConfig := .value
        { every := .value everyMs
          immediately := .value ((repeated.field RepeatConfig.immediately).getD true) } }
    (options.getD {}).jitter.toOption

variable (addRepeatable : State → String → Json → JobsOptions → Job × State)
  (add : Answer Thrown) (jobName : String) (data : Json)

/-- Hand a job that repeats to `this.queue.add`, and say so. -/
def addRepeating (jobOptions : JobsOptions) : Async Thrown State String := do
  let job ← perform add fun s => addRepeatable s jobName data jobOptions
  emit .jobAdded (some job.id) none
  pure job.id

/-- `JobQueue.scheduleJob` -/
def scheduleJob (cronPattern : String) : Async Thrown State String :=
  addRepeating addRepeatable add jobName data (scheduleJobOptions config options cronPattern)

/-- `JobQueue.scheduleEvery` -/
def scheduleEvery (everyMs : ℚ) : Async Thrown State String :=
  addRepeating addRepeatable add jobName data (scheduleEveryOptions config random options everyMs)

/-- What becomes of the main queue. -/
theorem queue_addRepeating (jobOptions : JobsOptions) (s : State) :
    ((addRepeating addRepeatable add jobName data jobOptions).run s).2.queue =
      if add.TakesEffect then (addRepeatable s jobName data jobOptions).2.queue else s.queue := by
  unfold addRepeating
  rw [Async.Keeps.run_bind (f := State.queue)]
  · cases add with
    | answered => rfl
    | rejected e applied => cases applied <;> rfl
  · intro job
    exact .bind (keeps_queue_emit _ _ _) fun _ => .pure _

end

/-! ## What the options should be -/

/-- What jitter adds to a delay. -/
def Jittered (jitter added : ℚ) : Prop :=
  if 0 < jitter then 0 ≤ added ∧ added < jitter else added = 0

/-- Every option is that of the call, else that of the queue, else the built-in one. -/
structure Layered (config : QueueConfig) (options : Option JobOptions) (jitter : ℚ)
    (enqueued : JobsOptions) : Prop where
  attempts : enqueued.attempts.toOption = some
    ((options.getD {}).attempts.firstOf (config.defaultJobOptions.getD {}).attempts 3)
  delay : ∃ added, Jittered jitter added ∧ enqueued.delay.toOption = some
    ((options.getD {}).delay.firstOf (config.defaultJobOptions.getD {}).delay 0 + added)
  priority : enqueued.priority.toOption = some
    ((options.getD {}).priority.firstOf (config.defaultJobOptions.getD {}).priority 0)
  backoff : enqueued.backoff.toOption = some
    ((options.getD {}).backoff.firstOf (config.defaultJobOptions.getD {}).backoff
      { type := .exponential, delay := 1000 })
  timeout : enqueued.timeout.toOption = some
    ((options.getD {}).timeout.firstOf (config.defaultJobOptions.getD {}).timeout 30000)
  removeOnComplete : enqueued.removeOnComplete.toOption = some
    ((options.getD {}).removeOnComplete.firstOf
      (config.defaultJobOptions.getD {}).removeOnComplete (.remove true))
  removeOnFail : enqueued.removeOnFail.toOption = some
    ((options.getD {}).removeOnFail.firstOf (config.defaultJobOptions.getD {}).removeOnFail false)

/-- The limit of repetitions that some options give. -/
def repeatLimit (options : JobOptions) : Option ℚ :=
  (options.repeatConfig.field RepeatConfig.limit).toOption

/-- All three methods layer the options, and the two that schedule keep the limit of the call. -/
structure LayersOptions (config : QueueConfig) (options : Option JobOptions) : Prop where
  addJob : ∀ random, 0 ≤ random → random < 1 →
    Layered config options ((options.getD {}).jitter.getD 0) (addJobOptions config random options)
  scheduleJob : ∀ cronPattern,
    Layered config options 0 (scheduleJobOptions config options cronPattern)
  scheduleEvery : ∀ random everyMs, 0 ≤ random → random < 1 →
    Layered config options ((options.getD {}).jitter.getD 0)
      (scheduleEveryOptions config random options everyMs)
  limit : ∀ limit, repeatLimit (options.getD {}) = some limit →
    (∀ cronPattern,
      repeatLimit (scheduleJobOptions config options cronPattern).toJobOptions = some limit) ∧
    ∀ random everyMs,
      repeatLimit (scheduleEveryOptions config random options everyMs).toJobOptions = some limit

/-! ## When they are -/

/-- An option that is not `undefined` where it is looked for first. -/
def IsSettled {α : Type} (o d : OptionalField α) : Prop :=
  o ≠ .undefined ∧ (o = .absent → d ≠ .undefined)

/-- No option is passed as `undefined`; of the queue's options this matters where the call has none
and the queue's are spread over the built-in ones. And the call limits no repetition. -/
structure WellDefined (config : QueueConfig) (options : Option JobOptions) : Prop where
  attempts : IsSettled (options.getD {}).attempts (config.defaultJobOptions.getD {}).attempts
  delay : IsSettled (options.getD {}).delay (config.defaultJobOptions.getD {}).delay
  priority : IsSettled (options.getD {}).priority (config.defaultJobOptions.getD {}).priority
  backoff : IsSettled (options.getD {}).backoff (config.defaultJobOptions.getD {}).backoff
  timeout : IsSettled (options.getD {}).timeout (config.defaultJobOptions.getD {}).timeout
  removeOnComplete : (options.getD {}).removeOnComplete ≠ .undefined
  removeOnFail : (options.getD {}).removeOnFail ≠ .undefined
  limit : repeatLimit (options.getD {}) = none

theorem jittered_zero {added : ℚ} : Jittered 0 added ↔ added = 0 := by
  rw [Jittered, if_neg (lt_irrefl 0)]

/-- Without jitter nothing is added. -/
theorem exists_jittered_zero_iff {delay : Option ℚ} {d : ℚ} :
    (∃ added, Jittered 0 added ∧ delay = some (d + added)) ↔ delay = some d := by
  constructor
  · rintro ⟨added, hadded, hdelay⟩
    rwa [jittered_zero.mp hadded, add_zero] at hdelay
  · intro hdelay
    exact ⟨0, jittered_zero.mpr rfl, by rwa [add_zero]⟩

/-- An option that `buildDefaultJobOptions` fills in and spreads the queue's options over. -/
theorem settled_iff {α : Type} {enqueued o d : OptionalField α} {builtIn : α}
    (h : enqueued = ((OptionalField.value (d.getD builtIn)).override d).override o) :
    enqueued.toOption = some (o.firstOf d builtIn) ↔ IsSettled o d := by
  rw [h]
  exact OptionalField.toOption_override_override_iff

/-- An option that `buildDefaultJobOptions` fills in last. -/
theorem kept_iff {α : Type} {enqueued o d : OptionalField α} {builtIn : α}
    (h : enqueued = (OptionalField.value (d.getD builtIn)).override o) :
    enqueued.toOption = some (o.firstOf d builtIn) ↔ o ≠ .undefined := by
  rw [h]
  exact OptionalField.toOption_value_getD_override_iff

/-- `Math.floor(Math.random() * jitter)` is what jitter may add. -/
theorem jittered_floor {random jitter : ℚ} (h₀ : 0 ≤ random) (h₁ : random < 1)
    (hjitter : 0 < jitter) : Jittered jitter ⌊random * jitter⌋ := by
  rw [Jittered, if_pos hjitter]
  have hfloor : (⌊random * jitter⌋ : ℚ) ≤ random * jitter := Int.floor_le _
  have hlt : random * jitter < jitter := mul_lt_of_lt_one_left hjitter h₁
  exact ⟨by exact_mod_cast Int.floor_nonneg.mpr (mul_nonneg h₀ hjitter.le), by linarith⟩

section

variable {config : QueueConfig} {options : Option JobOptions}

/-- The options of `buildJobOptions` are layered, whatever is to be repeated, exactly if nothing is
`undefined` that counts. -/
theorem layered_buildJobOptions_iff (repeated : OptionalField RepeatConfig) :
    Layered config options 0
        { buildJobOptions config options with repeatConfig := repeated } ∧
      repeatLimit (options.getD {}) = none ↔ WellDefined config options := by
  have hbase := toJobOptions_buildJobOptions config options
  have hattempts := settled_iff (congrArg JobOptions.attempts hbase)
  have hdelay := settled_iff (congrArg JobOptions.delay hbase)
  have hpriority := settled_iff (congrArg JobOptions.priority hbase)
  have hbackoff := settled_iff (congrArg JobOptions.backoff hbase)
  have htimeout := settled_iff (congrArg JobOptions.timeout hbase)
  have hcomplete := kept_iff (congrArg JobOptions.removeOnComplete hbase)
  have hfail := kept_iff (congrArg JobOptions.removeOnFail hbase)
  constructor
  · rintro ⟨h, hlimit⟩
    exact
      { attempts := hattempts.mp h.attempts
        delay := hdelay.mp (exists_jittered_zero_iff.mp h.delay)
        priority := hpriority.mp h.priority
        backoff := hbackoff.mp h.backoff
        timeout := htimeout.mp h.timeout
        removeOnComplete := hcomplete.mp h.removeOnComplete
        removeOnFail := hfail.mp h.removeOnFail
        limit := hlimit }
  · intro h
    refine ⟨?_, h.limit⟩
    exact
      { attempts := hattempts.mpr h.attempts
        delay := exists_jittered_zero_iff.mpr (hdelay.mpr h.delay)
        priority := hpriority.mpr h.priority
        backoff := hbackoff.mpr h.backoff
        timeout := htimeout.mpr h.timeout
        removeOnComplete := hcomplete.mpr h.removeOnComplete
        removeOnFail := hfail.mpr h.removeOnFail }

/-- Jitter adds what it may to a delay that is as it should be, and changes nothing else. -/
theorem Layered.applyJitter {enqueued : JobsOptions} (h : Layered config options 0 enqueued)
    {random : ℚ} (h₀ : 0 ≤ random) (h₁ : random < 1) (jitterMs : OptionalField ℚ) :
    Layered config options (jitterMs.getD 0)
      (JobQueue.applyJitter random enqueued jitterMs.toOption) := by
  have hdelay := exists_jittered_zero_iff.mp h.delay
  change Layered config options (jitterMs.getD 0)
    (if jitterMs.getD 0 ≤ 0 then enqueued
      else { enqueued with
        delay := .value (enqueued.delay.getD 0 + ⌊random * jitterMs.getD 0⌋) })
  by_cases hjitter : jitterMs.getD 0 ≤ 0
  · rw [if_pos hjitter]
    refine { h with delay := ⟨0, ?_, by rw [hdelay, add_zero]⟩ }
    rw [Jittered, if_neg (not_lt.mpr hjitter)]
  · rw [if_neg hjitter]
    refine
      { h with delay := ⟨_, jittered_floor h₀ h₁ (not_le.mp hjitter), ?_⟩ }
    rw [OptionalField.getD, hdelay]
    rfl

/-- **When the options are layered.** The options a job is enqueued with are, one by one, those of
the call, else those of the queue, else the built-in ones, and a limit of repetitions is kept,
exactly if no option is passed as `undefined` where a default is expected and no limit is given. -/
theorem layersOptions_iff (config : QueueConfig) (options : Option JobOptions) :
    LayersOptions config options ↔ WellDefined config options := by
  constructor
  · intro h
    refine (layered_buildJobOptions_iff _).mp ⟨h.scheduleJob "", ?_⟩
    cases hlimit : repeatLimit (options.getD {}) with
    | none => rfl
    | some limit =>
      have hkept := (h.limit limit hlimit).1 ""
      cases hkept
  · intro h
    have hlayered (repeated : OptionalField RepeatConfig) :=
      ((layered_buildJobOptions_iff repeated).mpr h).1
    exact
      { addJob := fun random h₀ h₁ =>
          (hlayered (buildJobOptions config options).repeatConfig).applyJitter h₀ h₁ _
        scheduleJob := fun cronPattern => hlayered _
        scheduleEvery := fun random everyMs h₀ h₁ => (hlayered _).applyJitter h₀ h₁ _
        limit := fun limit hlimit => by
          rw [h.limit] at hlimit
          cases hlimit }

end

/-- A queue whose jobs are to have five attempts. -/
def fiveAttempts : QueueConfig where
  name := "mail"
  defaultJobOptions := some { attempts := .value 5 }

/-- A caller that passes on a number of attempts it was not given takes away the five. -/
theorem not_layersOptions_undefined :
    ¬ LayersOptions fiveAttempts (some { attempts := .undefined }) := fun h =>
  ((layersOptions_iff _ _).mp h).attempts.1 rfl

end KitiumJobQueue.JobQueue
