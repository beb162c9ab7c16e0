import KitiumJobQueue.Configuration.Loader

/-!
# The bounds of a loaded configuration

The checks of the validator say which values are too small or too large. A value that is no number
is neither, so a configuration that passes is within the bounds exactly if all its numbers are
numbers (`inBounds_iff_of_accepted`), and for a configuration read from the environment that depends
on the texts of the variables (`bounded_iff`).
-/

namespace KitiumJobQueue.Configuration

open JavaScript

variable {V : Type}

/-! ## The numbers of a configuration -/

/-- The numeric fields of a configuration, as far as they are present. -/
@[ext] structure Numerics where
  port : Option Number
  db : Option Number
  connectTimeout : Option Number
  maxAttempts : Option Number
  backoffDelay : Option Number
  maxBackoffDelay : Option Number
  maxRetries : Option Number
  concurrency : Option Number
  limiterMax : Option Number
  limiterDuration : Option Number

/-- The numeric fields. -/
def QueueConfig.numerics (config : QueueConfig V) : Numerics where
  port := (config.redis.field RedisConfig.port).toOption
  db := (config.redis.field RedisConfig.db).toOption
  connectTimeout := (config.redis.field RedisConfig.connectTimeout).toOption
  maxAttempts := (config.retry.field RetryConfig.maxAttempts).toOption
  backoffDelay := (config.retry.field RetryConfig.backoffDelay).toOption
  maxBackoffDelay := (config.retry.field RetryConfig.maxBackoffDelay).toOption
  maxRetries := (config.dlq.field DLQConfig.maxRetries).toOption
  concurrency := (config.worker.field WorkerConfig.concurrency).toOption
  limiterMax := (config.worker.field WorkerConfig.limiter).toOption.map Limiter.max
  limiterDuration := (config.worker.field WorkerConfig.limiter).toOption.map Limiter.duration

namespace Numerics

/-- All of them. -/
def toList (n : Numerics) : List Number :=
  n.port.toList ++ n.db.toList ++ n.connectTimeout.toList ++ n.maxAttempts.toList ++
    n.backoffDelay.toList ++ n.maxBackoffDelay.toList ++ n.maxRetries.toList ++
    n.concurrency.toList ++ n.limiterMax.toList ++ n.limiterDuration.toList

/-- Each of them is a number within the bounds of the validator. -/
structure InBounds (n : Numerics) : Prop where
  port : ∀ port ∈ n.port, Number.le 0 port = true ∧ port.le 65535 = true
  db : ∀ db ∈ n.db, Number.le 0 db = true ∧ db.le 15 = true
  connectTimeout : ∀ timeout ∈ n.connectTimeout, Number.lt 0 timeout = true
  maxAttempts : ∀ attempts ∈ n.maxAttempts, Number.lt 0 attempts = true
  backoffDelay : ∀ delay ∈ n.backoffDelay, Number.le 0 delay = true
  maxBackoffDelay : ∀ maxDelay ∈ n.maxBackoffDelay, Number.le 0 maxDelay = true
  backoff : ∀ delay ∈ n.backoffDelay, ∀ maxDelay ∈ n.maxBackoffDelay, delay.le maxDelay = true
  maxRetries : ∀ retries ∈ n.maxRetries, Number.le 0 retries = true
  concurrency : ∀ concurrency ∈ n.concurrency, Number.lt 0 concurrency = true
  limiterMax : ∀ max ∈ n.limiterMax, Number.lt 0 max = true
  limiterDuration : ∀ duration ∈ n.limiterDuration, Number.lt 0 duration = true

/-- One of them is too small or too large. -/
def outOfRange (n : Numerics) : Bool :=
  n.port.any (fun port => port.lt 0 || Number.lt 65535 port) ||
  n.db.any (fun db => db.lt 0 || Number.lt 15 db) ||
  n.connectTimeout.any (fun timeout => timeout.le 0) ||
  n.maxAttempts.any (fun attempts => attempts.le 0) ||
  n.backoffDelay.any (fun delay => delay.lt 0) ||
  n.maxBackoffDelay.any (fun delay => delay.lt 0) ||
  n.backoffDelay.any (fun delay => n.maxBackoffDelay.any fun maxDelay => maxDelay.lt delay) ||
  n.maxRetries.any (fun retries => retries.lt 0) ||
  n.concurrency.any (fun concurrency => concurrency.le 0) ||
  n.limiterMax.any (fun max => max.le 0) ||
  n.limiterDuration.any (fun duration => duration.le 0)

theorem any_eq_false {x : Option Number} {p : Number → Bool} :
    x.any p = false ↔ ∀ a ∈ x, p a = false := by
  cases x with
  | none => simp
  | some a => simp

/-- A value that is not below zero is at least zero if it is a number. -/
theorem nonneg_iff {x : Option Number} (h : ∀ a ∈ x, a.lt 0 = false) :
    (∀ a ∈ x, Number.le 0 a = true) ↔ ∀ a ∈ x, a ≠ .nan := by
  have hzero : (0 : Number) ≠ .nan := by decide
  exact forall₂_congr fun a ha => (Number.le_iff_of_not_lt (h a ha)).trans (and_iff_right hzero)

/-- A value that is not at most zero is above zero if it is a number. -/
theorem pos_iff {x : Option Number} (h : ∀ a ∈ x, a.le 0 = false) :
    (∀ a ∈ x, Number.lt 0 a = true) ↔ ∀ a ∈ x, a ≠ .nan := by
  have hzero : (0 : Number) ≠ .nan := by decide
  exact forall₂_congr fun a ha => Number.lt_iff_of_not_le (h a ha) hzero

/-- A value that is neither below zero nor above `top` is between them if it is a number. -/
theorem between_iff {x : Option Number} {top : Number} (htop : top ≠ .nan)
    (h : ∀ a ∈ x, a.lt 0 = false ∧ top.lt a = false) :
    (∀ a ∈ x, Number.le 0 a = true ∧ a.le top = true) ↔ ∀ a ∈ x, a ≠ .nan := by
  have hzero : (0 : Number) ≠ .nan := by decide
  refine forall₂_congr fun a ha => ?_
  rw [Number.le_iff_of_not_lt (h a ha).1, Number.le_iff_of_not_lt (h a ha).2]
  tauto

/-- Numbers that are neither too small nor too large are within the bounds if they are numbers. -/
theorem inBounds_iff {n : Numerics} (h : n.outOfRange = false) :
    n.InBounds ↔ ∀ x ∈ n.toList, x ≠ .nan := by
  simp only [outOfRange, Bool.or_eq_false_iff, any_eq_false] at h
  obtain ⟨⟨⟨⟨⟨⟨⟨⟨⟨⟨hport, hdb⟩, htimeout⟩, hattempts⟩, hdelay⟩, hmaxDelay⟩, hbackoff⟩, hretries⟩,
    hconcurrency⟩, hmax⟩, hduration⟩ := h
  have hports : (65535 : Number) ≠ .nan := by decide
  have hdbs : (15 : Number) ≠ .nan := by decide
  simp only [toList, List.mem_append, Option.mem_toList, or_imp, forall_and]
  constructor
  · intro hin
    exact ⟨⟨⟨⟨⟨⟨⟨⟨⟨(between_iff hports hport).mp hin.port, (between_iff hdbs hdb).mp hin.db⟩,
      (pos_iff htimeout).mp hin.connectTimeout⟩, (pos_iff hattempts).mp hin.maxAttempts⟩,
      (nonneg_iff hdelay).mp hin.backoffDelay⟩, (nonneg_iff hmaxDelay).mp hin.maxBackoffDelay⟩,
      (nonneg_iff hretries).mp hin.maxRetries⟩, (pos_iff hconcurrency).mp hin.concurrency⟩,
      (pos_iff hmax).mp hin.limiterMax⟩, (pos_iff hduration).mp hin.limiterDuration⟩
  · rintro ⟨⟨⟨⟨⟨⟨⟨⟨⟨nport, ndb⟩, ntimeout⟩, nattempts⟩, ndelay⟩, nmaxDelay⟩, nretries⟩,
      nconcurrency⟩, nmax⟩, nduration⟩
    exact
      { port := (between_iff hports hport).mpr nport
        db := (between_iff hdbs hdb).mpr ndb
        connectTimeout := (pos_iff htimeout).mpr ntimeout
        maxAttempts := (pos_iff hattempts).mpr nattempts
        backoffDelay := (nonneg_iff hdelay).mpr ndelay
        maxBackoffDelay := (nonneg_iff hmaxDelay).mpr nmaxDelay
        backoff := fun x hx y hy =>
          (Number.le_iff_of_not_lt (hbackoff x hx y hy)).mpr ⟨ndelay x hx, nmaxDelay y hy⟩
        maxRetries := (nonneg_iff hretries).mpr nretries
        concurrency := (pos_iff hconcurrency).mpr nconcurrency
        limiterMax := (pos_iff hmax).mpr nmax
        limiterDuration := (pos_iff hduration).mpr nduration }

end Numerics

/-! ## What the validator accepts -/

theorem check_eq_ok {bad : Bool} {code message : String} :
    check bad code message = .ok () ↔ bad = false := by
  cases bad <;> simp [check]

theorem bind_eq_ok {m : Except JsError Unit} {k : Unit → Except JsError Unit} :
    (m >>= k) = .ok () ↔ m = .ok () ∧ k () = .ok () := by
  cases m with
  | error e => simp [bind, Except.bind]
  | ok u => simp [bind, Except.bind]

theorem whenDefined_eq_ok {ρ : Type} {x : OptionalField ρ} {f : ρ → Except JsError Unit} :
    whenDefined x f = .ok () ↔ ∀ r ∈ x.toOption, f r = .ok () := by
  cases x with
  | absent | undefined => simp [whenDefined, OptionalField.toOption]
  | value r => simp [whenDefined]

theorem any_field {ρ α : Type} {x : OptionalField ρ} {f : ρ → OptionalField α} {p : α → Bool} :
    (x.field f).toOption.any p = false ↔ ∀ r ∈ x.toOption, (f r).toOption.any p = false := by
  cases x with
  | absent | undefined => simp [OptionalField.field, OptionalField.toOption]
  | value r => simp [OptionalField.field]

/-- The backoff type, where there is a retry configuration, is one of the two. -/
def QueueConfig.hasBackoffType (config : QueueConfig V) : Prop :=
  ∀ retry ∈ config.retry.toOption,
    retry.backoffType.toOption.any (fun type => type ∈ ["exponential", "fixed"]) = true

/-- The notification handler is a function, where it matters. -/
def QueueConfig.hasHandler (config : QueueConfig V) : Prop :=
  ∀ dlq ∈ config.dlq.toOption,
    (dlq.enabled.getD false && defined dlq.notificationHandler Handler.isNoFunction) = false

theorem hasBackoffType_iff {config : QueueConfig V} {type : String}
    (h : (config.retry.field RetryConfig.backoffType).toOption = some type) :
    config.hasBackoffType ↔ type ∈ ["exponential", "fixed"] := by
  unfold QueueConfig.hasBackoffType
  cases hretry : config.retry with
  | absent | undefined =>
    rw [hretry] at h
    exact absurd h (by simp [OptionalField.field, OptionalField.toOption])
  | value retry =>
    rw [hretry] at h
    have htype : retry.backoffType.toOption = some type := h
    simp [htype]

theorem hasHandler_of_eq_none {config : QueueConfig V}
    (h : (config.dlq.field DLQConfig.notificationHandler).toOption = none) :
    config.hasHandler := by
  intro dlq hdlq
  cases hfield : config.dlq with
  | absent | undefined => simp [hfield, OptionalField.toOption] at hdlq
  | value d =>
    obtain rfl : d = dlq := by simpa [hfield] using hdlq
    rw [hfield] at h
    have hhandler : d.notificationHandler.toOption = none := h
    simp [defined, hhandler]

/-- **What the validator accepts.** -/
theorem validate_eq_ok_iff {config : QueueConfig V} :
    validate config = .ok () ↔ config.name.toOption.all isBlank = false ∧
      config.numerics.outOfRange = false ∧ config.hasBackoffType ∧ config.hasHandler := by
  have hbackoff : (config.numerics.backoffDelay.any fun delay =>
      config.numerics.maxBackoffDelay.any fun maxDelay => maxDelay.lt delay) = false ↔
      ∀ retry ∈ config.retry.toOption, (retry.backoffDelay.toOption.any fun delay =>
        retry.maxBackoffDelay.toOption.any fun maxDelay => maxDelay.lt delay) = false := by
    unfold QueueConfig.numerics
    cases config.retry with
    | absent | undefined => simp [OptionalField.field, OptionalField.toOption]
    | value retry => simp [OptionalField.field]
  rw [Numerics.outOfRange]
  simp only [validate, validateRedisConfig, validateRetryConfig, validateRetryBackoffType,
    validateDLQConfig, validateWorkerConfig, bind_eq_ok, check_eq_ok, whenDefined_eq_ok,
    Bool.or_eq_false_iff, hbackoff]
  simp only [QueueConfig.numerics, Option.any_map, any_field, QueueConfig.hasBackoffType,
    QueueConfig.hasHandler, forall_and, defined, Bool.not_eq_false']
  constructor
  · rintro ⟨hname, ⟨hport, hdb, htimeout⟩, ⟨hattempts, hdelay, hmaxDelay, hdelays, htype⟩,
      ⟨hhandler, hretries⟩, hconcurrency, hmax, hduration⟩
    exact ⟨hname, ⟨⟨⟨⟨⟨⟨⟨⟨⟨⟨hport, hdb⟩, htimeout⟩, hattempts⟩, hdelay⟩, hmaxDelay⟩, hdelays⟩,
      hretries⟩, hconcurrency⟩, hmax⟩, hduration⟩, htype, hhandler⟩
  · rintro ⟨hname, ⟨⟨⟨⟨⟨⟨⟨⟨⟨⟨hport, hdb⟩, htimeout⟩, hattempts⟩, hdelay⟩, hmaxDelay⟩, hdelays⟩,
      hretries⟩, hconcurrency⟩, hmax⟩, hduration⟩, htype, hhandler⟩
    exact ⟨hname, ⟨hport, hdb, htimeout⟩, ⟨hattempts, hdelay, hmaxDelay, hdelays, htype⟩,
      ⟨hhandler, hretries⟩, hconcurrency, hmax, hduration⟩

/-- `loadConfiguration` returns what it has merged, if the validator accepts it. -/
theorem loadConfiguration_eq_ok_iff {config : Option (QueueConfig V)} {loaded : QueueConfig V} :
    loadConfiguration config = .ok loaded ↔
      validate (merged config) = .ok () ∧ merged config = loaded := by
  unfold loadConfiguration
  cases validate (merged config) with
  | error e => simp [bind, Except.bind]
  | ok u => simp [bind, Except.bind, pure, Except.pure]

/-! ## Configurations from the environment -/

section Environment

variable (env : Environment)

/-- The numbers that the variables and the defaults give. -/
def envNumerics : Numerics where
  port := some ((number? env "REDIS_PORT").getD 6379)
  db := some ((number? env "REDIS_DB").getD 0)
  connectTimeout := some ((number? env "REDIS_CONNECT_TIMEOUT").getD 10000)
  maxAttempts := some (numberOr env "RETRY_MAX_ATTEMPTS" "3")
  backoffDelay := some (numberOr env "RETRY_BACKOFF_DELAY" "1000")
  maxBackoffDelay :=
    if hasRetryEnvironment env then number? env "RETRY_MAX_BACKOFF_DELAY" else some 60000
  maxRetries := if (env "DLQ_ENABLED").isSome then number? env "DLQ_MAX_RETRIES" else none
  concurrency := some ((number? env "WORKER_CONCURRENCY").getD 5)
  limiterMax := number? env "WORKER_LIMITER_MAX"
  limiterDuration :=
    (number? env "WORKER_LIMITER_MAX").map fun _ => numberOr env "WORKER_LIMITER_DURATION" "1000"

/-- The variables give a configuration that is refused: a blank name, an unknown backoff type, or a
number that is too small or too large. -/
def Refused : Prop :=
  isBlank ((truthy env "QUEUE_NAME").getD "default-queue") = true ∨
    (env "RETRY_BACKOFF_TYPE").getD "exponential" ∉ ["exponential", "fixed"] ∨
    (envNumerics env).outOfRange = true

instance : Decidable (Refused env) := inferInstanceAs (Decidable (_ ∨ _ ∨ _))

/-- Loading the configuration of the environment throws, or gives one whose numbers are all numbers
within the bounds. -/
def Bounded (V : Type) : Prop :=
  ∀ config : QueueConfig V,
    loadConfiguration (some (loadFromEnvironment env)) = .ok config → config.numerics.InBounds

variable {env}

theorem parseInt_3 : parseInt "3" = 3 := by decide +kernel

theorem parseInt_1000 : parseInt "1000" = 1000 := by decide +kernel

theorem number?_eq_none {key : String} (h : env key = none) : number? env key = none := by
  simp [number?, truthy, h]

/-- Where no variable of the group is set, none of its numbers is. -/
theorem redis_unset (h : ¬ (redisEnvironmentKeys.any fun key => (env key).isSome) = true)
    {key : String} (hkey : key ∈ redisEnvironmentKeys) : env key = none := by
  simp only [List.any_eq_true, not_exists, not_and, Bool.not_eq_true,
    Option.isSome_eq_false_iff, Option.isNone_iff_eq_none] at h
  exact h key hkey

theorem retry_unset (h : ¬ hasRetryEnvironment env = true) :
    env "RETRY_MAX_ATTEMPTS" = none ∧ env "RETRY_BACKOFF_TYPE" = none ∧
      env "RETRY_BACKOFF_DELAY" = none ∧ env "RETRY_MAX_BACKOFF_DELAY" = none := by
  simpa [hasRetryEnvironment, and_assoc] using h

theorem worker_unset (h : ¬ ((env "WORKER_CONCURRENCY").isSome ||
    (env "WORKER_LIMITER_MAX").isSome) = true) :
    env "WORKER_CONCURRENCY" = none ∧ env "WORKER_LIMITER_MAX" = none := by
  simpa using h

/-- The numbers of the Redis configuration are the variables', or the defaults. -/
theorem merged_redis (env : Environment) :
    let redis := (merged (some (loadFromEnvironment env : QueueConfig V))).redis
    (redis.field RedisConfig.port).toOption = some ((number? env "REDIS_PORT").getD 6379) ∧
      (redis.field RedisConfig.db).toOption = some ((number? env "REDIS_DB").getD 0) ∧
      (redis.field RedisConfig.connectTimeout).toOption =
        some ((number? env "REDIS_CONNECT_TIMEOUT").getD 10000) := by
  intro redis
  have hredis : redis = mergeNested RedisConfig.spread {} getDefaultConfig.redis
      (redisConfigFromEnv env) := rfl
  rw [hredis]
  unfold redisConfigFromEnv
  split
  · exact ⟨OptionalField.toOption_override_ofOption 6379 _,
      OptionalField.toOption_override_ofOption 0 _,
      OptionalField.toOption_override_ofOption 10000 _⟩
  · next h =>
    rw [number?_eq_none (redis_unset h (by decide)), number?_eq_none (redis_unset h (by decide)),
      number?_eq_none (redis_unset h (by decide))]
    exact ⟨rfl, rfl, rfl⟩

/-- Those of the retry configuration; as soon as one of its variables is set, the longest delay has
no default. -/
theorem merged_retry (env : Environment) :
    let retry := (merged (some (loadFromEnvironment env : QueueConfig V))).retry
    (retry.field RetryConfig.maxAttempts).toOption =
        some (numberOr env "RETRY_MAX_ATTEMPTS" "3") ∧
      (retry.field RetryConfig.backoffType).toOption =
        some ((env "RETRY_BACKOFF_TYPE").getD "exponential") ∧
      (retry.field RetryConfig.backoffDelay).toOption =
        some (numberOr env "RETRY_BACKOFF_DELAY" "1000") ∧
      (retry.field RetryConfig.maxBackoffDelay).toOption =
        if hasRetryEnvironment env then number? env "RETRY_MAX_BACKOFF_DELAY" else some 60000 := by
  intro retry
  have hretry : retry = mergeNested RetryConfig.spread {} getDefaultConfig.retry
      (retryConfigFromEnv env) := rfl
  rw [hretry]
  unfold retryConfigFromEnv
  split
  · refine ⟨rfl, rfl, rfl, ?_⟩
    cases number? env "RETRY_MAX_BACKOFF_DELAY" <;> rfl
  · next h =>
    obtain ⟨hattempts, htype, hdelay, -⟩ := retry_unset h
    simp only [numberOr, hattempts, htype, hdelay, Option.getD_none, parseInt_3, parseInt_1000]
    exact ⟨rfl, rfl, rfl, rfl⟩

theorem merged_dlq (env : Environment) :
    ((merged (some (loadFromEnvironment env : QueueConfig V))).dlq.field
      DLQConfig.maxRetries).toOption =
      if (env "DLQ_ENABLED").isSome then number? env "DLQ_MAX_RETRIES" else none := by
  change ((mergeNested DLQConfig.spread {} _ (dlqConfigFromEnv env)).field
    DLQConfig.maxRetries).toOption = _
  unfold dlqConfigFromEnv
  split
  · cases number? env "DLQ_MAX_RETRIES" <;> rfl
  · rfl

theorem merged_worker (env : Environment) :
    let worker := (merged (some (loadFromEnvironment env : QueueConfig V))).worker
    (worker.field WorkerConfig.concurrency).toOption =
        some ((number? env "WORKER_CONCURRENCY").getD 5) ∧
      (worker.field WorkerConfig.limiter).toOption = (limiterFromEnv env).toOption := by
  intro worker
  have hworker : worker = mergeNested WorkerConfig.spread {} getDefaultConfig.worker
      (workerConfigFromEnv env) := rfl
  rw [hworker]
  unfold workerConfigFromEnv limiterFromEnv
  split
  · refine ⟨OptionalField.toOption_override_ofOption 5 _, ?_⟩
    cases number? env "WORKER_LIMITER_MAX" <;> rfl
  · next h =>
    obtain ⟨hconcurrency, hmax⟩ := worker_unset h
    rw [number?_eq_none hconcurrency, number?_eq_none hmax]
    exact ⟨rfl, rfl⟩

/-- The numbers of the merged configuration are those of the environment. -/
theorem numerics_merged (env : Environment) :
    (merged (some (loadFromEnvironment env : QueueConfig V))).numerics = envNumerics env := by
  obtain ⟨hport, hdb, htimeout⟩ := merged_redis (V := V) env
  obtain ⟨hattempts, -, hdelay, hmaxDelay⟩ := merged_retry (V := V) env
  obtain ⟨hconcurrency, hlimiter⟩ := merged_worker (V := V) env
  have hretries := merged_dlq (V := V) env
  rw [QueueConfig.numerics, hport, hdb, htimeout, hattempts, hdelay, hmaxDelay, hconcurrency,
    hlimiter, hretries, limiterFromEnv, OptionalField.toOption_ofOption, Option.map_map,
    Option.map_map]
  rw [envNumerics]
  congr 1
  exact Option.map_id_fun' ▸ rfl

/-- The validator refuses exactly the environments that `Refused` describes. -/
theorem validate_merged_iff (env : Environment) :
    validate (merged (some (loadFromEnvironment env : QueueConfig V))) = .ok () ↔
      ¬ Refused env := by
  have hname : (merged (some (loadFromEnvironment env : QueueConfig V))).name.toOption =
      some ((truthy env "QUEUE_NAME").getD "default-queue") := by
    change ((OptionalField.value "default-queue").assign (queueNameFromEnv env)).toOption = _
    unfold queueNameFromEnv
    cases truthy env "QUEUE_NAME" <;> rfl
  have hhandler : (merged (some (loadFromEnvironment env : QueueConfig V))).hasHandler := by
    refine hasHandler_of_eq_none ?_
    change ((mergeNested DLQConfig.spread {} _ (dlqConfigFromEnv env)).field
      DLQConfig.notificationHandler).toOption = none
    unfold dlqConfigFromEnv
    split
    · rfl
    · rfl
  rw [validate_eq_ok_iff, numerics_merged, hname, Option.all_some,
    hasBackoffType_iff (merged_retry env).2.1, Refused]
  simp only [hhandler, and_true, not_or, not_not, Bool.not_eq_true]
  tauto

/-- **Loading the configuration of the environment throws or gives numbers within the bounds
exactly if the environment is refused or no number read from it is `NaN`.** -/
theorem bounded_iff {env : Environment} :
    Bounded env V ↔ Refused env ∨ ∀ x ∈ (envNumerics env).toList, x ≠ .nan := by
  unfold Bounded
  simp only [loadConfiguration_eq_ok_iff, validate_merged_iff]
  by_cases hrefused : Refused env
  · exact iff_of_true (fun config h => absurd hrefused h.1) (.inl hrefused)
  · have hrange : (envNumerics env).outOfRange = false := by
      rw [← Bool.not_eq_true]
      exact fun h => hrefused (.inr (.inr h))
    rw [or_iff_right hrefused, ← Numerics.inBounds_iff hrange, ← numerics_merged (V := V) env]
    constructor
    · exact fun h => h _ ⟨hrefused, rfl⟩
    · rintro h config ⟨-, rfl⟩
      exact h

/-- An environment that sets one variable. -/
def setOnly (key text : String) : Environment := fun k => if k = key then some text else none

/-- A text that is no number becomes the number of attempts. -/
theorem not_bounded_attempts : ¬ ∀ env : Environment, Bounded env Unit := by
  intro hclaim
  have hloaded : loadConfiguration (some (loadFromEnvironment
      (setOnly "RETRY_MAX_ATTEMPTS" "three") : QueueConfig Unit)) =
      .ok (merged (some (loadFromEnvironment (setOnly "RETRY_MAX_ATTEMPTS" "three")))) := by
    rw [loadConfiguration_eq_ok_iff, validate_merged_iff]
    exact ⟨by decide +kernel, rfl⟩
  have hattempts := (hclaim (setOnly "RETRY_MAX_ATTEMPTS" "three") _ hloaded).maxAttempts
  rw [numerics_merged] at hattempts
  exact absurd (hattempts .nan (by decide +kernel)) (by decide)

end Environment

end KitiumJobQueue.Configuration
