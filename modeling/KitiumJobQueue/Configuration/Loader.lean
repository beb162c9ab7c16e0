import KitiumJobQueue.Foundations.Numbers
import KitiumJobQueue.Foundations.OptionalField

/-!
# Loading a configuration

`QueueConfigurationLoader` and `QueueConfigurationValidator`, with the configuration of
`shared/types/config.types.ts`. `loadFromEnvironment` reads a partial configuration from the
variables, `loadConfiguration` lays the one it is given over the defaults and validates the result.

Numbers are those of `Numbers`: a variable that is no number gives `nan`. What the loader hands on
without reading it (functions, adapters, records of settings) is of a type `V`.
-/

namespace KitiumJobQueue.Configuration

open JavaScript

/-! ## The records -/

/-- `QueueConfig.redis` -/
structure RedisConfig (V : Type) where
  host : OptionalField String := .absent
  port : OptionalField Number := .absent
  password : OptionalField String := .absent
  username : OptionalField String := .absent
  db : OptionalField Number := .absent
  retryStrategy : OptionalField V := .absent
  tls : OptionalField V := .absent
  enableReadyCheck : OptionalField Bool := .absent
  /-- `none` is `null`. -/
  maxRetriesPerRequest : OptionalField (Option Number) := .absent
  connectTimeout : OptionalField Number := .absent

/-- `RetryConfig` -/
structure RetryConfig (V : Type) where
  maxAttempts : OptionalField Number := .absent
  backoffType : OptionalField String := .absent
  backoffDelay : OptionalField Number := .absent
  maxBackoffDelay : OptionalField Number := .absent
  backoff : OptionalField V := .absent

/-- A value given for `notificationHandler`: a function, or something else that is truthy or not. -/
inductive Handler (V : Type)
  | function (v : V)
  | other (v : V) (truthy : Bool)

/-- `DLQConfig` -/
structure DLQConfig (V : Type) where
  enabled : OptionalField Bool := .absent
  queueName : OptionalField String := .absent
  maxRetries : OptionalField Number := .absent
  notificationHandler : OptionalField (Handler V) := .absent

/-- `QueueConfig.worker.limiter` -/
structure Limiter where
  max : Number
  duration : Number

/-- `QueueConfig.worker` -/
structure WorkerConfig where
  concurrency : OptionalField Number := .absent
  limiter : OptionalField Limiter := .absent

/-- `QueueConfig`, and `Partial<QueueConfig>`. -/
structure QueueConfig (V : Type) where
  name : OptionalField String := .absent
  redis : OptionalField (RedisConfig V) := .absent
  defaultJobOptions : OptionalField V := .absent
  retry : OptionalField (RetryConfig V) := .absent
  dlq : OptionalField (DLQConfig V) := .absent
  settings : OptionalField V := .absent
  worker : OptionalField WorkerConfig := .absent
  telemetry : OptionalField V := .absent
  metrics : OptionalField V := .absent

variable {V : Type}

/-- `{ ...a, ...b }` -/
def RedisConfig.spread (a b : RedisConfig V) : RedisConfig V where
  host := a.host.override b.host
  port := a.port.override b.port
  password := a.password.override b.password
  username := a.username.override b.username
  db := a.db.override b.db
  retryStrategy := a.retryStrategy.override b.retryStrategy
  tls := a.tls.override b.tls
  enableReadyCheck := a.enableReadyCheck.override b.enableReadyCheck
  maxRetriesPerRequest := a.maxRetriesPerRequest.override b.maxRetriesPerRequest
  connectTimeout := a.connectTimeout.override b.connectTimeout

/-- `{ ...a, ...b }` -/
def RetryConfig.spread (a b : RetryConfig V) : RetryConfig V where
  maxAttempts := a.maxAttempts.override b.maxAttempts
  backoffType := a.backoffType.override b.backoffType
  backoffDelay := a.backoffDelay.override b.backoffDelay
  maxBackoffDelay := a.maxBackoffDelay.override b.maxBackoffDelay
  backoff := a.backoff.override b.backoff

/-- `{ ...a, ...b }` -/
def DLQConfig.spread (a b : DLQConfig V) : DLQConfig V where
  enabled := a.enabled.override b.enabled
  queueName := a.queueName.override b.queueName
  maxRetries := a.maxRetries.override b.maxRetries
  notificationHandler := a.notificationHandler.override b.notificationHandler

/-- `{ ...a, ...b }` -/
def WorkerConfig.spread (a b : WorkerConfig) : WorkerConfig where
  concurrency := a.concurrency.override b.concurrency
  limiter := a.limiter.override b.limiter

/-! ## The environment -/

/-- `process.env` -/
abbrev Environment := String → Option String

variable (env : Environment)

/-- The variable, where it is set to a text that is not empty. -/
def truthy (key : String) : Option String := (env key).filter (· ≠ "")

/-- `environment[key] ? parseInt(environment[key], 10) : undefined` -/
def number? (key : String) : Option Number := (truthy env key).map parseInt

/-- `parseInt(environment[key] ?? fallback, 10)` -/
def numberOr (key fallback : String) : Number := parseInt ((env key).getD fallback)

/-- `applyQueueNameFromEnv` -/
def queueNameFromEnv : OptionalField String := .ofOption (truthy env "QUEUE_NAME")

/-- The variables that make up a Redis configuration. -/
def redisEnvironmentKeys : List String :=
  ["REDIS_HOST", "REDIS_PORT", "REDIS_PASSWORD", "REDIS_DB", "REDIS_USERNAME",
    "REDIS_CONNECT_TIMEOUT"]

/-- `applyRedisConfigFromEnv` -/
def redisConfigFromEnv : OptionalField (RedisConfig V) :=
  if redisEnvironmentKeys.any fun key => (env key).isSome then
    .value
      { host := .ofOption (env "REDIS_HOST")
        port := .ofOption (number? env "REDIS_PORT")
        password := .ofOption (env "REDIS_PASSWORD")
        db := .ofOption (number? env "REDIS_DB")
        username := .ofOption (env "REDIS_USERNAME")
        connectTimeout := .ofOption (number? env "REDIS_CONNECT_TIMEOUT") }
  else .absent

/-- `hasRetryEnvironment` -/
def hasRetryEnvironment : Bool :=
  (env "RETRY_MAX_ATTEMPTS").isSome || (env "RETRY_BACKOFF_TYPE").isSome ||
    (env "RETRY_BACKOFF_DELAY").isSome || (env "RETRY_MAX_BACKOFF_DELAY").isSome

/-- `applyRetryConfigFromEnv` -/
def retryConfigFromEnv : OptionalField (RetryConfig V) :=
  if hasRetryEnvironment env then
    .value
      { maxAttempts := .value (numberOr env "RETRY_MAX_ATTEMPTS" "3")
        backoffType := .value ((env "RETRY_BACKOFF_TYPE").getD "exponential")
        backoffDelay := .value (numberOr env "RETRY_BACKOFF_DELAY" "1000")
        maxBackoffDelay := .literal (number? env "RETRY_MAX_BACKOFF_DELAY") }
  else .absent

/-- `applyDlqConfigFromEnv` -/
def dlqConfigFromEnv : OptionalField (DLQConfig V) :=
  if (env "DLQ_ENABLED").isSome then
    .value
      { enabled := .value (env "DLQ_ENABLED" = some "true")
        queueName := .literal (env "DLQ_QUEUE_NAME")
        maxRetries := .literal (number? env "DLQ_MAX_RETRIES") }
  else .absent

/-- The limiter of `applyWorkerConfigFromEnv`. -/
def limiterFromEnv : OptionalField Limiter :=
  .ofOption ((number? env "WORKER_LIMITER_MAX").map fun max =>
    { max := max, duration := numberOr env "WORKER_LIMITER_DURATION" "1000" })

/-- `applyWorkerConfigFromEnv` -/
def workerConfigFromEnv : OptionalField WorkerConfig :=
  if (env "WORKER_CONCURRENCY").isSome || (env "WORKER_LIMITER_MAX").isSome then
    .value
      { concurrency := .ofOption (number? env "WORKER_CONCURRENCY")
        limiter := limiterFromEnv env }
  else .absent

/-- `QueueConfigurationLoader.loadFromEnvironment` -/
def loadFromEnvironment : QueueConfig V where
  name := queueNameFromEnv env
  redis := redisConfigFromEnv env
  retry := retryConfigFromEnv env
  dlq := dlqConfigFromEnv env
  worker := workerConfigFromEnv env

/-! ## Merging -/

/-- `getDefaultConfig` -/
def getDefaultConfig : QueueConfig V where
  name := .value "default-queue"
  redis := .value
    { host := .value "localhost"
      port := .value 6379
      db := .value 0
      enableReadyCheck := .value true
      maxRetriesPerRequest := .value none
      connectTimeout := .value 10000 }
  retry := .value
    { maxAttempts := .value 3
      backoffType := .value "exponential"
      backoffDelay := .value 1000
      maxBackoffDelay := .value 60000 }
  dlq := .value { enabled := .value false }
  worker := .value { concurrency := .value 5 }

/-- `if (source) { target = { ...target, ...source } }` -/
def mergeNested {ρ : Type} (spread : ρ → ρ → ρ) (bare : ρ) (target source : OptionalField ρ) :
    OptionalField ρ :=
  match source with
  | .value s => .value (spread (target.getD bare) s)
  | .absent | .undefined => target

/-- `QueueConfigurationLoader.mergeConfigs`: the target with what the source provides. -/
def mergeConfigs (target source : QueueConfig V) : QueueConfig V where
  name := target.name.assign source.name
  defaultJobOptions := target.defaultJobOptions.assign source.defaultJobOptions
  settings := target.settings.assign source.settings
  telemetry := target.telemetry.assign source.telemetry
  metrics := target.metrics.assign source.metrics
  redis := mergeNested RedisConfig.spread {} target.redis source.redis
  retry := mergeNested RetryConfig.spread {} target.retry source.retry
  dlq := mergeNested DLQConfig.spread {} target.dlq source.dlq
  worker := mergeNested WorkerConfig.spread {} target.worker source.worker

/-! ## Validating -/

/-- A validation error. Nothing reads its stack. -/
def validationError (code message : String) : JsError where
  message := message
  stack := none
  fields :=
    [("code", .str code),
      ("severity", .str "error"),
      ("kind", .str "validation"),
      ("retryable", .bool false),
      ("source", .str "@kitiumai/job-queue")]

/-- `if (bad) { throw new ValidationError({ code, message, ... }) }` -/
def check (bad : Bool) (code message : String) : Except JsError Unit :=
  if bad then .error (validationError code message) else .ok ()

/-- `x !== undefined && p(x)` -/
def defined {α : Type} (x : OptionalField α) (p : α → Bool) : Bool := x.toOption.any p

/-- `validateRedisConfig` -/
def validateRedisConfig (redis : RedisConfig V) : Except JsError Unit := do
  check (defined redis.port fun port => port.lt 0 || Number.lt 65535 port)
    "queue/invalid_redis_port" "Redis port must be between 0 and 65535"
  check (defined redis.db fun db => db.lt 0 || Number.lt 15 db)
    "queue/invalid_redis_db" "Redis db must be between 0 and 15"
  check (defined redis.connectTimeout fun timeout => timeout.le 0)
    "queue/invalid_redis_timeout" "Redis connectTimeout must be greater than 0"

/-- `validateRetryBackoffType` -/
def validateRetryBackoffType (backoffType : OptionalField String) : Except JsError Unit :=
  check (!backoffType.toOption.any fun type => type ∈ ["exponential", "fixed"])
    "queue/invalid_backoff_type" "backoffType must be either \"exponential\" or \"fixed\""

/-- `validateRetryConfig` -/
def validateRetryConfig (retry : RetryConfig V) : Except JsError Unit := do
  check (defined retry.maxAttempts fun attempts => attempts.le 0)
    "queue/invalid_max_attempts" "maxAttempts must be greater than 0"
  check (defined retry.backoffDelay fun delay => delay.lt 0)
    "queue/invalid_backoff_delay" "backoffDelay must be non-negative"
  check (defined retry.maxBackoffDelay fun delay => delay.lt 0)
    "queue/invalid_max_backoff_delay" "maxBackoffDelay must be non-negative"
  check (defined retry.backoffDelay fun delay =>
      defined retry.maxBackoffDelay fun maxDelay => maxDelay.lt delay)
    "queue/invalid_backoff_config" "backoffDelay must not exceed maxBackoffDelay"
  validateRetryBackoffType retry.backoffType

/-- `dlq.notificationHandler && typeof dlq.notificationHandler !== 'function'` -/
def Handler.isNoFunction : Handler V → Bool
  | .function _ => false
  | .other _ truthy => truthy

/-- `validateDLQConfig` -/
def validateDLQConfig (dlq : DLQConfig V) : Except JsError Unit := do
  check (dlq.enabled.getD false && defined dlq.notificationHandler Handler.isNoFunction)
    "queue/invalid_dlq_handler" "DLQ notificationHandler must be a function"
  check (defined dlq.maxRetries fun retries => retries.lt 0)
    "queue/invalid_dlq_max_retries" "DLQ maxRetries must be non-negative"

/-- `validateWorkerConfig` -/
def validateWorkerConfig (worker : WorkerConfig) : Except JsError Unit := do
  check (defined worker.concurrency fun concurrency => concurrency.le 0)
    "queue/invalid_concurrency" "Worker concurrency must be greater than 0"
  check (defined worker.limiter fun limiter => limiter.max.le 0)
    "queue/invalid_limiter_max" "Limiter max must be greater than 0"
  check (defined worker.limiter fun limiter => limiter.duration.le 0)
    "queue/invalid_limiter_duration" "Limiter duration must be greater than 0"

/-- `if (x) { f(x) }` -/
def whenDefined {ρ : Type} (x : OptionalField ρ) (f : ρ → Except JsError Unit) :
    Except JsError Unit :=
  match x with
  | .value r => f r
  | .absent | .undefined => .ok ()

/-- `QueueConfigurationValidator.validate`. Its first check, whether there is a configuration at
all, cannot fail for a record. -/
def validate (config : QueueConfig V) : Except JsError Unit := do
  check (config.name.toOption.all isBlank)
    "queue/invalid_queue_name" "Queue name is required and must be a non-empty string"
  whenDefined config.redis validateRedisConfig
  whenDefined config.retry validateRetryConfig
  whenDefined config.dlq validateDLQConfig
  whenDefined config.worker validateWorkerConfig

/-- The configuration that `loadConfiguration` validates. -/
def merged (config : Option (QueueConfig V)) : QueueConfig V :=
  match config with
  | none => getDefaultConfig
  | some source => mergeConfigs getDefaultConfig source

/-- `QueueConfigurationLoader.loadConfiguration` -/
def loadConfiguration (config : Option (QueueConfig V)) : Except JsError (QueueConfig V) := do
  validate (merged config)
  pure (merged config)

end KitiumJobQueue.Configuration
