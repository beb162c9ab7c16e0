import KitiumJobQueue.Configuration.Bounds

/-!
# Which source a value comes from

The sources of a configuration are documented with a priority: what the program gives goes before
the environment, and that before the defaults. A `Leaf` is a field of the configuration or of one of
its parts, with the variable it is read from and what merging does to it.

`loadConfiguration` asks the environment for nothing, and a property that is present without a value
counts for a part of the configuration but not for the configuration itself; `prioritized_iff` says
when the documented priority results.
-/

namespace KitiumJobQueue.Configuration

open JavaScript

variable {V : Type}

/-! ## Leaves -/

/-- A field of the configuration or of one of its parts. In a part, a property that is present
overrides whether or not it has a value. -/
structure Leaf (V : Type) where
  {type : Type}
  get : QueueConfig V → OptionalField type
  variableName : Option String
  isNested : Bool
  get_mergeConfigs : ∀ target source, get (mergeConfigs target source) =
    if isNested then (get target).override (get source) else (get target).assign (get source)

/-- Merging a part is overriding its fields. -/
theorem field_mergeNested {ρ α : Type} {spread : ρ → ρ → ρ} {bare : ρ} {f : ρ → OptionalField α}
    (hspread : ∀ a b, f (spread a b) = (f a).override (f b)) (hbare : f bare = .absent)
    (target source : OptionalField ρ) :
    (mergeNested spread bare target source).field f =
      (target.field f).override (source.field f) := by
  cases source with
  | absent | undefined => rfl
  | value s =>
    change f (spread (target.getD bare) s) = (target.field f).override (f s)
    rw [hspread]
    cases target with
    | absent | undefined =>
      change (f bare).override (f s) = _
      rw [hbare]
      rfl
    | value t => rfl

/-- A field of the configuration itself. -/
def topLeaf {α : Type} (get : QueueConfig V → OptionalField α) (variableName : Option String)
    (h : ∀ target source, get (mergeConfigs target source) = (get target).assign (get source)) :
    Leaf V where
  get := get
  variableName := variableName
  isNested := false
  get_mergeConfigs := h

/-- A field of `redis`. -/
def redisLeaf {α : Type} (f : RedisConfig V → OptionalField α) (variableName : Option String)
    (hspread : ∀ a b, f (a.spread b) = (f a).override (f b)) (hbare : f {} = .absent) : Leaf V where
  get config := config.redis.field f
  variableName := variableName
  isNested := true
  get_mergeConfigs target source := field_mergeNested hspread hbare target.redis source.redis

/-- A field of `retry`. -/
def retryLeaf {α : Type} (f : RetryConfig V → OptionalField α) (variableName : Option String)
    (hspread : ∀ a b, f (a.spread b) = (f a).override (f b)) (hbare : f {} = .absent) : Leaf V where
  get config := config.retry.field f
  variableName := variableName
  isNested := true
  get_mergeConfigs target source := field_mergeNested hspread hbare target.retry source.retry

/-- A field of `dlq`. -/
def dlqLeaf {α : Type} (f : DLQConfig V → OptionalField α) (variableName : Option String)
    (hspread : ∀ a b, f (a.spread b) = (f a).override (f b)) (hbare : f {} = .absent) : Leaf V where
  get config := config.dlq.field f
  variableName := variableName
  isNested := true
  get_mergeConfigs target source := field_mergeNested hspread hbare target.dlq source.dlq

/-- A field of `worker`. -/
def workerLeaf {α : Type} (f : WorkerConfig → OptionalField α) (variableName : Option String)
    (hspread : ∀ a b, f (a.spread b) = (f a).override (f b)) (hbare : f {} = .absent) : Leaf V where
  get config := config.worker.field f
  variableName := variableName
  isNested := true
  get_mergeConfigs target source := field_mergeNested hspread hbare target.worker source.worker

def topLeaves : List (Leaf V) :=
  [topLeaf QueueConfig.name (some "QUEUE_NAME") fun _ _ => rfl,
    topLeaf QueueConfig.defaultJobOptions none fun _ _ => rfl,
    topLeaf QueueConfig.settings none fun _ _ => rfl,
    topLeaf QueueConfig.telemetry none fun _ _ => rfl,
    topLeaf QueueConfig.metrics none fun _ _ => rfl]

def redisLeaves : List (Leaf V) :=
  [redisLeaf RedisConfig.host (some "REDIS_HOST") (fun _ _ => rfl) rfl,
    redisLeaf RedisConfig.port (some "REDIS_PORT") (fun _ _ => rfl) rfl,
    redisLeaf RedisConfig.password (some "REDIS_PASSWORD") (fun _ _ => rfl) rfl,
    redisLeaf RedisConfig.username (some "REDIS_USERNAME") (fun _ _ => rfl) rfl,
    redisLeaf RedisConfig.db (some "REDIS_DB") (fun _ _ => rfl) rfl,
    redisLeaf RedisConfig.retryStrategy none (fun _ _ => rfl) rfl,
    redisLeaf RedisConfig.tls none (fun _ _ => rfl) rfl,
    redisLeaf RedisConfig.enableReadyCheck none (fun _ _ => rfl) rfl,
    redisLeaf RedisConfig.maxRetriesPerRequest none (fun _ _ => rfl) rfl,
    redisLeaf RedisConfig.connectTimeout (some "REDIS_CONNECT_TIMEOUT") (fun _ _ => rfl) rfl]

def retryLeaves : List (Leaf V) :=
  [retryLeaf RetryConfig.maxAttempts (some "RETRY_MAX_ATTEMPTS") (fun _ _ => rfl) rfl,
    retryLeaf RetryConfig.backoffType (some "RETRY_BACKOFF_TYPE") (fun _ _ => rfl) rfl,
    retryLeaf RetryConfig.backoffDelay (some "RETRY_BACKOFF_DELAY") (fun _ _ => rfl) rfl,
    retryLeaf RetryConfig.maxBackoffDelay (some "RETRY_MAX_BACKOFF_DELAY") (fun _ _ => rfl) rfl,
    retryLeaf RetryConfig.backoff none (fun _ _ => rfl) rfl]

def dlqLeaves : List (Leaf V) :=
  [dlqLeaf DLQConfig.enabled (some "DLQ_ENABLED") (fun _ _ => rfl) rfl,
    dlqLeaf DLQConfig.queueName (some "DLQ_QUEUE_NAME") (fun _ _ => rfl) rfl,
    dlqLeaf DLQConfig.maxRetries (some "DLQ_MAX_RETRIES") (fun _ _ => rfl) rfl,
    dlqLeaf DLQConfig.notificationHandler none (fun _ _ => rfl) rfl]

def workerLeaves : List (Leaf V) :=
  [workerLeaf WorkerConfig.concurrency (some "WORKER_CONCURRENCY") (fun _ _ => rfl) rfl,
    workerLeaf WorkerConfig.limiter (some "WORKER_LIMITER_MAX") (fun _ _ => rfl) rfl]

/-- All leaves. -/
def leaves : List (Leaf V) :=
  topLeaves ++ redisLeaves ++ retryLeaves ++ dlqLeaves ++ workerLeaves

/-! ## The documented priority -/

section Priority

variable (env : Environment) (config : Option (QueueConfig V))

namespace Leaf

/-- The environment mentions the leaf. -/
def IsMentioned (leaf : Leaf V) : Prop := ∃ key ∈ leaf.variableName, env key ≠ none

instance (leaf : Leaf V) : Decidable (leaf.IsMentioned env) :=
  inferInstanceAs (Decidable (∃ key ∈ leaf.variableName, env key ≠ none))

/-- The value the program gives. -/
def programmatic (leaf : Leaf V) : OptionalField leaf.type := leaf.get (config.getD {})

/-- The value the environment gives, if it mentions the leaf. -/
def fromEnv (leaf : Leaf V) : Option leaf.type :=
  if leaf.IsMentioned env then (leaf.get (loadFromEnvironment env)).toOption else none

/-- The built-in default. -/
def default (leaf : Leaf V) : Option leaf.type := (leaf.get getDefaultConfig).toOption

end Leaf

/-- Each leaf has the value of the source that goes first among those that have one. -/
def Prioritized (loaded : QueueConfig V) : Prop :=
  ∀ leaf ∈ leaves (V := V), (leaf.get loaded).toOption =
    (leaf.programmatic config).toOption.or ((leaf.fromEnv env).or leaf.default)

/-- Merging the configuration of the environment leaves each default that the environment does not
mention. -/
def KeepsDefaults (V : Type) : Prop :=
  ∀ leaf ∈ leaves (V := V), ¬ leaf.IsMentioned env → leaf.default ≠ none →
    (leaf.get (mergeConfigs getDefaultConfig (loadFromEnvironment env))).toOption = leaf.default

/-- For each leaf the program gives a value; or it leaves the leaf out and the environment has none
but the default; or it gives `undefined`, which in a part leaves nothing. -/
def NothingElseSet : Prop :=
  ∀ leaf ∈ leaves (V := V),
    match leaf.programmatic config with
    | .value _ => True
    | .absent => leaf.fromEnv env = none ∨ leaf.fromEnv env = leaf.default
    | .undefined =>
      if leaf.isNested then leaf.fromEnv env = none ∧ leaf.default = none
      else leaf.fromEnv env = none ∨ leaf.fromEnv env = leaf.default

end Priority

/-! ## When the priority results -/

variable {env : Environment} {config : Option (QueueConfig V)}

/-- No configuration is one that provides nothing. -/
theorem merged_eq (config : Option (QueueConfig V)) :
    merged config = mergeConfigs getDefaultConfig (config.getD {}) := by
  cases config with
  | none => rfl
  | some source => rfl

theorem or_eq_right_iff {α : Type} {a b : Option α} : a.or b = b ↔ a = none ∨ a = b := by
  cases a with
  | none => simp
  | some x => simp

/-- One leaf has the value of the first source exactly if nothing else is set for it. -/
theorem leaf_merged_iff (leaf : Leaf V) :
    (leaf.get (merged config)).toOption =
        (leaf.programmatic config).toOption.or ((leaf.fromEnv env).or leaf.default) ↔
      match leaf.programmatic config with
      | .value _ => True
      | .absent => leaf.fromEnv env = none ∨ leaf.fromEnv env = leaf.default
      | .undefined =>
        if leaf.isNested then leaf.fromEnv env = none ∧ leaf.default = none
        else leaf.fromEnv env = none ∨ leaf.fromEnv env = leaf.default := by
  have hmerge := leaf.get_mergeConfigs getDefaultConfig (config.getD {})
  rw [merged_eq, hmerge]
  change (if leaf.isNested then _ else OptionalField.assign _ (leaf.programmatic config)).toOption =
    _ ↔ _
  change (if leaf.isNested then OptionalField.override _ (leaf.programmatic config) else
    _).toOption = _ ↔ _
  cases hc : leaf.programmatic config with
  | value v =>
    refine iff_of_true ?_ trivial
    split
    · rfl
    · rfl
  | absent =>
    rw [← or_eq_right_iff, eq_comm]
    change _ ↔ _ = (leaf.get getDefaultConfig).toOption
    split
    · rfl
    · rfl
  | undefined =>
    rw [← or_eq_right_iff, ← Option.or_eq_none_iff, eq_comm]
    split
    · rfl
    · rfl

/-- The sources have the documented priority exactly if nothing else is set. -/
theorem prioritized_merged_iff :
    Prioritized env config (merged config) ↔ NothingElseSet env config :=
  forall₂_congr fun leaf _ => leaf_merged_iff leaf

/-! ## When the defaults are kept -/

theorem eq_none_of_not_isMentioned {leaf : Leaf V} (h : ¬ leaf.IsMentioned env) {key : String}
    (hkey : leaf.variableName = some key) : env key = none := by
  by_contra hne
  exact h ⟨key, hkey, hne⟩

/-- A default is kept by a leaf that is left out. -/
theorem keeps_of_absent {leaf : Leaf V} (h : leaf.get (loadFromEnvironment env) = .absent) :
    (leaf.get (mergeConfigs getDefaultConfig (loadFromEnvironment env))).toOption =
      leaf.default := by
  rw [leaf.get_mergeConfigs, h]
  split
  · rfl
  · rfl

theorem absent_topLeaf : ∀ leaf ∈ topLeaves (V := V), ¬ leaf.IsMentioned env →
    leaf.get (loadFromEnvironment env) = .absent := by
  intro leaf hleaf hmention
  simp only [topLeaves, List.mem_cons, List.not_mem_nil, or_false] at hleaf
  rcases hleaf with rfl | rfl | rfl | rfl | rfl
  · have hname := eq_none_of_not_isMentioned hmention rfl
    change OptionalField.ofOption (truthy env "QUEUE_NAME") = .absent
    rw [truthy, hname]
    rfl
  all_goals rfl

/-- A field that is set from its variable alone is left out where the variable is not set. -/
theorem ofOption_number?_eq_absent {key : String} (h : env key = none) :
    OptionalField.ofOption (number? env key) = .absent := by
  rw [number?_eq_none h]
  rfl

theorem ofOption_eq_absent {key : String} (h : env key = none) :
    OptionalField.ofOption (env key) = .absent := by
  rw [h]
  rfl

theorem absent_redisLeaf : ∀ leaf ∈ redisLeaves (V := V), ¬ leaf.IsMentioned env →
    leaf.get (loadFromEnvironment env) = .absent := by
  intro leaf hleaf hmention
  simp only [redisLeaves, List.mem_cons, List.not_mem_nil, or_false] at hleaf
  have hredis : (loadFromEnvironment env : QueueConfig V).redis = redisConfigFromEnv env := rfl
  by_cases hset : (redisEnvironmentKeys.any fun key => (env key).isSome) = true
  · rw [redisConfigFromEnv, if_pos hset] at hredis
    rcases hleaf with rfl | rfl | rfl | rfl | rfl | rfl | rfl | rfl | rfl | rfl
    all_goals
      change OptionalField.field _ _ = _
      rw [hredis]
    · exact ofOption_eq_absent (eq_none_of_not_isMentioned hmention rfl)
    · exact ofOption_number?_eq_absent (eq_none_of_not_isMentioned hmention rfl)
    · exact ofOption_eq_absent (eq_none_of_not_isMentioned hmention rfl)
    · exact ofOption_eq_absent (eq_none_of_not_isMentioned hmention rfl)
    · exact ofOption_number?_eq_absent (eq_none_of_not_isMentioned hmention rfl)
    · rfl
    · rfl
    · rfl
    · rfl
    · exact ofOption_number?_eq_absent (eq_none_of_not_isMentioned hmention rfl)
  · rw [redisConfigFromEnv, if_neg hset] at hredis
    rcases hleaf with rfl | rfl | rfl | rfl | rfl | rfl | rfl | rfl | rfl | rfl
    all_goals
      change OptionalField.field _ _ = _
      rw [hredis]
      rfl

theorem absent_workerLeaf : ∀ leaf ∈ workerLeaves (V := V), ¬ leaf.IsMentioned env →
    leaf.get (loadFromEnvironment env) = .absent := by
  intro leaf hleaf hmention
  simp only [workerLeaves, List.mem_cons, List.not_mem_nil, or_false] at hleaf
  have hworker : (loadFromEnvironment env : QueueConfig V).worker = workerConfigFromEnv env := rfl
  unfold workerConfigFromEnv at hworker
  split at hworker
  · rcases hleaf with rfl | rfl
    all_goals
      change OptionalField.field _ _ = _
      rw [hworker]
    · exact ofOption_number?_eq_absent (eq_none_of_not_isMentioned hmention rfl)
    · change limiterFromEnv env = .absent
      rw [limiterFromEnv, number?_eq_none (eq_none_of_not_isMentioned hmention rfl)]
      rfl
  · rcases hleaf with rfl | rfl
    all_goals
      change OptionalField.field _ _ = _
      rw [hworker]
      rfl

/-- Of the fields of `dlq` only one has a default, and without its variable there is no part. -/
theorem keeps_dlqLeaf : ∀ leaf ∈ dlqLeaves (V := V), ¬ leaf.IsMentioned env →
    leaf.default ≠ none →
    (leaf.get (mergeConfigs getDefaultConfig (loadFromEnvironment env))).toOption =
      leaf.default := by
  intro leaf hleaf hmention hdefault
  simp only [dlqLeaves, List.mem_cons, List.not_mem_nil, or_false] at hleaf
  rcases hleaf with rfl | rfl | rfl | rfl
  · refine keeps_of_absent ?_
    have henabled : env "DLQ_ENABLED" = none := eq_none_of_not_isMentioned hmention rfl
    change (dlqConfigFromEnv env).field _ = .absent
    rw [dlqConfigFromEnv, henabled]
    rfl
  all_goals exact absurd rfl hdefault

/-- The fields of `retry` keep their defaults, apart from the longest delay, which goes with any
other variable of the part. -/
theorem keeps_retryLeaf
    (h : ¬ (hasRetryEnvironment env = true ∧ env "RETRY_MAX_BACKOFF_DELAY" = none)) :
    ∀ leaf ∈ retryLeaves (V := V), ¬ leaf.IsMentioned env → leaf.default ≠ none →
      (leaf.get (mergeConfigs getDefaultConfig (loadFromEnvironment env))).toOption =
        leaf.default := by
  intro leaf hleaf hmention hdefault
  obtain ⟨hattempts, htype, hdelay, hmaxDelay⟩ := merged_retry (V := V) env
  simp only [retryLeaves, List.mem_cons, List.not_mem_nil, or_false] at hleaf
  rcases hleaf with rfl | rfl | rfl | rfl | rfl
  · have hunset : env "RETRY_MAX_ATTEMPTS" = none := eq_none_of_not_isMentioned hmention rfl
    rw [numberOr, hunset, Option.getD_none, parseInt_3] at hattempts
    exact hattempts
  · have hunset : env "RETRY_BACKOFF_TYPE" = none := eq_none_of_not_isMentioned hmention rfl
    rw [hunset, Option.getD_none] at htype
    exact htype
  · have hunset : env "RETRY_BACKOFF_DELAY" = none := eq_none_of_not_isMentioned hmention rfl
    rw [numberOr, hunset, Option.getD_none, parseInt_1000] at hdelay
    exact hdelay
  · have hunset : env "RETRY_MAX_BACKOFF_DELAY" = none := eq_none_of_not_isMentioned hmention rfl
    rw [if_neg fun hset => h ⟨hset, hunset⟩] at hmaxDelay
    exact hmaxDelay
  · exact absurd rfl hdefault

/-- **The defaults are kept exactly if no retry variable is set without the longest delay.** -/
theorem keepsDefaults_iff :
    KeepsDefaults env V ↔
      ¬ (hasRetryEnvironment env = true ∧ env "RETRY_MAX_BACKOFF_DELAY" = none) := by
  constructor
  · rintro h ⟨hset, hunset⟩
    have hmaxDelay := (merged_retry (V := V) env).2.2.2
    rw [if_pos hset, number?_eq_none hunset] at hmaxDelay
    have hkept := h (retryLeaf RetryConfig.maxBackoffDelay (some "RETRY_MAX_BACKOFF_DELAY")
      (fun _ _ => rfl) rfl) (by simp [leaves, retryLeaves]) ?_ (Option.some_ne_none _)
    · exact absurd (hmaxDelay.symm.trans hkept) (Option.some_ne_none _).symm
    · rintro ⟨key, hkey, hne⟩
      cases hkey
      exact hne hunset
  · intro h leaf hleaf hmention hdefault
    simp only [leaves, List.mem_append] at hleaf
    rcases hleaf with (((htop | hredis) | hretry) | hdlq) | hworker
    · exact keeps_of_absent (absent_topLeaf leaf htop hmention)
    · exact keeps_of_absent (absent_redisLeaf leaf hredis hmention)
    · exact keeps_retryLeaf h leaf hretry hmention hdefault
    · exact keeps_dlqLeaf leaf hdlq hmention hdefault
    · exact keeps_of_absent (absent_workerLeaf leaf hworker hmention)

/-- **A configuration is loaded with the documented priority, and defaults are kept, exactly if
nothing else is set and no retry variable is set without the longest delay.** -/
theorem prioritized_iff {loaded : QueueConfig V} (h : loadConfiguration config = .ok loaded) :
    Prioritized env config loaded ∧ KeepsDefaults env V ↔
      NothingElseSet env config ∧
        ¬ (hasRetryEnvironment env = true ∧ env "RETRY_MAX_BACKOFF_DELAY" = none) := by
  obtain ⟨-, rfl⟩ := loadConfiguration_eq_ok_iff.mp h
  rw [prioritized_merged_iff, keepsDefaults_iff]

/-- A program that gives the host. -/
def hostConfig : Option (QueueConfig Unit) :=
  some { redis := .value { host := .value "db.primary" } }

theorem loadConfiguration_hostConfig :
    loadConfiguration hostConfig = .ok (merged hostConfig) :=
  loadConfiguration_eq_ok_iff.mpr ⟨by decide +kernel, rfl⟩

/-- The host of the program goes before that of the environment. -/
theorem prioritized_hostConfig :
    Prioritized (setOnly "REDIS_HOST" "db.internal") hostConfig (merged hostConfig) ∧
      KeepsDefaults (setOnly "REDIS_HOST" "db.internal") Unit := by
  refine (prioritized_iff loadConfiguration_hostConfig).mpr ⟨?_, by decide +kernel⟩
  intro leaf hleaf
  simp only [leaves, topLeaves, redisLeaves, retryLeaves, dlqLeaves, workerLeaves,
    List.cons_append, List.nil_append, List.mem_cons, List.not_mem_nil, or_false] at hleaf
  rcases hleaf with rfl | rfl | rfl | rfl | rfl | rfl | rfl | rfl | rfl | rfl | rfl | rfl | rfl |
    rfl | rfl | rfl | rfl | rfl | rfl | rfl | rfl | rfl | rfl | rfl | rfl | rfl
  case inr.inr.inr.inr.inr.inl => trivial
  all_goals exact Or.inl rfl

/-- The host of the environment alone is not loaded. -/
theorem not_prioritized_host :
    loadConfiguration (none : Option (QueueConfig Unit)) = .ok getDefaultConfig ∧
      ¬ Prioritized (setOnly "REDIS_HOST" "db.internal") (none : Option (QueueConfig Unit))
        getDefaultConfig := by
  refine ⟨loadConfiguration_eq_ok_iff.mpr ⟨by decide +kernel, rfl⟩, fun h => ?_⟩
  have hhost := h (redisLeaf RedisConfig.host (some "REDIS_HOST") (fun _ _ => rfl) rfl)
    (by simp [leaves, redisLeaves])
  have hlocal : some "localhost" = some "db.internal" := hhost
  exact absurd hlocal (by decide)

end KitiumJobQueue.Configuration
