import KitiumJobQueue.Foundations.Coroutines
import KitiumJobQueue.Foundations.Effects
import KitiumJobQueue.Foundations.JavaScript
import KitiumJobQueue.Bull.Queue
import Mathlib.Data.List.Sort
import Mathlib.Logic.Function.Basic

/-!
# The global queue

`GlobalQueueManager` of `global-queue.manager.ts`, method by method, as coroutines over its private
fields. The regions' queues and Redis servers are the service: what a call of theirs does, and
whether it fails, is the environment's choice. The pings of a `Promise.all` are one command, since
none of them can reject and nothing of the manager runs between their answers. An `await` of another
method of the manager adds no point of waiting of its own: nothing shared is read or written between
the end of the method and the continuation.

`dataResidency` is a field of the configuration that no method reads.
-/

namespace KitiumJobQueue.GlobalQueue

open Bull Effects JavaScript

/-! ## Configuration -/

/-- Region configuration. -/
structure RegionConfig where
  region : String
  isPrimary : Option Bool := none
  priority : Option ℚ := none
  deriving DecidableEq

/-- `'sync' | 'async'` -/
inductive ReplicationMode
  | sync
  | async
  deriving DecidableEq

/-- Replication strategy. -/
structure ReplicationConfig where
  enabled : Bool
  mode : Option ReplicationMode := none
  syncTimeoutMs : Option ℚ := none
  deriving DecidableEq

/-- Failover strategy. -/
structure FailoverConfig where
  enabled : Bool
  deriving DecidableEq

/-- Data residency requirements: regions where data must be stored, and where it is prohibited. -/
structure DataResidencyConfig where
  allowedRegions : List String
  blockedRegions : Option (List String) := none
  deriving DecidableEq

/-- Global queue configuration. -/
structure GlobalQueueConfig where
  regions : List RegionConfig
  replication : Option ReplicationConfig := none
  failover : Option FailoverConfig := none
  dataResidency : Option DataResidencyConfig := none
  deriving DecidableEq

/-- The names of the configured regions, in their order. -/
def GlobalQueueConfig.regionNames (config : GlobalQueueConfig) : List String :=
  config.regions.map RegionConfig.region

/-! ## Fields and commands -/

/-- The private fields: the regions with a queue, those with a Redis client, the configuration and
the primary region. -/
structure Manager where
  queues : List String := []
  redisClients : List String := []
  config : Option GlobalQueueConfig := none
  primaryRegion : Option String := none
  deriving DecidableEq

namespace Manager

variable (m : Manager)

/-- `this.config?.replication` -/
def replication : Option ReplicationConfig := m.config.bind GlobalQueueConfig.replication

/-- `this.config?.replication?.enabled` -/
def replicationEnabled : Bool := m.replication.any ReplicationConfig.enabled

/-- `this.config.replication.mode ?? 'async'` -/
def replicationMode : ReplicationMode := (m.replication.bind ReplicationConfig.mode).getD .async

/-- `this.config?.replication?.syncTimeoutMs ?? 5000` -/
def syncTimeoutMs : ℚ := (m.replication.bind ReplicationConfig.syncTimeoutMs).getD 5000

/-- `this.config?.failover?.enabled` -/
def failoverEnabled : Bool :=
  (m.config.bind GlobalQueueConfig.failover).any FailoverConfig.enabled

/-- `this.config?.regions?.map((r) => r.region)` -/
def regionNames : Option (List String) := m.config.map GlobalQueueConfig.regionNames

end Manager

/-- What the manager asks of its regions. -/
inductive Command
  | add (region jobName : String) (data : Json) (opts : JobsOptions)
  | getJob (region jobId : String)
  | ping (region : String)
  /-- A ping to each of the regions, and the wait for all of them. -/
  | pings (regions : List String)
  | timer (ms : ℚ)
  deriving DecidableEq

/-- What a command is answered with. -/
abbrev Reply : Command → Type
  | .add _ _ _ _ => Job
  | .getJob _ _ => Option Job
  | .ping _ => Unit
  | .pings _ => List Bool
  | .timer _ => Unit

/-- The queues of the regions. -/
abbrev Queues := String → Queue

/-- What the environment chooses about a command: whether the call fails, the time, and which of
several pings are answered. -/
structure Choice where
  answer : Answer Thrown := .answered
  now : ℕ := 0
  healthy : ℕ → Bool := fun _ => true

/-- What the regions do on a command. -/
def serve : Serve Thrown Queues Choice Reply
  | v, .add region jobName data opts, qs =>
    let added := (qs region).add jobName data opts v.now
    match v.answer with
    | .answered => (.ok added.1, Function.update qs region added.2)
    | .rejected e applied =>
      (.error e, if applied then Function.update qs region added.2 else qs)
  | v, .getJob region jobId, qs =>
    match v.answer with
    | .answered => (.ok ((qs region).getJob jobId), qs)
    | .rejected e _ => (.error e, qs)
  | v, .ping _, qs =>
    match v.answer with
    | .answered => (.ok (), qs)
    | .rejected e _ => (.error e, qs)
  | v, .pings regions, qs => (.ok (regions.mapIdx fun i _ => v.healthy i), qs)
  | _, .timer _, qs => (.ok (), qs)

/-- An asynchronous method of the manager. -/
abbrev Method (α : Type) := Coroutine Thrown Manager Reply α

/-- Send a command to a region and wait for its answer. -/
def ask (c : Command) : Method (Reply c) := .await c

/-- An error of the manager's own. No method reads its stack. -/
def managerError (code kind message : String) : Thrown :=
  .error
    { message := message
      stack := none
      fields :=
        [("code", .str code),
          ("severity", .str "error"),
          ("kind", .str kind),
          ("retryable", .bool false),
          ("source", .str "@kitiumai/job-queue/global-queue-manager")] }

def noRegions : Thrown :=
  managerError "global-queue/no_regions" "validation"
    "At least one region configuration is required"

def noPrimaryRegion : Thrown :=
  managerError "global-queue/no_primary_region" "validation" "No primary region available"

def regionNotFound (region : String) : Thrown :=
  managerError "global-queue/region_not_found" "not_found" s!"Region {region} not found"

/-! ## Initialization -/

/-- `determinePrimaryRegion` -/
def determinePrimaryRegion (regions : List RegionConfig) : String :=
  match regions.find? fun region => region.isPrimary = some true with
  | some primary => primary.region
  | none => (regions.head?.map RegionConfig.region).getD ""

/-- `initialize` of a new manager, when every region can be set up. -/
def initializeManager (config : GlobalQueueConfig) : Except Thrown Manager :=
  if config.regions = [] then .error noRegions
  else .ok
    { queues := config.regionNames
      redisClients := config.regionNames
      config := some config
      primaryRegion := some (determinePrimaryRegion config.regions) }

/-! ## Failover -/

/-- `failoverTo` -/
def failoverTo (region : String) : Method Unit := do
  let queues ← .read Manager.queues
  if region ∈ queues then
    .modify fun m => { m with primaryRegion := some region }
  else
    throw (regionNotFound region)

/-- `isRegionHealthy` -/
def isRegionHealthy (region : String) : Method Bool :=
  tryCatch
    (do
      let redisClients ← .read Manager.redisClients
      if region ∈ redisClients then
        ask (.ping region)
        pure true
      else pure false)
    fun _ => pure false

/-- An element of `healthyRegions`. -/
structure RegionHealth where
  region : String
  priority : ℚ
  healthy : Bool
  deriving DecidableEq

/-- `isRegionHealthy` of all regions at once, with their priorities. -/
def regionHealths (regions : List RegionConfig) : Method (List RegionHealth) := do
  let redisClients ← .read Manager.redisClients
  let answers ← ask (.pings (regions.map RegionConfig.region))
  pure (regions.zipWith
    (fun region answer =>
      { region := region.region
        priority := region.priority.getD 999
        healthy := region.region ∈ redisClients && answer })
    answers)

/-- The healthy region other than the primary that comes first by priority, `sort` being stable. -/
def newPrimary (healthyRegions : List RegionHealth) (primaryRegion : Option String) :
    Option RegionHealth :=
  ((healthyRegions.filter fun r => r.healthy && primaryRegion ≠ some r.region).insertionSort
    fun a b => a.priority ≤ b.priority).head?

/-- `handleFailover` -/
def handleFailover : Method Unit :=
  tryCatch
    (do
      let m ← .read id
      match m.config with
      | none => pure ()
      | some config => do
        let healthyRegions ← regionHealths config.regions
        let primaryRegion ← .read Manager.primaryRegion
        match newPrimary healthyRegions primaryRegion with
        | some r => failoverTo r.region
        | none => pure ())
    fun _ => pure ()

/-- `healthCheckTick` -/
def healthCheckTick (region : String) : Method Unit := do
  let isHealthy ← isRegionHealthy region
  if isHealthy then pure ()
  else do
    let m ← .read id
    if m.failoverEnabled && m.primaryRegion = some region then handleFailover
    else pure ()

/-! ## Adding and replicating -/

/-- `getPrimaryJob` -/
def getPrimaryJob (jobId : String) : Method (Option Job) := do
  let m ← .read id
  let primaryRegion := m.primaryRegion.getD ""
  if primaryRegion ∈ m.queues then ask (.getJob primaryRegion jobId)
  else pure none

/-- `replicateJobToRegion` -/
def replicateJobToRegion (jobId jobName : String) (jobData : Json) (mode : ReplicationMode)
    (region : String) : Method Unit := do
  let queues ← .read Manager.queues
  if region ∈ queues then
    tryCatch
      (do
        let _ ← ask (.add region jobName jobData { jobId := .value jobId })
        if mode = .sync then
          let syncTimeoutMs ← .read Manager.syncTimeoutMs
          ask (.timer syncTimeoutMs)
        else pure ())
      fun error => if mode = .sync then throw error else pure ()
  else pure ()

/-- The copies of a job that was read back. -/
def replicateTo (jobId : String) (job : Job) (targetRegions : List String) : Method Unit := do
  let m ← .read id
  let regions := targetRegions.filter fun region => m.primaryRegion ≠ some region
  .forEach (replicateJobToRegion jobId job.name job.data m.replicationMode) regions

/-- `replicateJob` -/
def replicateJob (jobId : String) (targetRegions : Option (List String)) : Method Unit :=
  tryCatch
    (do
      let m ← .read id
      if m.replicationEnabled && targetRegions.getD [] ≠ [] then
        let job ← getPrimaryJob jobId
        match job with
        | none => pure ()
        | some job => replicateTo jobId job (targetRegions.getD [])
      else pure ())
    fun _ => pure ()

/-- `addJob` -/
def addJob (jobName : String) (data : Json) (options : JobsOptions) : Method String := do
  let m ← .read id
  let primaryRegion := m.primaryRegion.getD ""
  if primaryRegion ∈ m.queues then
    let job ← ask (.add primaryRegion jobName data options)
    let m ← .read id
    if m.replicationEnabled then replicateJob job.id m.regionNames
    pure job.id
  else
    throw noPrimaryRegion

/-! ## Replication status -/

/-- `'pending' | 'replicated' | 'failed'` -/
inductive ReplicationStatus
  | pending
  | replicated
  | failed
  deriving DecidableEq

/-- A `Map` from regions to statuses. -/
abbrev StatusMap := String → Option ReplicationStatus

/-- The loop of `getReplicationStatus`. -/
def statusLoop (jobId : String) : List RegionConfig → StatusMap → Method StatusMap
  | [], status => pure status
  | region :: regions, status => do
    let queues ← .read Manager.queues
    if region.region ∈ queues then
      let job ← ask (.getJob region.region jobId)
      statusLoop jobId regions (Function.update status region.region
        (some (if (job : Option Job).isSome then .replicated else .pending)))
    else statusLoop jobId regions status

/-- `getReplicationStatus` -/
def getReplicationStatus (jobId : String) : Method StatusMap :=
  tryCatch
    (do
      let m ← .read id
      match m.config with
      | none => pure fun _ => none
      | some config => statusLoop jobId config.regions fun _ => none)
    fun _ => pure fun _ => none

/-! ## The manager and its regions -/

/-- A call of a method. The ticks are called by the timers of the manager. -/
inductive Call
  | addJob (jobName : String) (data : Json) (options : JobsOptions)
  | replicateJob (jobId : String) (targetRegions : Option (List String))
  | failoverTo (region : String)
  | healthCheckTick (region : String)
  | getReplicationStatus (jobId : String)
  deriving DecidableEq

/-- What a call resolves with. -/
inductive Result
  | jobId (id : String)
  | status (statuses : StatusMap)
  | done

/-- The method a call runs. -/
def Call.method : Call → Method Result
  | .addJob jobName data options => do
    let id ← GlobalQueue.addJob jobName data options
    pure (.jobId id)
  | .replicateJob jobId targetRegions => do
    GlobalQueue.replicateJob jobId targetRegions
    pure .done
  | .failoverTo region => do
    GlobalQueue.failoverTo region
    pure .done
  | .healthCheckTick region => do
    GlobalQueue.healthCheckTick region
    pure .done
  | .getReplicationStatus jobId => do
    let status ← GlobalQueue.getReplicationStatus jobId
    pure (.status status)

/-- A manager, the queues of its regions, and the calls made so far. -/
abbrev World := Pool Thrown Manager Queues Reply Call Result

/-- A manager under any interleaving of calls. -/
def system : System World (PoolEvent Call Choice) := Pool.system serve Call.method

/-- The world after `initialize`. -/
def World.init (m : Manager) (qs : Queues) : World := { memory := m, server := qs }

/-- New queues. -/
def emptyQueues : Queues := fun _ => { jobs := [], counter := 0, defaultJobOptions := {} }

theorem run_alone_ask (c : Command) (w : Solo Thrown Manager Queues Choice Reply) :
    ((ask c).alone serve).run w = w.send serve c :=
  Coroutine.run_alone_await c w

/-! ## The fields that stay -/

/-- The fields that no method of a running manager changes. -/
def SameSetup (m m' : Manager) : Prop :=
  m'.queues = m.queues ∧ m'.redisClients = m.redisClients ∧ m'.config = m.config

theorem SameSetup.refl (m : Manager) : SameSetup m m := ⟨rfl, rfl, rfl⟩

theorem SameSetup.trans {m₁ m₂ m₃ : Manager} (h : SameSetup m₁ m₂) (h' : SameSetup m₂ m₃) :
    SameSetup m₁ m₃ :=
  ⟨h'.1.trans h.1, h'.2.1.trans h.2.1, h'.2.2.trans h.2.2⟩

/-- The fields after a successful `initialize`. -/
def SetUp (config : GlobalQueueConfig) (m : Manager) : Prop :=
  m.queues = config.regionNames ∧ m.redisClients = config.regionNames ∧ m.config = some config

theorem setUp_initializeManager {config : GlobalQueueConfig} {m : Manager}
    (h : initializeManager config = .ok m) : SetUp config m := by
  unfold initializeManager at h
  split at h
  · cases h
  · cases h
    exact ⟨rfl, rfl, rfl⟩

theorem SetUp.of_same {config : GlobalQueueConfig} {m m' : Manager} (h : SetUp config m)
    (hs : SameSetup m m') : SetUp config m' :=
  ⟨hs.1.trans h.1, hs.2.1.trans h.2.1, hs.2.2.trans h.2.2⟩

end KitiumJobQueue.GlobalQueue
