import KitiumJobQueue.Foundations.Coroutines
import KitiumJobQueue.Foundations.JavaScript
import KitiumJobQueue.Foundations.Json
import KitiumJobQueue.Foundations.OptionalField
import KitiumJobQueue.Redis.Store
import Mathlib.Logic.Function.Basic

/-!
# Tenants

The tenants of `AccessControlManager` in `access-control.manager.ts`: their configurations lie in
Redis, and `tenantCache` keeps a copy of each that was read or written. The methods are coroutines
over this cache; Redis answers every command.

What is read from Redis is taken for a configuration, and an update may set any property to
`undefined`: a `StoredTenant` has the properties of a configuration, each of them optional. The
calls of a `Pool` are about one tenant. A handler that only logs and throws again is left out, and
so is the wait of `updateTenant` for a `getTenant` that has returned: between it and the `SET` the
cache is neither read nor changed.
-/

namespace KitiumJobQueue.AccessControl.Tenants

open Effects JavaScript Redis

/-! ## Data -/

/-- `TenantConfig.quota` -/
structure Quota where
  maxQueueSize : Option ℚ := none
  maxConcurrency : Option ℚ := none
  maxJobSizeBytes : Option ℚ := none
  rateLimit : Option ℚ := none
  storageQuotaBytes : Option ℚ := none
  deriving DecidableEq

/-- Tenant configuration. -/
structure TenantConfig where
  tenantId : String
  name : String
  quota : Option Quota := none
  allowedRegions : Option (List String) := none
  metadata : Option (List (String × Json)) := none
  createdAt : ℚ
  enabled : Bool
  deriving DecidableEq

/-- `Partial<TenantConfig>` -/
structure PartialConfig where
  tenantId : OptionalField String := .absent
  name : OptionalField String := .absent
  quota : OptionalField Quota := .absent
  allowedRegions : OptionalField (List String) := .absent
  metadata : OptionalField (List (String × Json)) := .absent
  createdAt : OptionalField ℚ := .absent
  enabled : OptionalField Bool := .absent
  deriving DecidableEq

/-- A stored configuration. -/
structure StoredTenant where
  tenantId : Option String := none
  name : Option String := none
  quota : Option Quota := none
  allowedRegions : Option (List String) := none
  metadata : Option (List (String × Json)) := none
  createdAt : Option ℚ := none
  enabled : Option Bool := none
  deriving DecidableEq

/-- What is stored of a configuration. -/
def TenantConfig.stored (config : TenantConfig) : StoredTenant where
  tenantId := config.tenantId
  name := config.name
  quota := config.quota
  allowedRegions := config.allowedRegions
  metadata := config.metadata
  createdAt := config.createdAt
  enabled := config.enabled

/-- `{ ...existing, ...config, tenantId }` -/
def StoredTenant.update (tenantId : String) (config : PartialConfig) (existing : StoredTenant) :
    StoredTenant where
  tenantId := tenantId
  name := config.name.laidOver existing.name
  quota := config.quota.laidOver existing.quota
  allowedRegions := config.allowedRegions.laidOver existing.allowedRegions
  metadata := config.metadata.laidOver existing.metadata
  createdAt := config.createdAt.laidOver existing.createdAt
  enabled := config.enabled.laidOver existing.enabled

/-! ## Commands -/

/-- What the methods ask of Redis. -/
inductive Command
  | get (key : String)
  | set (key : String) (tenant : StoredTenant) (ttl : ℕ)
  | del (key : String)
  deriving DecidableEq

/-- What a command is answered with. -/
abbrev Reply : Command → Type
  | .get _ => Option StoredTenant
  | .set _ _ _ => Unit
  | .del _ => Unit

/-- What Redis answers to a command at a time, and what is stored then. -/
def respond (now : ℕ) :
    (c : Command) → Store StoredTenant → Reply c × Store StoredTenant
  | .get key, s => (s.get now key, s)
  | .set key tenant ttl, s => ((), s.set key tenant (some (now + 1000 * ttl)))
  | .del key, s => ((), s.del key)

/-- Every command is answered. -/
def serve : Serve Thrown (Store StoredTenant) ℕ Reply :=
  fun now c s => (.ok (respond now c s).1, (respond now c s).2)

/-- `tenantCache` -/
abbrev Cache := String → Option StoredTenant

/-- An asynchronous method of the manager. -/
abbrev Method (α : Type) := Coroutine Thrown Cache Reply α

/-- Send a command and wait for its answer. -/
def ask (c : Command) : Method (Reply c) := .await c

/-- `this.tenantCache.set` -/
def cacheSet (tenantId : String) (tenant : StoredTenant) : Method Unit :=
  .modify fun cache => Function.update cache tenantId (some tenant)

/-- `new Error(...)` of `getTenant`. No method reads its stack. -/
def notFound (tenantId : String) : Thrown :=
  .error { message := s!"Tenant {tenantId} not found", stack := none }

/-! ## Methods -/

/-- `buildTenantKey` -/
def buildTenantKey (keyPrefix tenantId : String) : String := keyPrefix ++ ":tenant:" ++ tenantId

section

variable (keyPrefix : String)

/-- `createTenant` -/
def createTenant (config : TenantConfig) : Method Unit := do
  ask (.set (buildTenantKey keyPrefix config.tenantId) config.stored 31536000)
  cacheSet config.tenantId config.stored

/-- What `getTenant` does when the tenant is not in the cache. -/
def loadTenant (tenantId : String) : Method StoredTenant := do
  let data ← ask (.get (buildTenantKey keyPrefix tenantId))
  match data with
  | none => throw (notFound tenantId)
  | some tenant => do
    cacheSet tenantId tenant
    pure tenant

/-- `getTenant` -/
def getTenant (tenantId : String) : Method StoredTenant := do
  let cached ← .read fun cache => cache tenantId
  match cached with
  | some tenant => pure tenant
  | none => loadTenant keyPrefix tenantId

/-- `updateTenant` -/
def updateTenant (tenantId : String) (config : PartialConfig) : Method Unit := do
  let existing ← getTenant keyPrefix tenantId
  let updated := existing.update tenantId config
  ask (.set (buildTenantKey keyPrefix tenantId) updated 31536000)
  cacheSet tenantId updated

/-- `deleteTenant` -/
def deleteTenant (tenantId : String) : Method Unit := do
  ask (.del (buildTenantKey keyPrefix tenantId))
  .modify fun cache => Function.update cache tenantId none

end

/-! ## The manager -/

/-- A call about a tenant. -/
inductive Call (tenantId : String)
  | createTenant (config : TenantConfig) (h : config.tenantId = tenantId)
  | updateTenant (config : PartialConfig)
  | getTenant
  | deleteTenant
  deriving DecidableEq

/-- What a call resolves with. -/
inductive Result
  | tenant (tenant : StoredTenant)
  | done
  deriving DecidableEq

variable {tenantId : String}

/-- The method a call runs. -/
def Call.method (keyPrefix : String) : Call tenantId → Method Result
  | .createTenant config _ => do
    Tenants.createTenant keyPrefix config
    pure .done
  | .updateTenant config => do
    Tenants.updateTenant keyPrefix tenantId config
    pure .done
  | .getTenant => do
    let tenant ← Tenants.getTenant keyPrefix tenantId
    pure (.tenant tenant)
  | .deleteTenant => do
    Tenants.deleteTenant keyPrefix tenantId
    pure .done

/-- A manager, Redis, and the calls about a tenant made so far. -/
abbrev World (tenantId : String) :=
  Pool Thrown Cache (Store StoredTenant) Reply (Call tenantId) Result

/-- A manager under any interleaving of calls about a tenant. An event that carries out a command
says at what time. -/
def system (keyPrefix tenantId : String) : System (World tenantId) (PoolEvent (Call tenantId) ℕ) :=
  Pool.system serve (Call.method keyPrefix)

/-- A method on its own, with the times at which its commands will be carried out. -/
abbrev SoloWorld := Solo Thrown Cache (Store StoredTenant) ℕ Reply

theorem run_ask_bind {α : Type} (c : Command) (k : Reply c → Method α) (w : SoloWorld) :
    ((ask c >>= k).alone serve).run w =
      ((k (respond (w.choices 0) c w.server).1).alone serve).run (w.send serve c).2 :=
  rfl

section

variable {keyPrefix : String} {w : SoloWorld}

theorem run_getTenant_of_cached {tenant : StoredTenant} (h : w.memory tenantId = some tenant) :
    ((getTenant keyPrefix tenantId).alone serve).run w = (.ok tenant, w) := by
  rw [getTenant, Coroutine.run_alone_read_bind, h]
  rfl

theorem run_getTenant_of_found {tenant : StoredTenant} (h : w.memory tenantId = none)
    (hget : w.server.get (w.choices 0) (buildTenantKey keyPrefix tenantId) = some tenant) :
    ((getTenant keyPrefix tenantId).alone serve).run w =
      (.ok tenant, { (w.send serve (.get (buildTenantKey keyPrefix tenantId))).2 with
        memory := Function.update w.memory tenantId (some tenant) }) := by
  have hanswer : (respond (w.choices 0) (.get (buildTenantKey keyPrefix tenantId)) w.server).1 =
    some tenant := hget
  rw [getTenant, Coroutine.run_alone_read_bind, h]
  unfold loadTenant
  rw [run_ask_bind, hanswer]
  rfl

theorem run_getTenant_of_missing (h : w.memory tenantId = none)
    (hget : w.server.get (w.choices 0) (buildTenantKey keyPrefix tenantId) = none) :
    ((getTenant keyPrefix tenantId).alone serve).run w =
      (.error (notFound tenantId),
        (w.send serve (.get (buildTenantKey keyPrefix tenantId))).2) := by
  have hanswer : (respond (w.choices 0) (.get (buildTenantKey keyPrefix tenantId)) w.server).1 =
    none := hget
  rw [getTenant, Coroutine.run_alone_read_bind, h]
  unfold loadTenant
  rw [run_ask_bind, hanswer]
  rfl

end

end KitiumJobQueue.AccessControl.Tenants
