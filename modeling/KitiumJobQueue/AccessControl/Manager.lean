import KitiumJobQueue.AccessControl.Pattern
import KitiumJobQueue.Foundations.Effects
import KitiumJobQueue.Foundations.Json
import KitiumJobQueue.Redis.Store
import Mathlib.Algebra.Order.Ring.Rat

/-!
# The access control manager

`AccessControlManager` of `access-control.manager.ts`: the entries of a principal lie in Redis under
keys built from the principal's id and a queue pattern, and are looked up again with a glob pattern
built from the id; a cache of the entries of each principal sits on top.

A stored entry is what `JSON.parse` makes of `JSON.stringify`: a function among its conditions is
dropped on the way (`AccessControlEntry.parsed`). Every Redis command may be rejected; `readAces`
is the loop of `getPrincipalAccess` over the keys, which either reads them all or answers nothing.
-/

namespace KitiumJobQueue.AccessControl

open Effects

/-! ## Entries -/

/-- Queue permissions. -/
structure QueuePermissions where
  canAddJob : Bool
  canViewJob : Bool
  canModifyJob : Bool
  canDeleteJob : Bool
  canManageQueue : Bool
  canManageWorkers : Bool
  canViewMetrics : Bool

/-- `keyof QueuePermissions` -/
inductive Permission
  | canAddJob
  | canViewJob
  | canModifyJob
  | canDeleteJob
  | canManageQueue
  | canManageWorkers
  | canViewMetrics

/-- `permissions[permission]` -/
def QueuePermissions.get (permissions : QueuePermissions) : Permission → Bool
  | .canAddJob => permissions.canAddJob
  | .canViewJob => permissions.canViewJob
  | .canModifyJob => permissions.canModifyJob
  | .canDeleteJob => permissions.canDeleteJob
  | .canManageQueue => permissions.canManageQueue
  | .canManageWorkers => permissions.canManageWorkers
  | .canViewMetrics => permissions.canViewMetrics

/-- `conditions.timeRange` -/
structure TimeRange where
  startHour : ℚ
  endHour : ℚ

/-- Conditions for access. -/
structure AccessConditions where
  timeRange : Option TimeRange := none
  ipWhitelist : Option (List String) := none
  custom : Option (Json → Bool) := none

/-- `AccessControlEntry.principalType` -/
inductive PrincipalType
  | user
  | service
  | role

/-- Access control entry. -/
structure AccessControlEntry where
  principalId : String
  principalType : PrincipalType
  queuePattern : String
  permissions : QueuePermissions
  conditions : Option AccessConditions := none
  createdAt : ℚ
  expiresAt : Option ℚ := none

/-- `JSON.parse(JSON.stringify(ace))` -/
def AccessControlEntry.parsed (ace : AccessControlEntry) : AccessControlEntry :=
  { ace with conditions := ace.conditions.map fun c => { c with custom := none } }

/-- A grant of everything on one queue pattern. -/
def grantAll (principalId queuePattern : String) : AccessControlEntry where
  principalId := principalId
  principalType := .user
  queuePattern := queuePattern
  permissions := ⟨true, true, true, true, true, true, true⟩
  createdAt := 0

/-- `AccessControlManager.checkConditions`, at an hour of the local day. -/
def checkConditions (hour : ℕ) (conditions : AccessConditions) (context : Option Json) : Bool :=
  if conditions.timeRange.any fun r => (hour : ℚ) < r.startHour || r.endHour ≤ (hour : ℚ) then false
  else
    match conditions.custom, context with
    | some custom, some context => custom context
    | _, _ => true

/-- `AccessControlManager.isAceAllowed`, at the time `now` with the local hour `hour`. -/
def isAceAllowed (now hour : ℕ) (ace : AccessControlEntry) (queueName : String)
    (permission : Permission) (context : Option Json) : Bool :=
  matchesPattern '*' queueName.toList ace.queuePattern.toList &&
    ace.permissions.get permission &&
    ace.expiresAt.all (fun t => (now : ℚ) ≤ t) &&
    ace.conditions.all fun conditions => checkConditions hour conditions context

/-- The local hour of a server that runs on UTC. -/
def utcHour (now : ℕ) : ℕ := now / 3600000 % 24

/-! ## The manager -/

/-- The manager's Redis and its `aclCache`. -/
structure Manager where
  redis : Remote (Redis.Store AccessControlEntry)
  aclCache : String → Option (List AccessControlEntry)

/-- `AccessControlManager.buildACEKey` -/
def buildACEKey (keyPrefix principalId queuePattern : String) : String :=
  keyPrefix ++ ":ace:" ++ principalId ++ ":" ++ queuePattern

/-- The pattern `getPrincipalAccess` hands to `KEYS`. -/
def accessPattern (keyPrefix principalId : String) : String :=
  keyPrefix ++ ":ace:" ++ principalId ++ ":*"

/-- The lifetime of a stored entry in milliseconds. -/
def aceLifetime : ℕ := 31536000 * 1000

section Calls

variable {ε α : Type} (keyPrefix : String) (scan : Redis.Scan AccessControlEntry)
  (answers : ℕ → Answer ε) (now : ℕ)

/-- Send a command to Redis. -/
def command (op : Redis.Store AccessControlEntry → α × Redis.Store AccessControlEntry) :
    Async ε Manager α :=
  .within Manager.redis (fun redis m => { m with redis := redis }) (call answers op)

/-- Write to Redis, then forget what is cached for a principal. -/
def writeThrough (principalId : String)
    (write : Redis.Store AccessControlEntry → Redis.Store AccessControlEntry) :
    Async ε Manager Unit := do
  command answers fun r => ((), write r)
  .modify fun m => { m with aclCache := Function.update m.aclCache principalId none }

/-- `AccessControlManager.grantAccess` -/
def grantAccess (ace : AccessControlEntry) : Async ε Manager Unit :=
  writeThrough answers ace.principalId fun r =>
    r.set (buildACEKey keyPrefix ace.principalId ace.queuePattern) ace.parsed
      (some (now + aceLifetime))

/-- `AccessControlManager.revokeAccess` -/
def revokeAccess (principalId queuePattern : String) : Async ε Manager Unit :=
  writeThrough answers principalId fun r => r.del (buildACEKey keyPrefix principalId queuePattern)

/-- The loop of `getPrincipalAccess` over the keys. -/
def readAces : List String → List AccessControlEntry → Async ε Manager (List AccessControlEntry)
  | [], aces => pure aces
  | key :: keys, aces => do
    let data ← command answers fun r => (r.get now key, r)
    readAces keys (aces ++ data.toList)

/-- What `getPrincipalAccess` does inside its `try`. -/
def loadPrincipalAccess (principalId : String) : Async ε Manager (List AccessControlEntry) := do
  let keys ← command answers fun r => (r.keys scan now (accessPattern keyPrefix principalId), r)
  let aces ← readAces answers now keys []
  .modify fun m => { m with aclCache := Function.update m.aclCache principalId (some aces) }
  pure aces

/-- `AccessControlManager.getPrincipalAccess` -/
def getPrincipalAccess (principalId : String) : Async ε Manager (List AccessControlEntry) :=
  tryCatch
    (do
      match ← Async.read fun m => m.aclCache principalId with
      | some cached => pure cached
      | none => loadPrincipalAccess keyPrefix scan answers now principalId)
    fun _ => pure []

/-- `AccessControlManager.checkAccess`; `localHour` is the local time zone. -/
def checkAccess (localHour : ℕ → ℕ) (principalId queueName : String) (permission : Permission)
    (context : Option Json) : Async ε Manager Bool :=
  tryCatch
    (do
      let aces ← getPrincipalAccess keyPrefix scan answers now principalId
      pure (aces.any fun ace => isAceAllowed now (localHour now) ace queueName permission context))
    fun _ => pure false

/-! ## What a call does -/

/-- The manager after `n` more commands that changed nothing. -/
def Manager.advance (m : Manager) (n : ℕ) : Manager :=
  { m with redis := { m.redis with calls := m.redis.calls + n } }

/-- The manager with the entries of a principal in its cache. -/
def Manager.cache (m : Manager) (principalId : String) (aces : List AccessControlEntry) : Manager :=
  { m with aclCache := Function.update m.aclCache principalId (some aces) }

@[simp] theorem Manager.advance_aclCache (m : Manager) (n : ℕ) :
    (m.advance n).aclCache = m.aclCache := rfl

@[simp] theorem Manager.advance_server (m : Manager) (n : ℕ) :
    (m.advance n).redis.server = m.redis.server := rfl

@[simp] theorem Manager.advance_calls (m : Manager) (n : ℕ) :
    (m.advance n).redis.calls = m.redis.calls + n := rfl

theorem Manager.advance_advance (m : Manager) (n k : ℕ) :
    (m.advance n).advance k = m.advance (n + k) := by
  simp only [advance, Nat.add_assoc]

/-- Redis has the write if the command took effect; the cache forgets only when it was answered. -/
theorem writeThrough_snd (principalId : String)
    (write : Redis.Store AccessControlEntry → Redis.Store AccessControlEntry) (m : Manager) :
    ((writeThrough answers principalId write).run m).2.redis.server =
        (if (answers m.redis.calls).TakesEffect then write m.redis.server else m.redis.server) ∧
      ((writeThrough answers principalId write).run m).2.aclCache =
        (if (answers m.redis.calls).IsAnswered then Function.update m.aclCache principalId none
          else m.aclCache) := by
  cases ha : answers m.redis.calls with
  | answered =>
    have hrun : (command answers fun r => ((), write r)).run m = (.ok (), _) :=
      Async.run_within (run_call_of_answered ha)
    rw [writeThrough, Async.run_bind_of_ok hrun]
    exact ⟨(if_pos trivial).symm, (if_pos trivial).symm⟩
  | rejected e applied =>
    have hrun : (command answers fun r => ((), write r)).run m = (.error e, _) :=
      Async.run_within (run_call_of_rejected ha)
    rw [writeThrough, Async.run_bind_of_error hrun]
    exact ⟨rfl, (if_neg id).symm⟩

variable {answers}

/-- A command that only reads, when it is answered. -/
theorem command_read_of_answered {f : Redis.Store AccessControlEntry → α} {m : Manager}
    (h : (answers m.redis.calls).IsAnswered) :
    (command answers fun r => (f r, r)).run m = (.ok (f m.redis.server), m.advance 1) :=
  Async.run_within (run_call_of_answered h.eq)

/-- A command that only reads, when it is rejected. -/
theorem command_read_of_not_answered {f : Redis.Store AccessControlEntry → α} {m : Manager}
    (h : ¬ (answers m.redis.calls).IsAnswered) :
    ∃ e, (command answers fun r => (f r, r)).run m = (.error e, m.advance 1) := by
  cases ha : answers m.redis.calls with
  | answered => exact absurd (by rw [ha]; trivial) h
  | rejected e applied =>
    refine ⟨e, ?_⟩
    have hcall : (call answers fun r => (f r, r)).run m.redis = _ := run_call_of_rejected ha
    rw [ite_self] at hcall
    exact Async.run_within hcall

theorem readAces_of_answered (keys : List String) (aces : List AccessControlEntry) {m : Manager}
    (h : ∀ i < keys.length, (answers (m.redis.calls + i)).IsAnswered) :
    (readAces answers now keys aces).run m =
      (.ok (aces ++ keys.filterMap (m.redis.server.get now)), m.advance keys.length) := by
  induction keys generalizing aces m with
  | nil => simp [readAces, Manager.advance]
  | cons key keys ih =>
    have h₀ : (answers m.redis.calls).IsAnswered := h 0 (by simp)
    rw [readAces, Async.run_bind_of_ok (command_read_of_answered h₀), ih]
    · simp only [Manager.advance_server, Manager.advance_advance, List.length_cons,
        List.filterMap_cons, Nat.add_comm 1]
      cases m.redis.server.get now key <;> simp
    · intro i hi
      have := h (i + 1) (by simpa using hi)
      rwa [Nat.add_comm i 1, ← Nat.add_assoc] at this

theorem readAces_of_not_answered (keys : List String) (aces : List AccessControlEntry) {m : Manager}
    (h : ∃ i < keys.length, ¬ (answers (m.redis.calls + i)).IsAnswered) :
    ∃ e n, (readAces answers now keys aces).run m = (.error e, m.advance n) := by
  induction keys generalizing aces m with
  | nil => simp at h
  | cons key keys ih =>
    by_cases h₀ : (answers m.redis.calls).IsAnswered
    · rw [readAces, Async.run_bind_of_ok (command_read_of_answered h₀)]
      obtain ⟨i, hi, hans⟩ := h
      obtain ⟨i, rfl⟩ : ∃ k, i = k + 1 := by
        cases i with
        | zero => exact absurd h₀ hans
        | succ k => exact ⟨k, rfl⟩
      obtain ⟨e, n, hrun⟩ := ih (m := m.advance 1)
        (aces ++ (m.redis.server.get now key).toList)
        ⟨i, by simpa using hi, by rwa [Nat.add_comm i 1, ← Nat.add_assoc] at hans⟩
      exact ⟨e, 1 + n, by rw [hrun, Manager.advance_advance]⟩
    · obtain ⟨e, hrun⟩ := command_read_of_not_answered (f := fun r => r.get now key) h₀
      exact ⟨e, 1, by rw [readAces, Async.run_bind_of_error hrun]⟩

/-- The keys `getPrincipalAccess` finds for a principal. -/
def Manager.principalKeys (m : Manager) (principalId : String) : List String :=
  m.redis.server.keys scan now (accessPattern keyPrefix principalId)

/-- No command of an uncached `getPrincipalAccess` is rejected. -/
def Manager.Readable (answers : ℕ → Answer ε) (m : Manager) (principalId : String) : Prop :=
  ∀ i ≤ (m.principalKeys keyPrefix scan now principalId).length,
    (answers (m.redis.calls + i)).IsAnswered

theorem getPrincipalAccess_of_cached {principalId : String} {m : Manager}
    {cached : List AccessControlEntry} (h : m.aclCache principalId = some cached) :
    (getPrincipalAccess keyPrefix scan answers now principalId).run m = (.ok cached, m) := by
  unfold getPrincipalAccess
  refine Async.run_tryCatch_of_ok ?_
  rw [Async.run_bind_of_ok (Async.run_read _ m), h]
  rfl

theorem getPrincipalAccess_of_readable {principalId : String} {m : Manager}
    (h : m.aclCache principalId = none)
    (hr : m.Readable keyPrefix scan now answers principalId) :
    ∃ n, (getPrincipalAccess keyPrefix scan answers now principalId).run m =
      (.ok ((m.principalKeys keyPrefix scan now principalId).filterMap (m.redis.server.get now)),
        (m.advance n).cache principalId
          ((m.principalKeys keyPrefix scan now principalId).filterMap
            (m.redis.server.get now))) := by
  refine ⟨1 + (m.principalKeys keyPrefix scan now principalId).length, ?_⟩
  have h₀ : (answers m.redis.calls).IsAnswered := hr 0 (Nat.zero_le _)
  have hread := readAces_of_answered now (m.principalKeys keyPrefix scan now principalId) []
    (m := m.advance 1) fun i hi => by
      have := hr (i + 1) hi
      rwa [Nat.add_comm i 1, ← Nat.add_assoc] at this
  unfold getPrincipalAccess
  refine Async.run_tryCatch_of_ok ?_
  rw [Async.run_bind_of_ok (Async.run_read _ m), h]
  show (loadPrincipalAccess keyPrefix scan answers now principalId).run m = _
  unfold loadPrincipalAccess
  refine (Async.run_bind_of_ok (command_read_of_answered h₀)).trans ?_
  refine (Async.run_bind_of_ok hread).trans ?_
  rw [Manager.advance_advance]
  rfl

theorem getPrincipalAccess_of_not_readable {principalId : String} {m : Manager}
    (h : m.aclCache principalId = none)
    (hr : ¬ m.Readable keyPrefix scan now answers principalId) :
    ∃ n, (getPrincipalAccess keyPrefix scan answers now principalId).run m =
      (.ok [], m.advance n) := by
  have hload : ∃ e n, (loadPrincipalAccess keyPrefix scan answers now principalId).run m =
      (.error e, m.advance n) := by
    unfold loadPrincipalAccess
    by_cases h₀ : (answers m.redis.calls).IsAnswered
    · rw [Async.run_bind_of_ok (command_read_of_answered h₀)]
      -- a later command is the one that fails
      have hlater : ∃ i < (m.principalKeys keyPrefix scan now principalId).length,
          ¬ (answers ((m.advance 1).redis.calls + i)).IsAnswered := by
        unfold Manager.Readable at hr
        push Not at hr
        obtain ⟨i, hi, hans⟩ := hr
        cases i with
        | zero => exact absurd h₀ hans
        | succ i =>
          refine ⟨i, hi, ?_⟩
          rwa [Nat.add_comm i 1, ← Nat.add_assoc] at hans
      obtain ⟨e, n, hrun⟩ := readAces_of_not_answered now _ [] hlater
      exact ⟨e, 1 + n, by
        rw [← Manager.advance_advance]
        exact Async.run_bind_of_error hrun⟩
    · obtain ⟨e, hrun⟩ := command_read_of_not_answered
        (f := fun r => r.keys scan now (accessPattern keyPrefix principalId)) h₀
      exact ⟨e, 1, Async.run_bind_of_error hrun⟩
  obtain ⟨e, n, hload⟩ := hload
  refine ⟨n, ?_⟩
  unfold getPrincipalAccess
  refine (Async.run_tryCatch_of_error (e := e) ?_).trans (Async.run_pure _ _)
  rw [Async.run_bind_of_ok (Async.run_read _ m), h]
  exact hload

/-- `checkAccess` looks through what `getPrincipalAccess` answers, which never rejects. -/
theorem checkAccess_of_eq {localHour : ℕ → ℕ} {principalId queueName : String}
    {permission : Permission} {context : Option Json} {m m' : Manager}
    {aces : List AccessControlEntry}
    (h : (getPrincipalAccess keyPrefix scan answers now principalId).run m = (.ok aces, m')) :
    (checkAccess keyPrefix scan answers now localHour principalId queueName permission context).run
        m =
      (.ok (aces.any fun ace =>
        isAceAllowed now (localHour now) ace queueName permission context), m') :=
  Async.run_tryCatch_of_ok (Async.run_bind_of_ok h)

end Calls

end KitiumJobQueue.AccessControl
