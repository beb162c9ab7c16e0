import KitiumJobQueue.Foundations.Effects
import KitiumJobQueue.Foundations.Json
import KitiumJobQueue.Redis.Store
import Mathlib.Algebra.Order.Floor.Semiring
import Mathlib.Data.Rat.Floor

/-!
# The idempotency manager

`IdempotencyManager` of `idempotency.manager.ts`: the result of a job is recorded in Redis under its
idempotency key for a number of milliseconds, rounded up to whole seconds, and read back before the
job is done again. A read that is rejected looks like a key without a record.
-/

namespace KitiumJobQueue.Idempotency

open Effects

/-- Idempotency record for exactly-once processing; `result` is `none` for `undefined`. -/
structure IdempotencyRecord where
  idempotencyKey : String
  jobId : String
  jobName : String
  result : Option Json
  createdAt : ℕ
  expiresAt : ℚ

/-- The manager's Redis. -/
abbrev Database : Type := Redis.Store IdempotencyRecord

variable {ε : Type} (keyPrefix : String) (answers : ℕ → Answer ε)

/-- `IdempotencyManager.buildKey` -/
def buildKey (idempotencyKey : String) : String := keyPrefix ++ ":" ++ idempotencyKey

/-- `Math.ceil(ttlMs / 1000)` -/
def ttlSeconds (ttlMs : ℚ) : ℕ := ⌈ttlMs / 1000⌉₊

/-- The record `recordExecution` makes when it is called at `now`. -/
def executionRecord (now : ℕ) (idempotencyKey jobId jobName : String) (result : Option Json)
    (ttlMs : ℚ) : IdempotencyRecord where
  idempotencyKey := idempotencyKey
  jobId := jobId
  jobName := jobName
  result := result
  createdAt := now
  expiresAt := now + ttlMs

/-- `IdempotencyManager.recordExecution`, called at `now`, its `SETEX` executed at `executedAt`. -/
def recordExecution (now executedAt : ℕ) (idempotencyKey jobId jobName : String)
    (result : Option Json) (ttlMs : ℚ) : Async ε (Remote Database) Unit :=
  call answers fun r =>
    ((), r.set (buildKey keyPrefix idempotencyKey)
      (executionRecord now idempotencyKey jobId jobName result ttlMs)
      (some (executedAt + 1000 * ttlSeconds ttlMs)))

/-- `IdempotencyManager.getExecutionResult`, its `GET` executed at `now`. -/
def getExecutionResult (now : ℕ) (idempotencyKey : String) :
    Async ε (Remote Database) (Option IdempotencyRecord) :=
  tryCatch (call answers fun r => (r.get now (buildKey keyPrefix idempotencyKey), r))
    fun _ => pure none

variable {keyPrefix answers}

/-- An answered read returns what is stored, and changes nothing. -/
theorem getExecutionResult_of_answered {now : ℕ} {idempotencyKey : String} {r : Remote Database}
    (h : answers r.calls = .answered) :
    (getExecutionResult keyPrefix answers now idempotencyKey).run r =
      (.ok (r.server.get now (buildKey keyPrefix idempotencyKey)), ⟨r.server, r.calls + 1⟩) :=
  Async.run_tryCatch_of_ok (run_call_of_answered h)

/-- A rejected read returns `null`, and changes nothing. -/
theorem getExecutionResult_of_rejected {now : ℕ} {idempotencyKey : String} {r : Remote Database}
    {e : ε} {applied : Bool} (h : answers r.calls = .rejected e applied) :
    (getExecutionResult keyPrefix answers now idempotencyKey).run r =
      (.ok none, ⟨r.server, r.calls + 1⟩) := by
  refine (Async.run_tryCatch_of_error (run_call_of_rejected h)).trans ?_
  rw [Async.run_pure, ite_self]

/-- An answered record is stored for the whole seconds of its lifetime. -/
theorem recordExecution_of_answered {now executedAt : ℕ} {idempotencyKey jobId jobName : String}
    {result : Option Json} {ttlMs : ℚ} {r : Remote Database} (h : answers r.calls = .answered) :
    (recordExecution keyPrefix answers now executedAt idempotencyKey jobId jobName result
        ttlMs).run r =
      (.ok (), ⟨r.server.set (buildKey keyPrefix idempotencyKey)
        (executionRecord now idempotencyKey jobId jobName result ttlMs)
        (some (executedAt + 1000 * ttlSeconds ttlMs)), r.calls + 1⟩) :=
  run_call_of_answered h

end KitiumJobQueue.Idempotency
