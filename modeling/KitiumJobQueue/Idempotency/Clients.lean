import KitiumJobQueue.Foundations.RelyGuarantee
import KitiumJobQueue.Idempotency.Manager

/-!
# Idempotency managers under any interleaving

Any number of clients record, read and clear results and clean up, each method command by command.
`cleanExpired` reads its clock once, after it has listed the keys, and then tests and deletes them
one by one: between the test of a key and its deletion others may do what they like.

The service keeps account of what Redis does not: the time of the latest command, how many records
were written so far, and for each key the number of the latest of them. A call of `cleanExpired` is
labelled with the number of records written before it.

`run_alone_recordExecution` and `run_alone_getExecutionResult` say that a method that no other
interrupts is that of `Manager`.
-/

namespace KitiumJobQueue.Idempotency.Clients

open Effects Redis

/-! ## Commands -/

/-- What a manager asks of Redis and of its clock. -/
inductive Command
  | setex (key : String) (seconds : ℕ) (record : IdempotencyRecord)
  | get (key : String)
  | del (key : String)
  | keys (pattern : String)
  /-- `Date.now()` -/
  | now

/-- What a command is answered with. -/
abbrev Reply : Command → Type
  | .setex _ _ _ => Unit
  | .get _ => Option IdempotencyRecord
  | .del _ => Unit
  | .keys _ => List String
  | .now => ℕ

/-- Redis, and the account of what was written. -/
structure Server where
  redis : Database
  clock : ℕ := 0
  writes : ℕ := 0
  writtenAt : String → ℕ := fun _ => 0

/-- A record is written. -/
def Server.write (s : Server) (key : String) (record : IdempotencyRecord) (deadline : ℕ) :
    Server where
  redis := s.redis.set key record (some deadline)
  clock := s.clock
  writes := s.writes + 1
  writtenAt := Function.update s.writtenAt key (s.writes + 1)

/-- A key is deleted. -/
def Server.delete (s : Server) (key : String) : Server := { s with redis := s.redis.del key }

/-- What the environment chooses about a command: its time, and whether it fails. -/
structure Choice (ε : Type) where
  answer : Answer ε := .answered
  now : ℕ := 0

variable {ε : Type} (scan : Scan IdempotencyRecord) (keyPrefix : String)

/-- What Redis does on a command. Reading the clock cannot fail. -/
def serve : Serve ε Server (Choice ε) Reply
  | v, .setex key seconds record, s =>
    (perform v.answer fun s => ((), s.write key record (v.now + 1000 * seconds))).run
      { s with clock := v.now }
  | v, .get key, s =>
    (perform v.answer fun s : Server => (s.redis.get v.now key, s)).run { s with clock := v.now }
  | v, .del key, s =>
    (perform v.answer fun s : Server => ((), s.delete key)).run { s with clock := v.now }
  | v, .keys pattern, s =>
    (perform v.answer fun s : Server => (s.redis.keys scan v.now pattern, s)).run
      { s with clock := v.now }
  | v, .now, s => (.ok v.now, { s with clock := v.now })

/-! ## Methods -/

/-- A method of the manager, which has no fields that change. -/
abbrev Method (ε α : Type) := Coroutine ε Unit Reply α

/-- Send a command and wait for its answer. -/
def ask (c : Command) : Method ε (Reply c) := .await c

/-- `IdempotencyManager.recordExecution`, called at `now` -/
def recordExecution (now : ℕ) (idempotencyKey jobId jobName : String) (result : Option Json)
    (ttlMs : ℚ) : Method ε Unit :=
  tryCatch
    (ask (.setex (buildKey keyPrefix idempotencyKey) (ttlSeconds ttlMs)
      (executionRecord now idempotencyKey jobId jobName result ttlMs)))
    fun error => throw error

/-- `IdempotencyManager.getExecutionResult` -/
def getExecutionResult (idempotencyKey : String) : Method ε (Option IdempotencyRecord) :=
  tryCatch (ask (.get (buildKey keyPrefix idempotencyKey))) fun _ => pure none

/-- `IdempotencyManager.cleanKeyIfExpired`. What is stored under the key is a record, so
`parseRecord` finds it. -/
def cleanKeyIfExpired (key : String) (now : ℕ) : Method ε Bool :=
  tryCatch
    (do
      let data ← ask (.get key)
      match data with
      | none => pure false
      | some record =>
        if (now : ℚ) ≤ record.expiresAt then pure false
        else do
          ask (.del key)
          pure true)
    fun _ => pure false

/-- The loop of `cleanExpired`. -/
def cleanKeys (now : ℕ) : List String → ℕ → Method ε ℕ
  | [], cleaned => pure cleaned
  | key :: keys, cleaned => do
    let isCleaned ← cleanKeyIfExpired key now
    cleanKeys now keys (if isCleaned then cleaned + 1 else cleaned)

/-- `IdempotencyManager.cleanExpired` -/
def cleanExpired : Method ε ℕ :=
  tryCatch
    (do
      let keys ← ask (.keys (keyPrefix ++ ":*"))
      if keys = [] then pure 0
      else do
        let now ← ask .now
        cleanKeys now keys 0)
    fun _ => pure 0

/-- `IdempotencyManager.clear` -/
def clear (idempotencyKey : String) : Method ε Unit :=
  tryCatch (ask (.del (buildKey keyPrefix idempotencyKey))) fun error => throw error

/-! ## Clients -/

/-- A call of a method. -/
inductive Call
  | recordExecution (now : ℕ) (idempotencyKey jobId jobName : String) (result : Option Json)
    (ttlMs : ℚ)
  | getExecutionResult (idempotencyKey : String)
  /-- `writes` is the number of records written before the call. -/
  | cleanExpired (writes : ℕ)
  | clear (idempotencyKey : String)

/-- What a call resolves with. -/
inductive Result
  | done
  | record (record : Option IdempotencyRecord)
  | cleaned (count : ℕ)

/-- The method a call runs. -/
def Call.method : Call → Method ε Result
  | .recordExecution now idempotencyKey jobId jobName result ttlMs => do
    Clients.recordExecution keyPrefix now idempotencyKey jobId jobName result ttlMs
    pure .done
  | .getExecutionResult idempotencyKey => do
    let record ← Clients.getExecutionResult keyPrefix idempotencyKey
    pure (.record record)
  | .cleanExpired _ => do
    let cleaned ← Clients.cleanExpired keyPrefix
    pure (.cleaned cleaned)
  | .clear idempotencyKey => do
    Clients.clear keyPrefix idempotencyKey
    pure .done

/-- Redis and the calls made so far. -/
abbrev World (ε : Type) := Pool ε Unit Server Reply Call Result

/-- Clients under any interleaving of their calls. -/
def system : System (World ε) (PoolEvent Call (Choice ε)) :=
  Pool.system (serve scan) (Call.method keyPrefix)

/-- No client has called yet. -/
def World.init (redis : Database) : World ε := { memory := (), server := { redis := redis } }

/-! ## A method on its own -/

variable {scan keyPrefix}

theorem run_alone_ask (c : Command) (w : Solo ε Unit Server (Choice ε) Reply) :
    ((ask c).alone (serve scan)).run w = w.send (serve scan) c :=
  Coroutine.run_alone_await c w

/-- Throwing again what was caught is catching nothing. -/
theorem run_alone_rethrown (c : Command) (w : Solo ε Unit Server (Choice ε) Reply) :
    ((tryCatch (ask c) fun error => throw error : Method ε (Reply c)).alone (serve scan)).run w =
      w.send (serve scan) c := by
  rw [Coroutine.alone_tryCatch]
  refine Eq.trans ?_ (run_alone_ask c w)
  exact congrArg (fun m => m.run w) (Async.tryCatch_throw ((ask c).alone (serve scan)))

/-- On its own, `recordExecution` does to Redis what the method of `Manager` does. -/
theorem run_alone_recordExecution (now : ℕ) (idempotencyKey jobId jobName : String)
    (result : Option Json) (ttlMs : ℚ) (w : Solo ε Unit Server (Choice ε) Reply) :
    let own := ((recordExecution keyPrefix now idempotencyKey jobId jobName result ttlMs).alone
      (serve scan)).run w
    let call := (Idempotency.recordExecution keyPrefix (fun _ => (w.choices 0).answer) now
      (w.choices 0).now idempotencyKey jobId jobName result ttlMs).run ⟨w.server.redis, 0⟩
    own.1 = call.1 ∧ own.2.server.redis = call.2.server := by
  dsimp only
  rw [recordExecution, run_alone_rethrown]
  unfold Solo.send Idempotency.recordExecution
  obtain ⟨answer, time⟩ := w.choices 0
  cases answer with
  | answered => exact ⟨rfl, rfl⟩
  | rejected e applied => cases applied <;> exact ⟨rfl, rfl⟩

/-- On its own, `getExecutionResult` finds what the method of `Manager` finds. -/
theorem run_alone_getExecutionResult (idempotencyKey : String)
    (w : Solo ε Unit Server (Choice ε) Reply) :
    let own := ((getExecutionResult keyPrefix idempotencyKey).alone (serve scan)).run w
    let call := (Idempotency.getExecutionResult keyPrefix (fun _ => (w.choices 0).answer)
      (w.choices 0).now idempotencyKey).run ⟨w.server.redis, 0⟩
    own.1 = call.1 ∧ own.2.server.redis = call.2.server := by
  dsimp only
  rw [getExecutionResult, Coroutine.alone_tryCatch, Async.run_tryCatch, run_alone_ask]
  unfold Solo.send Idempotency.getExecutionResult
  obtain ⟨answer, time⟩ := w.choices 0
  cases answer with
  | answered => exact ⟨rfl, rfl⟩
  | rejected e applied => cases applied <;> exact ⟨rfl, rfl⟩

end KitiumJobQueue.Idempotency.Clients
