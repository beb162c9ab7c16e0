import KitiumJobQueue.Foundations.Effects
import KitiumJobQueue.Foundations.Numbers

/-!
# The circuit breaker

`CircuitBreaker` of `circuit-breaker.manager.ts`, method by method. `execute` waits for its
operation, so it appears in two parts: `executeStart`, what runs up to the start of the operation,
and `executeEnd`, what runs when the operation has resolved or rejected. Every part is given its
reading of the clock, and the behaviour of the `onStateChange` callback as an oracle:
`throws from to` says whether the callback throws when it is told of that change. The callback
does not call the breaker.
-/

namespace KitiumJobQueue

open Effects

/-- Circuit breaker states. -/
inductive CircuitBreakerState
  | closed
  | open
  | halfOpen
  deriving DecidableEq, Repr

/-- `number | { percentage: number; minRequests?: number }` -/
inductive FailureThreshold
  | count (n : ℚ)
  | share (percentage : ℚ) (minRequests : Option ℚ)
  deriving DecidableEq, Repr

/-- Circuit breaker configuration. `onStateChange` says whether there is a callback. -/
structure CircuitBreakerConfig where
  id : String
  failureThreshold : FailureThreshold
  timeout : Option ℚ := none
  successThreshold : Option ℚ := none
  onStateChange : Bool := false
  deriving DecidableEq, Repr

/-- `config.timeout ?? 60000` -/
def CircuitBreakerConfig.timeoutMs (config : CircuitBreakerConfig) : ℚ :=
  config.timeout.getD 60000

/-- Circuit breaker statistics. -/
structure CircuitBreakerStats where
  state : CircuitBreakerState := .closed
  successCount : ℕ := 0
  failureCount : ℕ := 0
  consecutiveSuccesses : ℕ := 0
  consecutiveFailures : ℕ := 0
  lastSuccessAt : Option ℚ := none
  lastFailureAt : Option ℚ := none
  deriving DecidableEq, Repr

/-- The fields of a breaker, and `notified`, the calls made to `onStateChange` so far, newest
first. -/
structure CircuitBreaker where
  state : CircuitBreakerState := .closed
  stats : CircuitBreakerStats := {}
  nextAttemptAt : ℚ := 0
  notified : List (CircuitBreakerState × CircuitBreakerState) := []
  deriving DecidableEq, Repr

/-- What a call to `execute` can reject with, `ε` being the errors of operations. -/
inductive ExecuteError (ε : Type)
  | breakerOpen (message : String)
  | onStateChange
  | operation (e : ε)
  deriving DecidableEq, Repr

/-- Which changes of state the callback answers by throwing. -/
abbrev CallbackThrows := CircuitBreakerState → CircuitBreakerState → Bool

namespace CircuitBreaker

variable {ε α : Type} (config : CircuitBreakerConfig) (throws : CallbackThrows) (now : ℚ)

/-- The fields `transitionTo` assigns. -/
def setState (newState : CircuitBreakerState) (b : CircuitBreaker) : CircuitBreaker :=
  { b with
    state := newState
    stats := { b.stats with state := newState }
    nextAttemptAt := if newState = .open then now + config.timeoutMs else b.nextAttemptAt }

/-- Tell the callback of a change. -/
def notify (oldState newState : CircuitBreakerState) : Async (ExecuteError ε) CircuitBreaker Unit :=
  if config.onStateChange then do
    Async.modify fun b => { b with notified := (oldState, newState) :: b.notified }
    if throws oldState newState then throw .onStateChange
  else pure ()

/-- `CircuitBreaker.transitionTo` -/
def transitionTo (newState : CircuitBreakerState) : Async (ExecuteError ε) CircuitBreaker Unit := do
  let oldState ← Async.read CircuitBreaker.state
  if oldState ≠ newState then
    Async.modify (setState config now newState)
    notify config throws oldState newState

/-- `(failureCount / totalRequests) * 100`, in doubles. -/
def failurePercentage (failureCount totalRequests : ℕ) : ℚ :=
  JavaScript.nearest (JavaScript.nearest (failureCount / totalRequests) * 100)

/-- `CircuitBreaker.shouldOpen` -/
def shouldOpen (stats : CircuitBreakerStats) : Bool :=
  match config.failureThreshold with
  | .count n => n ≤ stats.consecutiveFailures
  | .share percentage minRequests =>
    let totalRequests := stats.successCount + stats.failureCount
    if totalRequests < minRequests.getD 5 then false
    else percentage ≤ failurePercentage stats.failureCount totalRequests

/-- The quotient is rounded: 29 of 50 are not 58 per cent. -/
example : failurePercentage 29 50 < 58 := by decide +kernel

/-- The counters after a success. -/
def countSuccess (b : CircuitBreaker) : CircuitBreaker :=
  { b with stats := { b.stats with
      successCount := b.stats.successCount + 1
      consecutiveSuccesses := b.stats.consecutiveSuccesses + 1
      consecutiveFailures := 0
      lastSuccessAt := some now } }

/-- The counters after a failure. -/
def countFailure (b : CircuitBreaker) : CircuitBreaker :=
  { b with stats := { b.stats with
      failureCount := b.stats.failureCount + 1
      consecutiveFailures := b.stats.consecutiveFailures + 1
      consecutiveSuccesses := 0
      lastFailureAt := some now } }

/-- `CircuitBreaker.onSuccess` -/
def onSuccess : Async (ExecuteError ε) CircuitBreaker Unit := do
  Async.modify (countSuccess now)
  let b ← Async.read id
  if b.state = .halfOpen then
    if config.successThreshold.getD 2 ≤ b.stats.consecutiveSuccesses then
      transitionTo config throws now .closed

/-- `CircuitBreaker.onFailure` -/
def onFailure : Async (ExecuteError ε) CircuitBreaker Unit := do
  Async.modify (countFailure now)
  let b ← Async.read id
  if b.state = .halfOpen ∨ shouldOpen config b.stats then
    transitionTo config throws now .open

/-- `CircuitBreaker.execute` up to the start of the operation: it resolves when the operation is
started. -/
def executeStart : Async (ExecuteError ε) CircuitBreaker Unit := do
  let b ← Async.read id
  if b.state = .open then
    if now < b.nextAttemptAt then
      throw (.breakerOpen s!"Circuit breaker is OPEN for {config.id}")
    transitionTo config throws now .halfOpen

/-- `CircuitBreaker.execute` from the moment its operation has resolved or rejected. -/
def executeEnd (outcome : Except ε α) : Async (ExecuteError ε) CircuitBreaker α :=
  tryCatch
    (match outcome with
      | .ok result => do
        onSuccess config throws now
        pure result
      | .error error => throw (.operation error))
    fun error => do
      onFailure config throws now
      throw error

/-- `CircuitBreaker.getState` -/
def getState (b : CircuitBreaker) : CircuitBreakerState := b.state

/-- `CircuitBreaker.getStats` -/
def getStats (b : CircuitBreaker) : CircuitBreakerStats := b.stats

/-- `CircuitBreaker.open` -/
def «open» : Async (ExecuteError ε) CircuitBreaker Unit := transitionTo config throws now .open

/-- `CircuitBreaker.close` -/
def close : Async (ExecuteError ε) CircuitBreaker Unit := transitionTo config throws now .closed

/-- `CircuitBreaker.reset` -/
def reset : Async (ExecuteError ε) CircuitBreaker Unit := do
  Async.modify fun b => { b with stats := {} }
  transitionTo config throws now .closed

/-! ## What the methods do to the fields -/

variable (b : CircuitBreaker) (oldState newState : CircuitBreakerState)

@[simp] theorem setState_state : (setState config now newState b).state = newState := rfl

@[simp] theorem setState_nextAttemptAt : (setState config now newState b).nextAttemptAt =
    if newState = .open then now + config.timeoutMs else b.nextAttemptAt := rfl

@[simp] theorem countSuccess_state : (countSuccess now b).state = b.state := rfl

@[simp] theorem countSuccess_nextAttemptAt :
    (countSuccess now b).nextAttemptAt = b.nextAttemptAt := rfl

@[simp] theorem countFailure_state : (countFailure now b).state = b.state := rfl

@[simp] theorem countFailure_nextAttemptAt :
    (countFailure now b).nextAttemptAt = b.nextAttemptAt := rfl

/-- The callback is told, and nothing else changes. -/
theorem notify_snd :
    ∃ calls, ((notify (ε := ε) config throws oldState newState).run b).2 =
      { b with notified := calls } := by
  unfold notify
  cases config.onStateChange with
  | false => exact ⟨b.notified, rfl⟩
  | true =>
    refine ⟨(oldState, newState) :: b.notified, ?_⟩
    cases throws oldState newState <;> simp [Async.run_bind]

theorem transitionTo_of_eq {b : CircuitBreaker} {newState : CircuitBreakerState}
    (h : b.state = newState) :
    (transitionTo (ε := ε) config throws now newState).run b = (.ok (), b) := by
  simp [transitionTo, Async.run_bind, h]

/-- A transition to another state assigns the fields of `setState`, and the callback is told. -/
theorem transitionTo_snd_of_ne {b : CircuitBreaker} {newState : CircuitBreakerState}
    (h : b.state ≠ newState) :
    ∃ calls, ((transitionTo (ε := ε) config throws now newState).run b).2 =
      { setState config now newState b with notified := calls } := by
  obtain ⟨calls, hcalls⟩ := notify_snd (ε := ε) config throws (setState config now newState b)
    b.state newState
  refine ⟨calls, ?_⟩
  rw [← hcalls]
  simp [transitionTo, Async.run_bind, h]

/-! ## A callback that does not throw -/

section Returning

variable {config throws now}

theorem resolves_notify
    (h : config.onStateChange → ∀ oldState newState, throws oldState newState = false)
    (oldState newState : CircuitBreakerState) :
    (notify (ε := ε) config throws oldState newState).Resolves := by
  unfold notify
  split
  · next hcallback =>
    refine .bind (.modify _) fun _ => ?_
    rw [h hcallback]
    exact .pure _
  · exact .pure _

theorem resolves_transitionTo
    (h : config.onStateChange → ∀ oldState newState, throws oldState newState = false)
    (newState : CircuitBreakerState) :
    (transitionTo (ε := ε) config throws now newState).Resolves := by
  intro b
  by_cases hs : b.state = newState
  · exact ⟨(), b, transitionTo_of_eq _ _ _ hs⟩
  · obtain ⟨u, b', hrun⟩ := resolves_notify (ε := ε) h b.state newState
      (setState config now newState b)
    exact ⟨u, b', by simp [transitionTo, Async.run_bind, hs, hrun]⟩

theorem resolves_onSuccess
    (h : config.onStateChange → ∀ oldState newState, throws oldState newState = false) :
    (onSuccess (ε := ε) config throws now).Resolves := by
  intro b
  simp only [onSuccess, Async.run_bind, Async.run_modify, Async.run_read, id_eq]
  split_ifs
  · exact resolves_transitionTo h _ _
  · exact ⟨(), _, rfl⟩
  · exact ⟨(), _, rfl⟩

end Returning

end CircuitBreaker

end KitiumJobQueue
