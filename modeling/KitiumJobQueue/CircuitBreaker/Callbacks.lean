import KitiumJobQueue.CircuitBreaker.Basic

/-!
# Callbacks of any kind

The methods of a breaker again, for an `onStateChange` callback about which nothing is known: what
it does when it is told of a change is a computation over the breaker, which may call the breaker,
be told of further changes while it does, and throw anything. `executeStart_throwing` and
`executeEnd_throwing` say that for a callback that only throws this is what `execute` was before.

An `execute` that has started its operation is to settle as the operation does and to count it once
(`Faithful`). The callback is called inside the `try` whose `catch` counts a failure, so this
depends on the callback; `faithful_iff` says exactly how.
-/

namespace KitiumJobQueue.CircuitBreaker.Reentrant

open Effects

/-- What the callback does when it is told of a change. -/
abbrev Callback (ε : Type) :=
  CircuitBreakerState → CircuitBreakerState → Async (ExecuteError ε) CircuitBreaker Unit

variable {ε α : Type} (config : CircuitBreakerConfig) (callback : Callback ε) (now : ℚ)

/-! ## The methods -/

/-- Tell the callback of a change. -/
def notify (oldState newState : CircuitBreakerState) : Async (ExecuteError ε) CircuitBreaker Unit :=
  if config.onStateChange then do
    Async.modify fun b => { b with notified := (oldState, newState) :: b.notified }
    callback oldState newState
  else pure ()

/-- `CircuitBreaker.transitionTo` -/
def transitionTo (newState : CircuitBreakerState) : Async (ExecuteError ε) CircuitBreaker Unit := do
  let oldState ← Async.read CircuitBreaker.state
  if oldState ≠ newState then
    Async.modify (setState config now newState)
    notify config callback oldState newState

/-- `CircuitBreaker.onSuccess` -/
def onSuccess : Async (ExecuteError ε) CircuitBreaker Unit := do
  Async.modify (countSuccess now)
  let b ← Async.read id
  if b.state = .halfOpen then
    if config.successThreshold.getD 2 ≤ b.stats.consecutiveSuccesses then
      transitionTo config callback now .closed

/-- `CircuitBreaker.onFailure` -/
def onFailure : Async (ExecuteError ε) CircuitBreaker Unit := do
  Async.modify (countFailure now)
  let b ← Async.read id
  if b.state = .halfOpen ∨ shouldOpen config b.stats then
    transitionTo config callback now .open

/-- `CircuitBreaker.execute` up to the start of the operation. -/
def executeStart : Async (ExecuteError ε) CircuitBreaker Unit := do
  let b ← Async.read id
  if b.state = .open then
    if now < b.nextAttemptAt then
      throw (.breakerOpen s!"Circuit breaker is OPEN for {config.id}")
    transitionTo config callback now .halfOpen

/-- `CircuitBreaker.execute` from the moment its operation has resolved or rejected. -/
def executeEnd (outcome : Except ε α) : Async (ExecuteError ε) CircuitBreaker α :=
  tryCatch
    (match outcome with
      | .ok result => do
        onSuccess config callback now
        pure result
      | .error error => throw (.operation error))
    fun error => do
      onFailure config callback now
      throw error

/-! ## Callbacks that only throw -/

/-- The callback that an oracle describes. -/
def throwing (throws : CallbackThrows) : Callback ε := fun oldState newState =>
  if throws oldState newState then throw .onStateChange else pure ()

theorem executeStart_throwing (throws : CallbackThrows) :
    executeStart config (throwing (ε := ε) throws) now =
      CircuitBreaker.executeStart config throws now := rfl

theorem executeEnd_throwing (throws : CallbackThrows) (outcome : Except ε α) :
    executeEnd config (throwing throws) now outcome =
      CircuitBreaker.executeEnd config throws now outcome := rfl

/-! ## What is promised -/

/-- The two totals. -/
def totals (b : CircuitBreaker) : ℕ × ℕ := (b.stats.successCount, b.stats.failureCount)

/-- The totals with one more outcome. -/
def count : Except ε α → ℕ × ℕ → ℕ × ℕ
  | .ok _, (successes, failures) => (successes + 1, failures)
  | .error _, (successes, failures) => (successes, failures + 1)

/-- An `execute` called at `now` in state `b`, whose operation ends at `now'` when the breaker is in
state `b'`, settles as its operation does and counts it once. -/
structure Faithful (callback' : Callback ε) (now' : ℚ) (outcome : Except ε α)
    (b b' : CircuitBreaker) : Prop where
  start : totals ((executeStart config callback now).run b).2 = totals b
  result : ((executeEnd config callback' now' outcome).run b').1 =
    outcome.mapError ExecuteError.operation
  counted : totals ((executeEnd config callback' now' outcome).run b').2 = count outcome (totals b')

/-- The breaker as the callback finds it when it is told of a change. -/
def told (newState : CircuitBreakerState) (b : CircuitBreaker) : CircuitBreaker :=
  { setState config now newState b with notified := (b.state, newState) :: b.notified }

/-- Told of the change, the callback leaves the totals alone, and throws nothing but what is
allowed. -/
def Discreet (allowed : ExecuteError ε → Prop) (newState : CircuitBreakerState)
    (b : CircuitBreaker) : Prop :=
  (∀ e, ((callback b.state newState).run (told config now newState b)).1 = .error e → allowed e) ∧
    totals ((callback b.state newState).run (told config now newState b)).2 = totals b

/-- A success closes the breaker. -/
def Closes (b : CircuitBreaker) : Prop :=
  b.state = .halfOpen ∧
    config.successThreshold.getD 2 ≤ ((countSuccess now b).stats.consecutiveSuccesses : ℚ)

/-- A failure opens the breaker. -/
def Opens (b : CircuitBreaker) : Prop :=
  b.state ≠ .open ∧ (b.state = .halfOpen ∨ shouldOpen config (countFailure now b).stats)

/-- The callback is told of no change by the end of the operation, or takes it well: it returns, or
throws the very error of the operation. -/
def TakesWell (outcome : Except ε α) (b : CircuitBreaker) : Prop :=
  match outcome with
  | .ok _ =>
    Closes config now b → Discreet config callback now (fun _ => False) .closed (countSuccess now b)
  | .error error =>
    Opens config now b →
      Discreet config callback now (· = .operation error) .open (countFailure now b)

/-- The callback, if there is one, takes well what it is told at the start of the operation and at
its end. -/
def Careful (callback' : Callback ε) (now' : ℚ) (outcome : Except ε α)
    (b b' : CircuitBreaker) : Prop :=
  config.onStateChange →
    (b.state = .open → Discreet config callback now (fun _ => True) .halfOpen b) ∧
      TakesWell config callback' now' outcome b'

/-! ## Transitions -/

variable {config callback now} {b : CircuitBreaker} {newState : CircuitBreakerState}

theorem run_transitionTo_of_eq (h : b.state = newState) :
    (transitionTo config callback now newState).run b = (.ok (), b) := by
  simp [transitionTo, Async.run_bind, h]

/-- Without a callback a transition only assigns fields. -/
theorem run_transitionTo_of_silent (h : b.state ≠ newState) (hc : config.onStateChange = false) :
    (transitionTo config callback now newState).run b =
      (.ok (), setState config now newState b) := by
  simp [transitionTo, Async.run_bind, h, notify, hc]

/-- With one, the transition ends as the callback does. -/
theorem run_transitionTo_of_told (h : b.state ≠ newState) (hc : config.onStateChange = true) :
    (transitionTo config callback now newState).run b =
      (callback b.state newState).run (told config now newState b) := by
  simp only [transitionTo, Async.run_bind, Async.run_read, ne_eq, h, not_false_eq_true, if_true,
    Async.run_modify, notify, hc]
  rfl

/-- A transition to another state ends well exactly if the callback, if there is one, is
discreet. -/
theorem transitionTo_iff (config : CircuitBreakerConfig) (callback : Callback ε) (now : ℚ)
    (h : b.state ≠ newState) (allowed : ExecuteError ε → Prop) :
    ((∀ e, ((transitionTo config callback now newState).run b).1 = .error e → allowed e) ∧
        totals ((transitionTo config callback now newState).run b).2 = totals b) ↔
      (config.onStateChange → Discreet config callback now allowed newState b) := by
  cases hc : config.onStateChange with
  | false =>
    rw [run_transitionTo_of_silent h hc]
    simp [totals, setState]
  | true =>
    rw [run_transitionTo_of_told h hc]
    simp [Discreet]

/-! ## The start of the operation -/

/-- Where an operation is started, the gate was open or the timeout over. -/
theorem start_iff (hstart : ((executeStart config callback now).run b).1 = .ok ()) :
    totals ((executeStart config callback now).run b).2 = totals b ↔
      (config.onStateChange → b.state = .open →
        Discreet config callback now (fun _ => True) .halfOpen b) := by
  by_cases ho : b.state = .open
  · by_cases hnow : now < b.nextAttemptAt
    · simp [executeStart, Async.run_bind, ho, hnow] at hstart
    · have hrun : (executeStart config callback now).run b =
          (transitionTo config callback now .halfOpen).run b := by
        simp [executeStart, Async.run_bind, ho, hnow]
      have hne : b.state ≠ .halfOpen := by simp [ho]
      have hiff := transitionTo_iff config callback now hne fun _ => True
      rw [hrun]
      simpa [ho] using hiff
  · have hrun : (executeStart config callback now).run b = (.ok (), b) := by
      simp [executeStart, Async.run_bind, ho]
    simp [hrun, ho]

/-! ## Its end -/

/-- A success is counted by `onSuccess`; if that throws, the answer is wrong. -/
theorem success_iff (result : α) :
    (((executeEnd config callback now (.ok result)).run b).1 = .ok result ∧
        totals ((executeEnd config callback now (.ok result)).run b).2 =
          count (ε := ε) (.ok result) (totals b)) ↔
      (config.onStateChange → TakesWell config callback now (.ok result) b) := by
  have hcount : count (ε := ε) (.ok result) (totals b) = totals (countSuccess now b) := rfl
  rw [hcount, executeEnd, Async.run_tryCatch]
  by_cases hcloses : Closes config now b
  · have hne : (countSuccess now b).state ≠ .closed := by simp [hcloses.1]
    have hrun : (onSuccess config callback now).run b =
        (transitionTo config callback now .closed).run (countSuccess now b) := by
      simp [onSuccess, Async.run_bind, hcloses.1, hcloses.2]
    have hiff := transitionTo_iff config callback now hne fun _ => False
    simp only [TakesWell, hcloses, true_imp_iff]
    rw [← hiff, ← hrun, Async.run_bind]
    rcases (onSuccess config callback now).run b with ⟨e | u, b'⟩
    · -- the error is thrown again once the failure has been counted
      refine iff_of_false (fun h => ?_) fun h => h.1 e rfl
      obtain ⟨e', b'', hrej⟩ := Async.Rejects.bind_right (onFailure config callback now)
        (fun _ => Async.Rejects.throw (α := α) e) b'
      simp [hrej] at h
    · simp
  · have hrun : (onSuccess config callback now).run b = (.ok (), countSuccess now b) := by
      simp only [onSuccess, Async.run_bind, Async.run_modify, Async.run_read, id_eq]
      split_ifs with hhalf hmany
      · exact absurd ⟨hhalf, hmany⟩ hcloses
      · rfl
      · rfl
    rw [Async.run_bind_of_ok hrun]
    simp [TakesWell, hcloses]

/-- A failure is counted by `onFailure`, whose own error takes the place of the operation's. -/
theorem failure_iff (error : ε) :
    (((executeEnd (α := α) config callback now (.error error)).run b).1 =
          .error (.operation error) ∧
        totals ((executeEnd (α := α) config callback now (.error error)).run b).2 =
          count (α := α) (.error error) (totals b)) ↔
      (config.onStateChange → TakesWell (α := α) config callback now (.error error) b) := by
  have hcount : count (α := α) (.error error) (totals b) = totals (countFailure now b) := rfl
  have hend : (executeEnd (α := α) config callback now (.error error)).run b =
      (onFailure config callback now >>= fun _ => throw (.operation error)).run b := rfl
  rw [hcount, hend]
  by_cases hopens : Opens config now b
  · have hne : (countFailure now b).state ≠ .open := hopens.1
    have hrun : (onFailure config callback now).run b =
        (transitionTo config callback now .open).run (countFailure now b) := by
      simp [onFailure, Async.run_bind, hopens.2]
    have hiff := transitionTo_iff config callback now hne (· = .operation error)
    simp only [TakesWell, hopens, true_imp_iff]
    rw [← hiff, ← hrun, Async.run_bind]
    rcases (onFailure config callback now).run b with ⟨e | u, b'⟩
    · simp
    · simp
  · have hrun : (onFailure config callback now).run b = (.ok (), countFailure now b) := by
      simp only [onFailure, Async.run_bind, Async.run_modify, Async.run_read, id_eq]
      split_ifs with hopen
      · -- only an OPEN breaker is left, which stays as it is
        have ho : (countFailure now b).state = .open := by
          by_contra hne
          exact hopens ⟨hne, hopen⟩
        exact run_transitionTo_of_eq ho
      · rfl
    rw [Async.run_bind_of_ok hrun]
    simp [TakesWell, hopens]

/-- **An `execute` that has started its operation settles as the operation does and counts it once
exactly if the callback takes well what it is told**: it leaves the totals alone, and throws neither
when a success closes the breaker nor, unless it is the operation's own error, when a failure opens
it. -/
theorem faithful_iff {callback' : Callback ε} {now' : ℚ} (outcome : Except ε α)
    {b' : CircuitBreaker} (hstart : ((executeStart config callback now).run b).1 = .ok ()) :
    Faithful config callback now callback' now' outcome b b' ↔
      Careful config callback now callback' now' outcome b b' := by
  have hend : (((executeEnd config callback' now' outcome).run b').1 =
        outcome.mapError ExecuteError.operation ∧
      totals ((executeEnd config callback' now' outcome).run b').2 = count outcome (totals b')) ↔
      (config.onStateChange → TakesWell config callback' now' outcome b') := by
    cases outcome with
    | ok result => exact success_iff result
    | error error => exact failure_iff error
  have hcareful : Careful config callback now callback' now' outcome b b' ↔
      (config.onStateChange → b.state = .open →
          Discreet config callback now (fun _ => True) .halfOpen b) ∧
        (config.onStateChange → TakesWell config callback' now' outcome b') :=
    imp_and
  rw [hcareful, ← start_iff hstart, ← hend]
  exact ⟨fun h => ⟨h.start, h.result, h.counted⟩, fun h => ⟨h.1, h.2.1, h.2.2⟩⟩

/-- A breaker that one success closes. -/
def probed : CircuitBreakerConfig where
  id := "payments"
  failureThreshold := .count 3
  successThreshold := some 1
  onStateChange := true

/-- A half-open breaker. -/
def halfOpened : CircuitBreaker where
  state := .halfOpen
  stats := { state := .halfOpen }

/-- Under a callback that returns the success of a probe is told and counted. -/
theorem faithful_returning :
    Faithful (ε := String) probed (throwing fun _ _ => false) 5 (throwing fun _ _ => false) 6
      (.ok "paid") halfOpened halfOpened :=
  (faithful_iff (.ok "paid") rfl).mpr fun _ =>
    ⟨fun h => absurd h (by decide), fun _ => ⟨by simp [throwing], rfl⟩⟩

/-- **A payment that was made is reported as failed** when the callback throws as the breaker
closes: the operation has resolved, `execute` rejects, and a failure is counted as well. -/
theorem not_faithful_throwing :
    ((executeEnd probed (throwing (ε := String) fun _ _ => true) 6 (.ok "paid")).run
        halfOpened).1 = .error .onStateChange ∧
      totals ((executeEnd probed (throwing (ε := String) fun _ _ => true) 6 (.ok "paid")).run
        halfOpened).2 = (1, 1) ∧
      ¬ ∀ (config : CircuitBreakerConfig) (callback : Callback String) (now now' : ℚ)
          (outcome : Except String String) (b b' : CircuitBreaker),
        ((executeStart config callback now).run b).1 = .ok () →
          Faithful config callback now callback now' outcome b b' := by
  refine ⟨by decide +kernel, by decide +kernel, fun hclaim => ?_⟩
  have hresult := (hclaim probed (throwing fun _ _ => true) 5 6 (.ok "paid") halfOpened halfOpened
    rfl).result
  exact absurd hresult (by decide +kernel)

end KitiumJobQueue.CircuitBreaker.Reentrant
