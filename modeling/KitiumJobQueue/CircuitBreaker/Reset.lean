import KitiumJobQueue.CircuitBreaker.Basic
import KitiumJobQueue.Foundations.Observations

/-!
# A breaker that was reset

`reset` puts new statistics in place and closes the breaker, but leaves `nextAttemptAt` as it is.
Nobody can tell: the deadline is read in OPEN only, and entering OPEN assigns it. So two breakers
that differ in nothing else, and in the deadline only while they are not OPEN (`Alike`), answer
whatever is asked of them alike, and a breaker that was reset answers as a new one does
(`outputs_reset`).
-/

namespace KitiumJobQueue.CircuitBreaker

open Effects Observations

/-! ## What a caller sees -/

/-- A call, or the end of an operation that a call of `execute` has started. -/
inductive Request (ε α : Type)
  | execute
  | settle (outcome : Except ε α)
  | open
  | close
  | reset
  | getState
  | getStats

/-- What a call returns with. -/
inductive Reply (α : Type)
  | done
  | value (result : α)
  | state (state : CircuitBreakerState)
  | stats (stats : CircuitBreakerStats)

/-- A request, when it is made, and how the callback behaves while it is served. -/
structure Input (ε α : Type) where
  now : ℚ
  throws : CallbackThrows
  request : Request ε α

/-- How a request ended, and the calls of `onStateChange` it led to, newest first. -/
structure Output (ε α : Type) where
  result : Except (ExecuteError ε) (Reply α)
  notified : List (CircuitBreakerState × CircuitBreakerState)

variable {ε α : Type} (config : CircuitBreakerConfig)

/-- The code a request runs. -/
def Input.handler (i : Input ε α) : Async (ExecuteError ε) CircuitBreaker (Reply α) :=
  match i.request with
  | .execute => do
    executeStart config i.throws i.now
    pure .done
  | .settle outcome => do
    let result ← executeEnd config i.throws i.now outcome
    pure (.value result)
  | .open => do
    CircuitBreaker.open config i.throws i.now
    pure .done
  | .close => do
    CircuitBreaker.close config i.throws i.now
    pure .done
  | .reset => do
    CircuitBreaker.reset config i.throws i.now
    pure .done
  | .getState => do
    let state ← Async.read CircuitBreaker.getState
    pure (.state state)
  | .getStats => do
    let stats ← Async.read CircuitBreaker.getStats
    pure (.stats stats)

/-- The breaker with no call of the callback on record. -/
def silenced (b : CircuitBreaker) : CircuitBreaker := { b with notified := [] }

/-- Serve a request. -/
def respond (b : CircuitBreaker) (i : Input ε α) : Output ε α × CircuitBreaker :=
  let served := (i.handler config).run b.silenced
  (⟨served.1, served.2.notified⟩, served.2)

/-! ## Breakers that cannot be told apart -/

/-- The breakers differ at most in the deadline, and not in that while they are OPEN. -/
structure Alike (b b' : CircuitBreaker) : Prop where
  state : b.state = b'.state
  stats : b.stats = b'.stats
  notified : b.notified = b'.notified
  deadline : b.state = .open → b.nextAttemptAt = b'.nextAttemptAt

variable {config} {throws : CallbackThrows} {now : ℚ} {b b' : CircuitBreaker}

theorem Alike.setState (h : Alike b b') (newState : CircuitBreakerState) :
    Alike (setState config now newState b) (setState config now newState b') where
  state := rfl
  stats := congrArg (fun stats => { stats with state := newState }) h.stats
  notified := h.notified
  deadline ho := by
    rw [setState_state] at ho
    rw [setState_nextAttemptAt, setState_nextAttemptAt, if_pos ho, if_pos ho]

theorem Alike.countSuccess (h : Alike b b') :
    Alike (countSuccess now b) (countSuccess now b') where
  state := h.state
  stats := by simp only [CircuitBreaker.countSuccess, h.stats]
  notified := h.notified
  deadline := h.deadline

theorem Alike.countFailure (h : Alike b b') :
    Alike (countFailure now b) (countFailure now b') where
  state := h.state
  stats := by simp only [CircuitBreaker.countFailure, h.stats]
  notified := h.notified
  deadline := h.deadline

theorem tracks_notify (h : Alike b b') (oldState newState : CircuitBreakerState) :
    Async.Tracks Alike (notify (ε := ε) config throws oldState newState)
      (notify config throws oldState newState) b b' := by
  unfold notify
  split
  · refine .bind (.modify ⟨h.state, h.stats, ?_, h.deadline⟩) fun _ _ _ h => ?_
    · exact congrArg ((oldState, newState) :: ·) h.notified
    · split
      · exact .throw h _
      · exact .pure h _
  · exact .pure h _

theorem tracks_transitionTo (h : Alike b b') (newState : CircuitBreakerState) :
    Async.Tracks Alike (transitionTo (ε := ε) config throws now newState)
      (transitionTo config throws now newState) b b' := by
  refine .read_bind ?_
  rw [h.state]
  split
  · exact .bind (.modify (h.setState newState)) fun _ _ _ h => tracks_notify h _ _
  · exact .pure h _

theorem tracks_onSuccess (h : Alike b b') :
    Async.Tracks Alike (onSuccess (ε := ε) config throws now) (onSuccess config throws now)
      b b' := by
  refine .bind (.modify h.countSuccess) fun _ b b' h => .read_bind ?_
  simp only [id_eq, h.state, h.stats]
  split
  · split
    · exact tracks_transitionTo h _
    · exact .pure h _
  · exact .pure h _

theorem tracks_onFailure (h : Alike b b') :
    Async.Tracks Alike (onFailure (ε := ε) config throws now) (onFailure config throws now)
      b b' := by
  refine .bind (.modify h.countFailure) fun _ b b' h => .read_bind ?_
  simp only [id_eq, h.state, h.stats]
  split
  · exact tracks_transitionTo h _
  · exact .pure h _

/-- The only place where the deadline is read: both breakers are OPEN. -/
theorem tracks_executeStart (h : Alike b b') :
    Async.Tracks Alike (executeStart (ε := ε) config throws now) (executeStart config throws now)
      b b' := by
  refine .read_bind ?_
  by_cases ho : b.state = .open
  · simp only [id_eq, ho, ← h.state, ← h.deadline ho, if_true]
    split
    · exact .throw h _
    · exact tracks_transitionTo h _
  · simp only [id_eq, ← h.state, ho, if_false]
    exact .pure h _

theorem tracks_executeEnd (h : Alike b b') (outcome : Except ε α) :
    Async.Tracks Alike (executeEnd config throws now outcome)
      (executeEnd config throws now outcome) b b' := by
  refine .handle ?_ fun error _ _ h => .bind (tracks_onFailure h) fun _ _ _ h => .throw h error
  cases outcome with
  | ok result => exact .bind (tracks_onSuccess h) fun _ _ _ h => .pure h result
  | error error => exact .throw h _

theorem tracks_reset (h : Alike b b') :
    Async.Tracks Alike (CircuitBreaker.reset (ε := ε) config throws now)
      (CircuitBreaker.reset config throws now) b b' :=
  .bind (.modify ⟨h.state, rfl, h.notified, h.deadline⟩) fun _ _ _ h => tracks_transitionTo h _

theorem tracks_handler (h : Alike b b') (i : Input ε α) :
    Async.Tracks Alike (i.handler config) (i.handler config) b b' := by
  unfold Input.handler
  cases i.request with
  | execute => exact .bind (tracks_executeStart h) fun _ _ _ h => .pure h _
  | settle outcome => exact .bind (tracks_executeEnd h outcome) fun _ _ _ h => .pure h _
  | «open» => exact .bind (tracks_transitionTo h _) fun _ _ _ h => .pure h _
  | close => exact .bind (tracks_transitionTo h _) fun _ _ _ h => .pure h _
  | reset => exact .bind (tracks_reset h) fun _ _ _ h => .pure h _
  | getState =>
    refine .read_bind ?_
    rw [getState, getState, h.state]
    exact .pure h _
  | getStats =>
    refine .read_bind ?_
    rw [getStats, getStats, h.stats]
    exact .pure h _

theorem Alike.silenced (h : Alike b b') : Alike b.silenced b'.silenced :=
  ⟨h.state, h.stats, rfl, h.deadline⟩

theorem bisimulation_respond (config : CircuitBreakerConfig) :
    Bisimulation (respond (ε := ε) (α := α) config) (respond config)
      fun b b' => Alike b.silenced b'.silenced := by
  intro b b' i h
  obtain ⟨hresult, hafter⟩ := @tracks_handler _ _ config _ _ h i
  exact ⟨by rw [respond, respond, hresult, hafter.notified], hafter.silenced⟩

/-- What `reset` leaves of a breaker. -/
theorem alike_reset (config : CircuitBreakerConfig) (throws : CallbackThrows) (now : ℚ)
    (b : CircuitBreaker) :
    Alike ((CircuitBreaker.reset (ε := ε) config throws now).run b).2.silenced {} := by
  have hreset : (CircuitBreaker.reset (ε := ε) config throws now).run b =
      (transitionTo config throws now .closed).run { b with stats := {} } := rfl
  rw [hreset]
  by_cases hs : b.state = .closed
  · rw [transitionTo_of_eq config throws now (b := { b with stats := {} }) hs]
    exact ⟨hs, rfl, rfl, fun ho => absurd (hs.symm.trans ho) (by decide)⟩
  · obtain ⟨calls, hcalls⟩ := transitionTo_snd_of_ne (ε := ε) config throws now
      (b := { b with stats := {} }) hs
    rw [hcalls]
    exact ⟨rfl, rfl, rfl, fun ho => absurd ho (by simp [CircuitBreaker.silenced])⟩

/-- **A breaker that was reset answers as a new one**: from whatever state it was reset, whether or
not the callback threw then, every sequence of requests gets the same results, errors, states and
statistics from both, and leads to the same calls of `onStateChange`. -/
theorem outputs_reset (config : CircuitBreakerConfig) (throws : CallbackThrows) (now : ℚ)
    (b : CircuitBreaker) (is : List (Input ε α)) :
    outputs (respond config) ((CircuitBreaker.reset (ε := ε) config throws now).run b).2 is =
      outputs (respond config) {} is :=
  outputs_eq (bisimulation_respond config) (alike_reset config throws now b) is

end KitiumJobQueue.CircuitBreaker
