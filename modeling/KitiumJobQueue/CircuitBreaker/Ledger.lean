import KitiumJobQueue.CircuitBreaker.Gate
import KitiumJobQueue.Foundations.Histories

/-!
# What is reported to a circuit breaker

One event of a breaker can report several things to it: an admitted `execute` passes the gate and
starts an operation, and an operation whose success is counted is counted as a failure too when
the callback throws on the way. The ledger of a run lists these reports one by one, newest first,
each with the state before and after it. The counters see a report at a time, so the statements
about streaks and windows of outcomes are made on the ledger.

The ledger adds nothing to the system: `step_eq_some` says that its world takes the step of
`CircuitBreaker.system`, and `foldl_hear_breaker` that hearing the reports of an event one after
another is what the code does in that event.
-/

namespace KitiumJobQueue.CircuitBreaker

open Effects

/-! ## The counters -/

/-- The counters of `CircuitBreakerStats`. -/
structure Counters where
  successCount : ℕ := 0
  failureCount : ℕ := 0
  consecutiveSuccesses : ℕ := 0
  consecutiveFailures : ℕ := 0
  deriving DecidableEq

/-- The counters of a breaker. -/
def counters (b : CircuitBreaker) : Counters where
  successCount := b.stats.successCount
  failureCount := b.stats.failureCount
  consecutiveSuccesses := b.stats.consecutiveSuccesses
  consecutiveFailures := b.stats.consecutiveFailures

/-- The counters after one more success. -/
def Counters.succeed (c : Counters) : Counters where
  successCount := c.successCount + 1
  failureCount := c.failureCount
  consecutiveSuccesses := c.consecutiveSuccesses + 1
  consecutiveFailures := 0

/-- The counters after one more failure. -/
def Counters.fail (c : Counters) : Counters where
  successCount := c.successCount
  failureCount := c.failureCount + 1
  consecutiveSuccesses := 0
  consecutiveFailures := c.consecutiveFailures + 1

/-- `shouldOpen` as a condition on the counters. -/
def Counters.Trips (threshold : FailureThreshold) (c : Counters) : Prop :=
  match threshold with
  | .count n => n ≤ c.consecutiveFailures
  | .share percentage minRequests =>
    minRequests.getD 5 ≤ ((c.successCount + c.failureCount : ℕ) : ℚ) ∧
      percentage ≤ failurePercentage c.failureCount (c.successCount + c.failureCount)

instance (threshold : FailureThreshold) (c : Counters) : Decidable (c.Trips threshold) :=
  match threshold with
  | .count n => inferInstanceAs (Decidable (n ≤ c.consecutiveFailures))
  | .share percentage minRequests => inferInstanceAs (Decidable
      (minRequests.getD 5 ≤ ((c.successCount + c.failureCount : ℕ) : ℚ) ∧
        percentage ≤ failurePercentage c.failureCount (c.successCount + c.failureCount)))

section Methods

variable {ε : Type} (config : CircuitBreakerConfig) (throws : CallbackThrows) (now : ℚ)
  (newState : CircuitBreakerState) (b : CircuitBreaker)

theorem shouldOpen_iff :
    shouldOpen config b.stats ↔ b.counters.Trips config.failureThreshold := by
  unfold shouldOpen Counters.Trips
  cases config.failureThreshold with
  | count n => simp [counters]
  | share percentage minRequests =>
    by_cases h : ((b.stats.successCount + b.stats.failureCount : ℕ) : ℚ) < minRequests.getD 5
    · simp only [counters, h, not_le.mpr h, if_true, false_and, Bool.false_eq_true]
    · simp only [counters, h, not_lt.mp h, if_false, true_and, decide_eq_true_eq]

/-- A transition ends in the state asked for and counts nothing. -/
theorem transitionTo_effect :
    ((transitionTo (ε := ε) config throws now newState).run b).2.state = newState ∧
      ((transitionTo (ε := ε) config throws now newState).run b).2.counters = b.counters := by
  by_cases h : b.state = newState
  · rw [transitionTo_of_eq _ _ _ h]
    exact ⟨h, rfl⟩
  · obtain ⟨calls, hcalls⟩ := transitionTo_snd_of_ne (ε := ε) config throws now h
    rw [hcalls]
    exact ⟨rfl, rfl⟩

/-- A success is counted, and closes a half-open breaker that has counted enough of them. -/
theorem onSuccess_effect :
    ((onSuccess (ε := ε) config throws now).run b).2.counters = b.counters.succeed ∧
      ((onSuccess (ε := ε) config throws now).run b).2.state =
        if b.state = .halfOpen ∧
          config.successThreshold.getD 2 ≤ (b.counters.succeed.consecutiveSuccesses : ℚ)
        then .closed else b.state := by
  obtain ⟨hs, hc⟩ := transitionTo_effect (ε := ε) config throws now .closed (countSuccess now b)
  have hcount : (countSuccess now b).counters = b.counters.succeed := rfl
  have hmany : ((countSuccess now b).stats.consecutiveSuccesses : ℚ) =
      b.counters.succeed.consecutiveSuccesses := rfl
  simp only [onSuccess, Async.run_bind, Async.run_modify, Async.run_read, id_eq, hmany,
    countSuccess_state]
  split_ifs with h₁ h₂ h₃ h₄
  all_goals first | exact ⟨hc, hs⟩ | exact ⟨rfl, rfl⟩ | tauto

/-- A failure is counted, and opens the breaker when it is half-open or its counters say so. -/
theorem onFailure_effect :
    ((onFailure (ε := ε) config throws now).run b).2.counters = b.counters.fail ∧
      ((onFailure (ε := ε) config throws now).run b).2.state =
        if b.state = .halfOpen ∨ b.counters.fail.Trips config.failureThreshold then .open
        else b.state := by
  obtain ⟨hs, hc⟩ := transitionTo_effect (ε := ε) config throws now .open (countFailure now b)
  have hiff : ((countFailure now b).state = .halfOpen ∨
      shouldOpen config (countFailure now b).stats) ↔
      (b.state = .halfOpen ∨ b.counters.fail.Trips config.failureThreshold) :=
    or_congr_right (shouldOpen_iff config (countFailure now b))
  simp only [onFailure, Async.run_bind, Async.run_modify, Async.run_read, id_eq]
  by_cases h : b.state = .halfOpen ∨ b.counters.fail.Trips config.failureThreshold
  · rw [if_pos h, if_pos (hiff.mpr h)]
    exact ⟨hc, hs⟩
  · rw [if_neg h, if_neg (mt hiff.mp h)]
    exact ⟨rfl, rfl⟩

/-- `execute` passes an open gate and changes nothing else. -/
theorem executeStart_effect :
    ((executeStart (ε := ε) config throws now).run b).2.counters = b.counters ∧
      ((executeStart (ε := ε) config throws now).run b).2.state =
        if b.state = .open ∧ b.nextAttemptAt ≤ now then .halfOpen else b.state := by
  obtain ⟨hs, hc⟩ := transitionTo_effect (ε := ε) config throws now .halfOpen b
  by_cases hopen : b.state = .open
  · by_cases hnow : now < b.nextAttemptAt
    · simp [executeStart, Async.run_bind, hopen, hnow, not_le.mpr hnow]
    · simp [executeStart, Async.run_bind, hopen, hnow, not_lt.mp hnow, hs, hc]
  · simp [executeStart, Async.run_bind, hopen]

/-- A reset leaves a closed breaker that has counted nothing. -/
theorem reset_effect :
    ((reset (ε := ε) config throws now).run b).2.state = .closed ∧
      ((reset (ε := ε) config throws now).run b).2.counters = {} :=
  transitionTo_effect config throws now .closed { b with stats := {} }

end Methods

/-! ## Reports -/

/-- Something reported to a breaker. -/
inductive Report
  | gate
  | started (operation : ℕ)
  | success (operation : ℕ)
  | failure (operation : ℕ)
  | open
  | close
  | reset
  deriving DecidableEq

/-- A failure is reported. -/
def Report.IsFailure : Report → Prop
  | .failure _ => True
  | .gate | .started _ | .success _ | .open | .close | .reset => False

instance : DecidablePred Report.IsFailure
  | .failure _ => .isTrue trivial
  | .gate | .started _ | .success _ | .open | .close | .reset => .isFalse id

/-- A report with the state before and after it. -/
structure Mark where
  report : Report
  before : CircuitBreakerState
  after : CircuitBreakerState
  deriving DecidableEq

/-- The code a report runs. -/
def Report.handler (config : CircuitBreakerConfig) (e : Event) :
    Report → Async (ExecuteError Unit) CircuitBreaker Unit
  | .gate => executeStart config e.throws e.now
  | .started _ => pure ()
  | .success _ => onSuccess config e.throws e.now
  | .failure _ => onFailure config e.throws e.now
  | .open => CircuitBreaker.open config e.throws e.now
  | .close => CircuitBreaker.close config e.throws e.now
  | .reset => CircuitBreaker.reset config e.throws e.now

/-- The reports of an event, in their order. -/
def reports (config : CircuitBreakerConfig) (w : World) (e : Event) : List Report :=
  match e.action with
  | .execute => .gate :: (startedBy config w e).toList.map .started
  | .settled op (.ok ()) =>
    match ((onSuccess (ε := Unit) config e.throws e.now).run w.breaker).1 with
    | .ok () => [.success op]
    | .error _ => [.success op, .failure op]
  | .settled op (.error ()) => [.failure op]
  | .open => [.open]
  | .close => [.close]
  | .reset => [.reset]

/-- The report an action makes first. -/
def Action.report : Action → Report
  | .execute => .gate
  | .settled op (.ok ()) => .success op
  | .settled op (.error ()) => .failure op
  | .open => .open
  | .close => .close
  | .reset => .reset

/-- The event of an action under a callback that never throws. -/
def Action.at (action : Action) (now : ℚ) : Event := ⟨now, fun _ _ => false, action⟩

/-- A breaker and what was reported to it, newest first. -/
structure Heard where
  breaker : CircuitBreaker
  log : List Mark

/-- Hear one report. -/
def Heard.hear (config : CircuitBreakerConfig) (e : Event) (h : Heard) (r : Report) : Heard where
  breaker := ((r.handler config e).run h.breaker).2
  log := ⟨r, h.breaker.state, ((r.handler config e).run h.breaker).2.state⟩ :: h.log

/-- A world of the breaker with the ledger of its run. -/
structure Ledger where
  world : World
  log : List Mark := []
  deriving DecidableEq

/-- The breaker of a ledger and its log. -/
def Ledger.heard (L : Ledger) : Heard := ⟨L.world.breaker, L.log⟩

/-- `CircuitBreaker.system`, keeping the ledger. -/
def ledger (config : CircuitBreakerConfig) : System Ledger Event where
  step L e := ((system config).step L.world e).map fun w =>
    ⟨w, ((reports config L.world e).foldl (Heard.hear config e) L.heard).log⟩

/-- The ledger of a new breaker. -/
def Ledger.init (t₀ : ℚ) : Ledger := { world := World.init t₀ }

/-- The mark enters a state: a transition into it, and for CLOSED a reset too, which puts the
breaker back to where a new one is. -/
def Mark.enters (st : CircuitBreakerState) (m : Mark) : Bool :=
  m.after = st ∧ (m.before ≠ st ∨ m.report = .reset)

/-- What was reported since the breaker last entered a state. -/
def sinceEntering (st : CircuitBreakerState) (log : List Mark) : List Mark :=
  History.since (Mark.enters st) log

variable {config : CircuitBreakerConfig}

/-- Hearing the reports of an event is what the code does in it. -/
theorem foldl_hear_breaker (w : World) (e : Event) (log : List Mark) :
    ((reports config w e).foldl (Heard.hear config e) ⟨w.breaker, log⟩).breaker =
      ((react config e).run w.breaker).2 := by
  cases ha : e.action with
  | execute =>
    cases hs : startedBy config w e <;> simp [reports, react, ha, hs, Heard.hear, Report.handler]
  | settled op outcome =>
    rcases outcome with ⟨⟩ | ⟨⟩
    · simp only [reports, react, ha, executeEnd, Async.run_tryCatch, Async.run_throw,
        List.foldl_cons, List.foldl_nil, Heard.hear, Report.handler, Async.run_bind]
      split <;> rename_i heq <;> rw [heq]
    · simp only [reports, react, ha, executeEnd, Async.run_tryCatch, Async.run_bind]
      rcases hr : (onSuccess (ε := Unit) config e.throws e.now).run w.breaker with ⟨_ | _, b⟩
      · simp only [List.foldl_cons, List.foldl_nil, Heard.hear, Report.handler, hr]
        split <;> rename_i heq <;> rw [heq]
        rfl
      · simp [Heard.hear, Report.handler, hr]
  | «open» => simp [reports, react, ha, Heard.hear, Report.handler]
  | close => simp [reports, react, ha, Heard.hear, Report.handler]
  | reset => simp [reports, react, ha, Heard.hear, Report.handler]

/-- A step of the ledger is a step of the system, and hears its reports. -/
theorem ledger_step {L L' : Ledger} {e : Event} (h : (ledger config).step L e = some L') :
    (system config).step L.world e = some L'.world ∧
      L'.heard = (reports config L.world e).foldl (Heard.hear config e) L.heard := by
  simp only [ledger, Option.map_eq_some_iff] at h
  obtain ⟨w, hw, rfl⟩ := h
  refine ⟨hw, ?_⟩
  have hb := @foldl_hear_breaker config L.world e L.log
  rw [← (step_eq_some hw).2.2.1] at hb
  simp only [Ledger.heard, ← hb]

/-- After its first report an event can only report the start or the failure of an operation. -/
theorem reports_eq (config : CircuitBreakerConfig) (w : World) (e : Event) :
    ∃ rest, reports config w e = e.action.report :: rest ∧
      ∀ r ∈ rest, (∃ op, r = .started op) ∨ ∃ op, r = .failure op := by
  cases ha : e.action with
  | execute =>
    refine ⟨(startedBy config w e).toList.map .started, by simp [reports, ha, Action.report], ?_⟩
    intro r hr
    obtain ⟨op, -, rfl⟩ := List.mem_map.mp hr
    exact .inl ⟨op, rfl⟩
  | settled op outcome =>
    rcases outcome with ⟨⟩ | ⟨⟩
    · exact ⟨[], by simp [reports, ha, Action.report], by simp⟩
    · simp only [reports, ha, Action.report]
      split
      · exact ⟨[], rfl, by simp⟩
      · exact ⟨[.failure op], rfl, by simp⟩
  | «open» => exact ⟨[], by simp [reports, ha, Action.report], by simp⟩
  | close => exact ⟨[], by simp [reports, ha, Action.report], by simp⟩
  | reset => exact ⟨[], by simp [reports, ha, Action.report], by simp⟩

/-- **The invariant rule for ledgers.** What the first report of an event establishes, and the start
or the failure of an operation preserves, holds after the event. -/
theorem heard_step {P : Heard → Prop} {L L' : Ledger} {e : Event}
    (h : (ledger config).step L e = some L') (hfirst : P (L.heard.hear config e e.action.report))
    (hrest : ∀ h r, ((∃ op, r = .started op) ∨ ∃ op, r = .failure op) → P h →
      P (h.hear config e r)) : P L'.heard := by
  obtain ⟨rest, hreports, hkinds⟩ := reports_eq config L.world e
  rw [(ledger_step h).2, hreports, List.foldl_cons]
  generalize L.heard.hear config e e.action.report = h₁ at hfirst
  clear hreports
  induction rest generalizing h₁ with
  | nil => exact hfirst
  | cons r rest ih =>
    exact ih (fun r' hr' => hkinds r' (List.mem_cons_of_mem _ hr')) _
      (hrest _ _ (hkinds r List.mem_cons_self) hfirst)

end KitiumJobQueue.CircuitBreaker
