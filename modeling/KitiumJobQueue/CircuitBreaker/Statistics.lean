import KitiumJobQueue.CircuitBreaker.Trips
import Mathlib.Data.List.Induction

/-!
# The statistics of a circuit breaker

A breaker without a callback counts every operation once, whatever state it is in when the operation
ends, and only `reset` takes the counters back. So they are always the `tally` of the operations
that have ended since the last `reset` (`statistics_afterEvents`): the totals are the numbers of
successes and failures, and the streaks are the runs of equal outcomes up to the newest. A callback
that throws would have a success counted as a failure as well.
-/

namespace KitiumJobQueue.CircuitBreaker

open Effects History

/-! ## Histories and statistics -/

/-- The breaker after a sequence of events, which need not come at rising times. -/
def afterEvents (config : CircuitBreakerConfig) (es : List Event) : CircuitBreaker :=
  es.foldl (fun b e => ((react config e).run b).2) {}

/-- How the operation ended, if the event ended one. -/
def Event.outcome? (e : Event) : Option Outcome :=
  match e.action with
  | .settled _ (.ok _) => some .success
  | .settled _ (.error _) => some .failure
  | .execute | .open | .close | .reset => none

/-- The outcomes of the operations that ended since the last `reset`, newest first. -/
def outcomesSinceReset (es : List Event) : List Outcome :=
  (since (fun e => e.action = .reset) es.reverse).filterMap Event.outcome?

/-- How many of the newest outcomes are `o`, up to the first other one. -/
def streak (o : Outcome) (os : List Outcome) : ℕ := (os.takeWhile (· = o)).length

/-- What a percentage rule divides by. -/
def totalRequests (stats : CircuitBreakerStats) : ℚ := stats.successCount + stats.failureCount

/-- What `getStats` tells of a breaker whose operations ended with these outcomes. `shouldOpen` is
asked about the statistics with one more failure counted. -/
structure Statistics (b : CircuitBreaker) (os : List Outcome) : Prop where
  state : b.getStats.state = b.getState
  successCount : b.getStats.successCount = os.count .success
  failureCount : b.getStats.failureCount = os.count .failure
  consecutiveSuccesses : b.getStats.consecutiveSuccesses = streak .success os
  consecutiveFailures : b.getStats.consecutiveFailures = streak .failure os
  oneStreak : b.getStats.consecutiveSuccesses = 0 ∨ b.getStats.consecutiveFailures = 0
  divides : ∀ now, totalRequests (countFailure now b).getStats ≠ 0

/-! ## The tally -/

theorem tally_successCount (os : List Outcome) : (tally os).successCount = os.count .success := by
  induction os with
  | nil => rfl
  | cons o os ih =>
    cases o with
    | success => simp [tally, Counters.succeed, ih]
    | failure => simpa [tally, Counters.fail] using ih

theorem tally_consecutiveSuccesses (os : List Outcome) :
    (tally os).consecutiveSuccesses = streak .success os := by
  induction os with
  | nil => rfl
  | cons o os ih =>
    cases o with
    | success => simp [tally, Counters.succeed, streak, ih]
    | failure => simp [tally, Counters.fail, streak]

theorem tally_consecutiveFailures (os : List Outcome) :
    (tally os).consecutiveFailures = streak .failure os := by
  induction os with
  | nil => rfl
  | cons o os ih =>
    cases o with
    | success => simp [tally, Counters.succeed, streak]
    | failure => simp [tally, Counters.fail, streak, ih]

/-- Only the newest outcome has a streak. -/
theorem streak_eq_zero (os : List Outcome) : streak .success os = 0 ∨ streak .failure os = 0 := by
  cases os with
  | nil => exact .inl rfl
  | cons o os =>
    cases o with
    | success => exact .inr (by simp [streak])
    | failure => exact .inl (by simp [streak])

/-! ## One event -/

section Methods

variable {ε : Type} (config : CircuitBreakerConfig) (throws : CallbackThrows) (now : ℚ)

/-- The copy of the state in the statistics is right. -/
def Mirrored (b : CircuitBreaker) : Prop := b.stats.state = b.state

theorem mirrored_transitionTo {newState : CircuitBreakerState} {b : CircuitBreaker}
    (h : Mirrored b ∨ b.stats.state = newState) :
    Mirrored ((transitionTo (ε := ε) config throws now newState).run b).2 := by
  by_cases hs : b.state = newState
  · rw [transitionTo_of_eq _ _ _ hs]
    exact h.elim id fun h => h.trans hs.symm
  · obtain ⟨calls, hcalls⟩ := transitionTo_snd_of_ne (ε := ε) config throws now hs
    rw [hcalls]
    rfl

theorem preserves_transitionTo (newState : CircuitBreakerState) :
    (transitionTo (ε := ε) config throws now newState).Preserves Mirrored :=
  fun _ h => mirrored_transitionTo config throws now (.inl h)

theorem preserves_onSuccess : (onSuccess (ε := ε) config throws now).Preserves Mirrored := by
  refine .bind (.modify fun _ h => h) fun _ => .read_bind fun b h => ?_
  split
  · split
    · exact preserves_transitionTo config throws now _ b h
    · exact h
  · exact h

theorem preserves_onFailure : (onFailure (ε := ε) config throws now).Preserves Mirrored := by
  refine .bind (.modify fun _ h => h) fun _ => .read_bind fun b h => ?_
  split
  · exact preserves_transitionTo config throws now _ b h
  · exact h

theorem preserves_executeStart : (executeStart (ε := ε) config throws now).Preserves Mirrored := by
  intro b h
  rcases executeStart_cases (ε := ε) config throws now b with ⟨-, -, e, hrun⟩ | ⟨ho, hnow, -⟩ |
    ⟨-, hrun⟩
  · rwa [hrun]
  · have hrun : (executeStart (ε := ε) config throws now).run b =
        (transitionTo config throws now .halfOpen).run b := by
      simp [executeStart, Async.run_bind, ho, not_lt.mpr hnow]
    rw [hrun]
    exact preserves_transitionTo config throws now _ b h
  · rwa [hrun]

theorem preserves_react (e : Event) : (react config e).Preserves Mirrored := by
  unfold react
  cases e.action with
  | execute => exact preserves_executeStart config e.throws e.now
  | settled op outcome =>
    refine .handle ?_ fun error =>
      .bind (preserves_onFailure config e.throws e.now) fun _ => .throw error
    cases outcome with
    | ok u => exact .bind (preserves_onSuccess config e.throws e.now) fun _ => .pure u
    | error u => exact .throw _
  | «open» => exact preserves_transitionTo config e.throws e.now _
  | close => exact preserves_transitionTo config e.throws e.now _
  | reset => exact fun b _ => mirrored_transitionTo config e.throws e.now (.inr rfl)

end Methods

variable {config : CircuitBreakerConfig}

/-- What an event does to the counters of a breaker without a callback. -/
theorem counters_react (hcallback : config.onStateChange = false) (e : Event)
    (b : CircuitBreaker) :
    ((react config e).run b).2.counters =
      match e.action with
      | .settled _ (.ok _) => b.counters.succeed
      | .settled _ (.error _) => b.counters.fail
      | .reset => {}
      | .execute | .open | .close => b.counters := by
  cases ha : e.action with
  | execute =>
    rw [react, ha]
    exact (executeStart_effect config e.throws e.now b).1
  | settled op outcome =>
    rw [react, ha]
    cases outcome with
    | ok u =>
      -- without a callback nothing throws, so the success is not counted as a failure as well
      have hsuccess := (onSuccess_effect (ε := Unit) config e.throws e.now b).1
      have hresolves : (onSuccess (ε := Unit) config e.throws e.now).Resolves :=
        resolves_onSuccess fun h => absurd (hcallback.symm.trans h) Bool.false_ne_true
      obtain ⟨v, b', hrun⟩ := hresolves b
      rw [hrun] at hsuccess
      have hend : (executeEnd config e.throws e.now (.ok u)).run b = (.ok u, b') :=
        Async.run_tryCatch_of_ok (Async.run_bind_of_ok hrun)
      rw [hend, hsuccess]
    | error u =>
      have hend : (executeEnd (α := Unit) config e.throws e.now (.error u)).run b =
          (onFailure config e.throws e.now >>= fun _ => throw (.operation u)).run b := rfl
      rw [hend, Async.Keeps.run_bind (f := counters) _ fun _ => .throw _]
      exact (onFailure_effect config e.throws e.now b).1
  | «open» =>
    rw [react, ha]
    exact (transitionTo_effect config e.throws e.now .open b).2
  | close =>
    rw [react, ha]
    exact (transitionTo_effect config e.throws e.now .closed b).2
  | reset =>
    rw [react, ha]
    exact (reset_effect config e.throws e.now b).2

/-! ## Sequences of events -/

/-- The outcomes since the last `reset` after one more event. -/
theorem outcomesSinceReset_concat (es : List Event) (e : Event) :
    outcomesSinceReset (es ++ [e]) =
      if e.action = .reset then [] else e.outcome?.toList ++ outcomesSinceReset es := by
  unfold outcomesSinceReset
  rw [List.reverse_concat]
  split
  · next hr => rw [since_cons_of_pos (by simpa using hr), List.filterMap_nil]
  · next hr =>
    rw [since_cons_of_neg (by simpa using hr)]
    cases h : e.outcome? <;> simp [h]

theorem mirrored_afterEvents (config : CircuitBreakerConfig) (es : List Event) :
    Mirrored (afterEvents config es) := by
  induction es using List.reverseRecOn with
  | nil => rfl
  | append_singleton es e ih =>
    rw [afterEvents, List.foldl_concat]
    exact preserves_react config e _ ih

/-- The counters are the tally of the outcomes since the last `reset`. -/
theorem counters_afterEvents (hcallback : config.onStateChange = false) (es : List Event) :
    (afterEvents config es).counters = tally (outcomesSinceReset es) := by
  induction es using List.reverseRecOn with
  | nil => rfl
  | append_singleton es e ih =>
    rw [afterEvents, List.foldl_concat, counters_react hcallback, outcomesSinceReset_concat]
    change (afterEvents config es).counters = _ at ih
    unfold afterEvents at ih
    cases ha : e.action with
    | execute | «open» | close => simpa [Event.outcome?, ha] using ih
    | settled op outcome => cases outcome <;> simp [Event.outcome?, ha, tally, ih]
    | reset => rfl

/-- **The statistics of a breaker without a callback are those of its history**, after every
sequence of events: the state they tell is the state, the totals count the operations that have
ended since the last `reset`, the streaks are the newest outcomes that agree, and a percentage rule
always has a request to divide by. -/
theorem statistics_afterEvents (hcallback : config.onStateChange = false) (es : List Event) :
    Statistics (afterEvents config es) (outcomesSinceReset es) := by
  have hc := counters_afterEvents hcallback es
  have hsuccesses := congrArg Counters.consecutiveSuccesses hc
  have hfailures := congrArg Counters.consecutiveFailures hc
  rw [tally_consecutiveSuccesses] at hsuccesses
  rw [tally_consecutiveFailures] at hfailures
  refine
    { state := mirrored_afterEvents config es
      successCount := (congrArg Counters.successCount hc).trans (tally_successCount _)
      failureCount := (congrArg Counters.failureCount hc).trans (tally_counts _).2
      consecutiveSuccesses := hsuccesses
      consecutiveFailures := hfailures
      oneStreak := (streak_eq_zero _).imp hsuccesses.trans hfailures.trans
      divides := fun now => ?_ }
  generalize afterEvents config es = b
  have hpos : 0 < b.stats.successCount + (b.stats.failureCount + 1) := by omega
  have hpos : (0 : ℚ) < totalRequests (countFailure now b).getStats := by
    unfold totalRequests
    exact_mod_cast hpos
  exact hpos.ne'

/-- One operation fails and, after a reset, one succeeds and two fail, the last of them late. -/
def lateFailure : List Event :=
  [Action.execute.at 0, (Action.settled 0 (.error ())).at 1, Action.reset.at 2, Action.execute.at 3,
    Action.execute.at 3, Action.execute.at 3, (Action.settled 1 (.ok ())).at 4,
    (Action.settled 2 (.error ())).at 5, Action.open.at 6, (Action.settled 3 (.error ())).at 7]

/-- `lateFailure` under a percentage rule that asks for no requests at all. -/
theorem statistics_lateFailure :
    outcomesSinceReset lateFailure = [.failure, .failure, .success] ∧
      Statistics (afterEvents ⟨"payments", .share 80 (some 0), none, none, false⟩ lateFailure)
        [.failure, .failure, .success] :=
  ⟨rfl, statistics_afterEvents rfl lateFailure⟩

end KitiumJobQueue.CircuitBreaker
