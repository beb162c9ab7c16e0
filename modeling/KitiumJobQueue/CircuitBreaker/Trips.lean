import KitiumJobQueue.CircuitBreaker.Ledger
import Mathlib.Data.List.Count

/-!
# Trips

A closed breaker that opens because of a failure is to do so on the outcomes reported since it last
entered CLOSED. The code decides by counters that only `reset` sets back to zero: `close` and the
closing by itself leave in them what tripped the breaker before. `tally` says what the counters of a
breaker are that has heard of a list of outcomes and of nothing before them. When the counters that
decide are zero at every entry to CLOSED (`ClosesAfresh`), they stay the tally of the outcomes since
then, and a trip is one those outcomes justify (`trippedByWindow_of_run`).
-/

namespace KitiumJobQueue.CircuitBreaker

open Effects History

/-- What a report says of an operation. -/
inductive Outcome
  | success
  | failure
  deriving DecidableEq

/-- The outcome reported. -/
def Report.outcome? : Report → Option Outcome
  | .success _ => some .success
  | .failure _ => some .failure
  | .gate | .started _ | .open | .close | .reset => none

/-- The outcomes in a part of a log, newest first. -/
def outcomes (log : List Mark) : List Outcome := log.filterMap fun m => m.report.outcome?

/-- The outcomes meet a threshold: a number of them, up to the newest, are all failures, or there
are enough of them and the share of failures, as doubles have it, is high enough. -/
def Meets (threshold : FailureThreshold) (os : List Outcome) : Prop :=
  match threshold with
  | .count n => ∃ k ≤ os.length, n ≤ (k : ℚ) ∧ ∀ o ∈ os.take k, o = .failure
  | .share percentage minRequests =>
    minRequests.getD 5 ≤ (os.length : ℚ) ∧
      percentage ≤ failurePercentage (os.count .failure) os.length

instance (threshold : FailureThreshold) (os : List Outcome) : Decidable (Meets threshold os) :=
  match threshold with
  | .count n => inferInstanceAs
      (Decidable (∃ k ≤ os.length, n ≤ (k : ℚ) ∧ ∀ o ∈ os.take k, o = .failure))
  | .share percentage minRequests => inferInstanceAs (Decidable
      (minRequests.getD 5 ≤ (os.length : ℚ) ∧
        percentage ≤ failurePercentage (os.count .failure) os.length))

/-- When a failure takes the breaker from CLOSED to OPEN, the outcomes reported since it last
entered CLOSED meet the threshold. -/
def TrippedByWindow (threshold : FailureThreshold) (m : Mark) (earlier : List Mark) : Prop :=
  m.report.IsFailure → m.before = .closed → m.after = .open →
    Meets threshold (outcomes (m :: sinceEntering .closed earlier))

instance (threshold : FailureThreshold) (m : Mark) (earlier : List Mark) :
    Decidable (TrippedByWindow threshold m earlier) :=
  inferInstanceAs (Decidable (_ → _ → _ → _))

/-! ## Counters and outcomes -/

/-- The counters of a breaker that was told of these outcomes, the newest first. -/
def tally : List Outcome → Counters
  | [] => {}
  | .success :: os => (tally os).succeed
  | .failure :: os => (tally os).fail

theorem tally_counts (os : List Outcome) :
    (tally os).successCount + (tally os).failureCount = os.length ∧
      (tally os).failureCount = os.count .failure := by
  induction os with
  | nil => exact ⟨rfl, rfl⟩
  | cons o os ih =>
    obtain ⟨hlen, hfail⟩ := ih
    cases o <;> simp [tally, Counters.succeed, Counters.fail, hfail, ← hlen] <;> omega

theorem tally_streak (os : List Outcome) :
    (tally os).consecutiveFailures ≤ os.length ∧
      ∀ o ∈ os.take (tally os).consecutiveFailures, o = .failure := by
  induction os with
  | nil => simp [tally]
  | cons o os ih =>
    cases o with
    | success => simp [tally, Counters.succeed]
    | failure => simpa [tally, Counters.fail] using ih

/-- What trips the tallied counters are outcomes that meet the threshold. -/
theorem meets_of_trips {threshold : FailureThreshold} {os : List Outcome}
    (h : (tally os).Trips threshold) : Meets threshold os := by
  cases threshold with
  | count n => exact ⟨_, (tally_streak os).1, h, (tally_streak os).2⟩
  | share percentage minRequests =>
    obtain ⟨hlen, hfail⟩ := tally_counts os
    simp only [Counters.Trips] at h
    rw [hlen, hfail] at h
    exact h

/-- The counters that a form of threshold reads are the same. -/
def Agree (threshold : FailureThreshold) (c c' : Counters) : Prop :=
  match threshold with
  | .count _ => c.consecutiveFailures = c'.consecutiveFailures
  | .share _ _ => c.successCount = c'.successCount ∧ c.failureCount = c'.failureCount

instance (threshold : FailureThreshold) (c c' : Counters) : Decidable (Agree threshold c c') :=
  match threshold with
  | .count _ => inferInstanceAs (Decidable (c.consecutiveFailures = c'.consecutiveFailures))
  | .share _ _ => inferInstanceAs
      (Decidable (c.successCount = c'.successCount ∧ c.failureCount = c'.failureCount))

variable {threshold : FailureThreshold} {c c' : Counters}

theorem Agree.of_eq (h : c = c') : Agree threshold c c' := by
  subst h
  cases threshold with
  | count n => rfl
  | share percentage minRequests => exact ⟨rfl, rfl⟩

theorem Agree.succeed (h : Agree threshold c c') : Agree threshold c.succeed c'.succeed := by
  cases threshold with
  | count n => rfl
  | share percentage minRequests => exact ⟨congrArg (· + 1) h.1, h.2⟩

theorem Agree.fail (h : Agree threshold c c') : Agree threshold c.fail c'.fail := by
  cases threshold with
  | count n => exact congrArg (· + 1) h
  | share percentage minRequests => exact ⟨h.1, congrArg (· + 1) h.2⟩

theorem Agree.trips (h : Agree threshold c c') (ht : c.Trips threshold) : c'.Trips threshold := by
  cases threshold with
  | count n =>
    simp only [Agree] at h
    simpa only [Counters.Trips, h] using ht
  | share percentage minRequests =>
    simpa only [Counters.Trips, h.1, h.2] using ht

/-! ## The counters of a closed breaker -/

variable {config : CircuitBreakerConfig}

/-- When the breaker enters CLOSED, by `close` or by itself, the counters that decide are zero. -/
def ClosesAfresh (config : CircuitBreakerConfig) (L : Ledger) (e : Event) : Prop :=
  (e.action = .close → L.world.breaker.state ≠ .closed →
      Agree config.failureThreshold L.world.breaker.counters {}) ∧
    ∀ op, e.action = .settled op (.ok ()) → L.world.breaker.state = .halfOpen →
      config.successThreshold.getD 2 ≤
        (L.world.breaker.counters.succeed.consecutiveSuccesses : ℚ) →
      Agree config.failureThreshold L.world.breaker.counters.succeed {}

instance (L : Ledger) (e : Event) : Decidable (ClosesAfresh config L e) :=
  match ha : e.action with
  | .close => decidable_of_iff (L.world.breaker.state ≠ .closed →
      Agree config.failureThreshold L.world.breaker.counters {}) (by simp [ClosesAfresh, ha])
  | .settled op (.ok ()) => decidable_of_iff (L.world.breaker.state = .halfOpen →
      config.successThreshold.getD 2 ≤
        (L.world.breaker.counters.succeed.consecutiveSuccesses : ℚ) →
      Agree config.failureThreshold L.world.breaker.counters.succeed {})
      (by simp [ClosesAfresh, ha])
  | .settled _ (.error ()) | .execute | .open | .reset => .isTrue (by simp [ClosesAfresh, ha])

/-- The counters of a closed breaker are those of the outcomes since it became so. -/
def Windowed (config : CircuitBreakerConfig) (h : Heard) : Prop :=
  h.breaker.state = .closed →
    Agree config.failureThreshold h.breaker.counters
      (tally (outcomes (sinceEntering .closed h.log)))

/-- A report that enters CLOSED finds the counters that decide at zero. -/
structure Fresh (config : CircuitBreakerConfig) (h : Heard) (r : Report) : Prop where
  close : r = .close → h.breaker.state ≠ .closed →
    Agree config.failureThreshold h.breaker.counters {}
  success : ∀ op, r = .success op → h.breaker.state = .halfOpen →
    config.successThreshold.getD 2 ≤ (h.breaker.counters.succeed.consecutiveSuccesses : ℚ) →
    Agree config.failureThreshold h.breaker.counters.succeed {}

theorem Fresh.other {h : Heard} {r : Report} (hc : r ≠ .close) (hs : r.outcome? ≠ some .success) :
    Fresh config h r where
  close h' := absurd h' hc
  success op h' := by simp [h', Report.outcome?] at hs

/-- A breaker that enters CLOSED with the counters that decide at zero. -/
theorem Windowed.enter {e : Event} {h : Heard} {r : Report}
    (hs : h.breaker.state ≠ .closed ∨ r = .reset)
    (hc : (h.hear config e r).breaker.state = .closed →
      Agree config.failureThreshold (h.hear config e r).breaker.counters {}) :
    Windowed config (h.hear config e r) := by
  intro hs'
  have henters : Mark.enters .closed ⟨r, h.breaker.state, (h.hear config e r).breaker.state⟩ =
      true := by simp [Mark.enters, hs, hs']
  have hsince : sinceEntering .closed (h.hear config e r).log = [] := since_cons_of_pos henters
  rw [hsince]
  exact hc hs'

/-- What a report does to the counters. -/
theorem counters_hear {e : Event} {h : Heard} {r : Report} (hr : r ≠ .reset) :
    (h.hear config e r).breaker.counters = match r.outcome? with
      | some .success => h.breaker.counters.succeed
      | some .failure => h.breaker.counters.fail
      | none => h.breaker.counters := by
  cases r with
  | gate => exact (executeStart_effect (ε := Unit) config e.throws e.now h.breaker).1
  | started op => rfl
  | success op => exact (onSuccess_effect (ε := Unit) config e.throws e.now h.breaker).1
  | failure op => exact (onFailure_effect (ε := Unit) config e.throws e.now h.breaker).1
  | «open» => exact (transitionTo_effect config e.throws e.now .open h.breaker).2
  | close => exact (transitionTo_effect config e.throws e.now .closed h.breaker).2
  | reset => exact absurd rfl hr

/-- A closed breaker that hears a report counts the outcome in it. -/
theorem Windowed.agree_hear {e : Event} {h : Heard} {r : Report} (hw : Windowed config h)
    (hs : h.breaker.state = .closed) (hr : r ≠ .reset) :
    Agree config.failureThreshold (h.hear config e r).breaker.counters
      (tally (outcomes (sinceEntering .closed (h.hear config e r).log))) := by
  have hmark : Mark.enters .closed ⟨r, h.breaker.state, (h.hear config e r).breaker.state⟩ =
      false := by simp [Mark.enters, hs, hr]
  have hsince : sinceEntering .closed (h.hear config e r).log =
      ⟨r, h.breaker.state, (h.hear config e r).breaker.state⟩ :: sinceEntering .closed h.log :=
    since_cons_of_neg hmark
  have hagree := hw hs
  rw [hsince, counters_hear hr]
  cases ho : r.outcome? with
  | none => simpa [outcomes, ho] using hagree
  | some o =>
    cases o with
    | success => simpa [outcomes, ho, tally] using hagree.succeed
    | failure => simpa [outcomes, ho, tally] using hagree.fail

/-- The reports at which a breaker that is not CLOSED becomes so. -/
theorem closed_hear {e : Event} {h : Heard} {r : Report} (hs : h.breaker.state ≠ .closed)
    (hs' : (h.hear config e r).breaker.state = .closed) :
    (∃ op, r = .success op ∧ h.breaker.state = .halfOpen ∧
        config.successThreshold.getD 2 ≤ (h.breaker.counters.succeed.consecutiveSuccesses : ℚ)) ∨
      r = .close ∨ r = .reset := by
  cases r with
  | gate =>
    have hstate := (executeStart_effect (ε := Unit) config e.throws e.now h.breaker).2
    split_ifs at hstate
    · exact absurd (hstate.symm.trans hs') (by simp)
    · exact absurd (hstate.symm.trans hs') hs
  | started op => exact absurd hs' hs
  | success op =>
    have hstate := (onSuccess_effect (ε := Unit) config e.throws e.now h.breaker).2
    split_ifs at hstate with hcloses
    · exact .inl ⟨op, rfl, hcloses.1, hcloses.2⟩
    · exact absurd (hstate.symm.trans hs') hs
  | failure op =>
    have hstate := (onFailure_effect (ε := Unit) config e.throws e.now h.breaker).2
    split_ifs at hstate
    · exact absurd (hstate.symm.trans hs') (by simp)
    · exact absurd (hstate.symm.trans hs') hs
  | «open» =>
    have hstate : (h.hear config e .open).breaker.state = .open :=
      (transitionTo_effect config e.throws e.now .open h.breaker).1
    exact absurd (hstate.symm.trans hs') (by simp)
  | close => exact .inr (.inl rfl)
  | reset => exact .inr (.inr rfl)

theorem windowed_hear {e : Event} {h : Heard} {r : Report} (hw : Windowed config h)
    (hf : Fresh config h r) : Windowed config (h.hear config e r) := by
  by_cases hs : h.breaker.state = .closed
  · by_cases hr : r = .reset
    · subst hr
      exact .enter (.inr rfl) fun _ => .of_eq (reset_effect config e.throws e.now h.breaker).2
    · exact fun _ => hw.agree_hear hs hr
  · refine .enter (.inl hs) fun hs' => ?_
    rcases closed_hear hs hs' with ⟨op, rfl, hhalf, hthreshold⟩ | rfl | rfl
    · rw [counters_hear (by simp)]
      exact hf.success op rfl hhalf hthreshold
    · rw [counters_hear (by simp)]
      exact hf.close rfl hs
    · exact .of_eq (reset_effect config e.throws e.now h.breaker).2

/-! ## Runs -/

/-- A failure that trips a closed breaker is justified by the outcomes since it became so. -/
theorem trippedByWindow_hear {e : Event} {h : Heard} {r : Report} (hw : Windowed config h) :
    TrippedByWindow config.failureThreshold
      ⟨r, h.breaker.state, (h.hear config e r).breaker.state⟩ h.log := by
  intro hr hs hs'
  replace hs : h.breaker.state = .closed := hs
  replace hs' : (h.hear config e r).breaker.state = .open := hs'
  cases r with
  | failure op =>
    have hstate := (onFailure_effect (ε := Unit) config e.throws e.now h.breaker).2
    have htrips : h.breaker.counters.fail.Trips config.failureThreshold := by
      by_contra hnot
      rw [if_neg (by simp [hs, hnot]), hs] at hstate
      exact absurd (hstate.symm.trans hs') (by simp)
    simpa [outcomes, Report.outcome?] using
      @meets_of_trips _ (.failure :: outcomes (sinceEntering .closed h.log))
        ((hw hs).fail.trips htrips)
  | gate | started | success | «open» | close | reset => exact hr.elim

/-- What hearing a report keeps that enters CLOSED afresh or not at all. -/
structure TrippedSoFar (config : CircuitBreakerConfig) (h : Heard) : Prop where
  windowed : Windowed config h
  tripped : Always (TrippedByWindow config.failureThreshold) h.log

theorem TrippedSoFar.hear {e : Event} {h : Heard} {r : Report} (hh : TrippedSoFar config h)
    (hf : Fresh config h r) : TrippedSoFar config (h.hear config e r) :=
  ⟨windowed_hear hh.windowed hf, trippedByWindow_hear hh.windowed, hh.tripped⟩

/-- A step that closes the breaker afresh or not at all keeps the invariant. -/
theorem trippedSoFar_step {L L' : Ledger} {e : Event} (hL : TrippedSoFar config L.heard)
    (hc : ClosesAfresh config L e) (h : (ledger config).step L e = some L') :
    TrippedSoFar config L'.heard := by
  have hfirst : Fresh config L.heard e.action.report := by
    cases ha : e.action with
    | close => exact ⟨fun _ => hc.1 ha, fun _ h' => by cases h'⟩
    | settled op outcome =>
      rcases outcome with ⟨⟩ | ⟨⟩
      · exact .other (by simp [Action.report]) (by simp [Action.report, Report.outcome?])
      · exact ⟨fun h' => (by cases h'), fun _ _ => hc.2 op ha⟩
    | execute | «open» | reset =>
      exact .other (by simp [Action.report]) (by simp [Action.report, Report.outcome?])
  refine heard_step h (hL.hear hfirst) fun h r hr hh => hh.hear ?_
  rcases hr with ⟨op, rfl⟩ | ⟨op, rfl⟩ <;> exact .other (by simp) (by simp [Report.outcome?])

/-- **A closed breaker trips on the outcomes since it became so**, in every run in which it enters
CLOSED only with the counters that decide at zero. -/
theorem trippedByWindow_of_run {t₀ : ℚ} {es : List Event} {L : Ledger}
    (hC : (ledger config).StepsMeet (ClosesAfresh config) (Ledger.init t₀) es)
    (hrun : (ledger config).runFrom (Ledger.init t₀) es = some L) :
    Always (TrippedByWindow config.failureThreshold) L.log := by
  have hinit : TrippedSoFar config (Ledger.init t₀).heard := ⟨fun _ => .of_eq rfl, trivial⟩
  exact (System.invariant_of_stepsMeet (I := fun L => TrippedSoFar config L.heard)
    (fun _ _ _ hL hc h => trippedSoFar_step hL hc h) hinit hC hrun).tripped

/-- Two failures trip the breaker; after a reset, two more do. -/
def twoOutages : List Event :=
  [Action.execute.at 0, (Action.settled 0 (.error ())).at 1, Action.execute.at 2,
    (Action.settled 1 (.error ())).at 3, Action.reset.at 5, Action.execute.at 6,
    (Action.settled 2 (.error ())).at 7, Action.execute.at 8, (Action.settled 3 (.error ())).at 9]

/-- After a reset the breaker is tripped by two new failures. -/
theorem trippedByWindow_twoOutages :
    ∃ L ∈ (ledger ⟨"payments", .count 2, none, none, false⟩).runFrom (Ledger.init 0) twoOutages,
      L.world.breaker.state = .open ∧ Always (TrippedByWindow (.count 2)) L.log := by
  obtain ⟨L, hrun, hopen⟩ : ∃ L ∈
      (ledger ⟨"payments", .count 2, none, none, false⟩).runFrom (Ledger.init 0) twoOutages,
      L.world.breaker.state = .open := by decide +kernel
  exact ⟨L, hrun, hopen, trippedByWindow_of_run (by decide +kernel) hrun⟩

/-- Two failures trip the breaker; after `close`, one operation fails. -/
def oneMoreFailure : List Event :=
  [Action.execute.at 0, (Action.settled 0 (.error ())).at 1, Action.execute.at 2,
    (Action.settled 1 (.error ())).at 3, Action.close.at 5, Action.execute.at 6,
    (Action.settled 2 (.error ())).at 7]

/-- The failures before `close` still count: one failure trips the breaker again, where two are
asked for. -/
theorem not_trippedByWindow_oneMoreFailure :
    ∃ L ∈ (ledger ⟨"payments", .count 2, none, none, false⟩).runFrom (Ledger.init 0) oneMoreFailure,
      ¬ Always (TrippedByWindow (.count 2)) L.log := by
  decide +kernel

end KitiumJobQueue.CircuitBreaker
