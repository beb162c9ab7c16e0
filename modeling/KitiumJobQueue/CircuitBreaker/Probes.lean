import KitiumJobQueue.CircuitBreaker.Ledger
import Mathlib.Data.Finset.Card

/-!
# Closing by probes

A half-open breaker is to close by itself only after `successThreshold` operations started since it
became half-open have succeeded and none has failed. The code decides by `consecutiveSuccesses`,
which no change of state touches: successes of a closed or open breaker are still in it when the
gate is passed, and a late operation adds to it. `closedByProbes_of_run` is the statement for the
runs in which neither happens (`CountsProbes`); the invariant is that the streak of a half-open
breaker is the number of the probes that have succeeded (`Probing`).
-/

namespace KitiumJobQueue.CircuitBreaker

open Effects History

/-- The operation a report starts. -/
def Report.started? : Report → Option ℕ
  | .started op => some op
  | .gate | .success _ | .failure _ | .open | .close | .reset => none

/-- The operation whose success is reported. -/
def Report.success? : Report → Option ℕ
  | .success op => some op
  | .gate | .started _ | .failure _ | .open | .close | .reset => none

/-- The operations started in a part of a log. -/
def started (log : List Mark) : List ℕ := log.filterMap fun m => m.report.started?

/-- The operations reported successful in a part of a log. -/
def succeeded (log : List Mark) : List ℕ := log.filterMap fun m => m.report.success?

/-- The operations both started and reported successful in a part of a log. -/
def probes (log : List Mark) : Finset ℕ := (started log).toFinset ∩ (succeeded log).toFinset

/-- The breaker goes from HALF_OPEN to CLOSED without `close` or `reset` being called. -/
def Mark.ClosesItself (m : Mark) : Prop :=
  m.before = .halfOpen ∧ m.after = .closed ∧ m.report ≠ .close ∧ m.report ≠ .reset

instance : DecidablePred Mark.ClosesItself := fun m =>
  inferInstanceAs (Decidable
    (m.before = .halfOpen ∧ m.after = .closed ∧ m.report ≠ .close ∧ m.report ≠ .reset))

/-- When the breaker closes by itself, at least `threshold` operations started since it last entered
HALF_OPEN have succeeded, and no failure was reported in that time. -/
def ClosedByProbes (threshold : ℚ) (m : Mark) (earlier : List Mark) : Prop :=
  m.ClosesItself →
    threshold ≤ (probes (m :: sinceEntering .halfOpen earlier)).card ∧
      ∀ m' ∈ m :: sinceEntering .halfOpen earlier, ¬ m'.report.IsFailure

instance (threshold : ℚ) (m : Mark) (earlier : List Mark) :
    Decidable (ClosedByProbes threshold m earlier) :=
  inferInstanceAs (Decidable (_ → _ ∧ _))

/-- The streak is empty when the gate is passed, and an operation that succeeds while the breaker
is half-open was started since it became so. -/
def CountsProbes (L : Ledger) (e : Event) : Prop :=
  (e.action = .execute → L.world.breaker.state = .open → L.world.breaker.nextAttemptAt ≤ e.now →
      L.world.breaker.stats.consecutiveSuccesses = 0) ∧
    ∀ op, e.action = .settled op (.ok ()) → L.world.breaker.state = .halfOpen →
      op ∈ started (sinceEntering .halfOpen L.log)

instance (L : Ledger) (e : Event) : Decidable (CountsProbes L e) :=
  match ha : e.action with
  | .execute => decidable_of_iff (L.world.breaker.state = .open →
      L.world.breaker.nextAttemptAt ≤ e.now → L.world.breaker.stats.consecutiveSuccesses = 0)
      (by simp [CountsProbes, ha])
  | .settled op (.ok ()) => decidable_of_iff (L.world.breaker.state = .halfOpen →
      op ∈ started (sinceEntering .halfOpen L.log)) (by simp [CountsProbes, ha])
  | .settled _ (.error ()) | .open | .close | .reset => .isTrue (by simp [CountsProbes, ha])

variable {config : CircuitBreakerConfig}

@[simp] theorem succeeded_cons (m : Mark) (log : List Mark) :
    succeeded (m :: log) = m.report.success?.toList ++ succeeded log := by
  cases h : m.report.success? <;> simp [succeeded, h]

@[simp] theorem started_cons (m : Mark) (log : List Mark) :
    started (m :: log) = m.report.started?.toList ++ started log := by
  cases h : m.report.started? <;> simp [started, h]

/-! ## Operations are settled once -/

/-- The operation whose success an event brings. -/
def succeededBy (e : Event) : List ℕ :=
  match e.action with
  | .settled op (.ok ()) => [op]
  | .settled _ (.error ()) | .execute | .open | .close | .reset => []

theorem succeeded_foldl_hear (e : Event) (rs : List Report) (h : Heard) :
    succeeded (rs.foldl (Heard.hear config e) h).log =
      rs.reverse.filterMap Report.success? ++ succeeded h.log := by
  induction rs generalizing h with
  | nil => rfl
  | cons r rs ih =>
    cases hr : r.success? <;> simp [ih, Heard.hear, hr]

theorem reports_success (w : World) (e : Event) :
    (reports config w e).reverse.filterMap Report.success? = succeededBy e := by
  cases ha : e.action with
  | execute =>
    cases hs : startedBy config w e <;>
      simp [reports, succeededBy, ha, hs, Report.success?]
  | settled op outcome =>
    rcases outcome with ⟨⟩ | ⟨⟩
    · simp [reports, succeededBy, ha, Report.success?]
    · simp only [reports, succeededBy, ha]
      split <;> rfl
  | «open» => simp [reports, succeededBy, ha, Report.success?]
  | close => simp [reports, succeededBy, ha, Report.success?]
  | reset => simp [reports, succeededBy, ha, Report.success?]

/-- An event adds the success it brings to the log. -/
theorem succeeded_step {L L' : Ledger} {e : Event} (h : (ledger config).step L e = some L') :
    succeeded L'.log = succeededBy e ++ succeeded L.log := by
  have hlog := congrArg Heard.log (ledger_step h).2
  simp only [Ledger.heard] at hlog
  rw [hlog, succeeded_foldl_hear, reports_success]

/-- What a step does to the operations. -/
theorem step_operations {w w' : World} {e : Event} (h : (system config).step w e = some w') :
    e.Enabled w ∧ w'.inFlight = inFlightAfter config w e ∧
      w'.started = w.started + (startedBy config w e).toList.length := by
  simp only [system] at h
  split_ifs at h with he
  obtain rfl := Option.some.inj h
  exact ⟨he, rfl, rfl⟩

/-- The operation an event starts gets the next number. -/
theorem startedBy_cases (w : World) (e : Event) :
    startedBy config w e = none ∨
      startedBy config w e = some w.started ∧ e.action = .execute := by
  unfold startedBy
  split
  all_goals first | exact .inl rfl | exact .inr ⟨rfl, ‹_›⟩

/-- The operations in flight and those reported successful. -/
def Ledger.operations (L : Ledger) : List ℕ := L.world.inFlight ++ succeeded L.log

/-- Operations are numbered in the order of their start, and none is in flight or reported
successful twice. -/
structure Numbered (L : Ledger) : Prop where
  nodup : L.operations.Nodup
  lt_started : ∀ op ∈ L.operations, op < L.world.started

theorem numbered_init (t₀ : ℚ) : Numbered (Ledger.init t₀) :=
  ⟨List.nodup_nil, fun _ h => by simp [Ledger.operations, Ledger.init, World.init, succeeded] at h⟩

/-- A step starts the operation with the next number, or it settles operations. -/
theorem operations_step {L L' : Ledger} {e : Event} (h : (ledger config).step L e = some L') :
    L'.world.started = L.world.started ∧ List.Subperm L'.operations L.operations ∨
      L'.world.started = L.world.started + 1 ∧
        L'.operations = L.world.started :: L.operations := by
  obtain ⟨⟨-, hen⟩, hflight, hstarted⟩ := step_operations (ledger_step h).1
  have hsucc := succeeded_step h
  rcases @startedBy_cases config L.world e with hs | ⟨hs, ha⟩
  · refine .inl ⟨by simp [hstarted, hs], ?_⟩
    rw [Ledger.operations, Ledger.operations, hsucc, hflight, inFlightAfter, hs]
    cases ha : e.action with
    | settled op outcome =>
      have hmem : op ∈ L.world.inFlight := hen op outcome ha
      rcases outcome with ⟨⟩ | ⟨⟩
      · simp only [succeededBy, ha, List.nil_append]
        exact ((List.erase_sublist).append_right _).subperm
      · simp only [succeededBy, ha]
        refine List.Perm.subperm ?_
        calc L.world.inFlight.erase op ++ ([op] ++ succeeded L.log)
            _ = L.world.inFlight.erase op ++ [op] ++ succeeded L.log := by simp
            List.Perm _ (L.world.inFlight ++ succeeded L.log) :=
              .append_right _
                ((List.perm_append_singleton op _).trans (List.perm_cons_erase hmem).symm)
    | execute => simp [succeededBy, ha, List.Subperm.refl]
    | «open» => simp [succeededBy, ha, List.Subperm.refl]
    | close => simp [succeededBy, ha, List.Subperm.refl]
    | reset => simp [succeededBy, ha, List.Subperm.refl]
  · refine .inr ⟨by simp [hstarted, hs], ?_⟩
    simp [Ledger.operations, hsucc, hflight, inFlightAfter, ha, hs, succeededBy]

theorem numbered_step {L L' : Ledger} {e : Event} (hL : Numbered L)
    (h : (ledger config).step L e = some L') : Numbered L' := by
  rcases operations_step h with ⟨hstarted, hops⟩ | ⟨hstarted, hops⟩
  · obtain ⟨l, hperm, hsub⟩ := hops
    refine ⟨hperm.nodup_iff.mp (hL.nodup.sublist hsub), fun op hop => ?_⟩
    rw [hstarted]
    exact hL.lt_started op (hsub.subset (hperm.mem_iff.mpr hop))
  · refine ⟨?_, fun op hop => ?_⟩
    · rw [hops]
      exact List.nodup_cons.mpr ⟨fun hmem => absurd (hL.lt_started _ hmem) (lt_irrefl _), hL.nodup⟩
    · rw [hops] at hop
      rcases List.mem_cons.mp hop with rfl | hop
      · omega
      · have := hL.lt_started op hop
        omega

/-! ## The streak of a half-open breaker -/

/-- While the breaker is half-open, its streak is the number of operations reported successful since
it became so; they were started since then, and no failure was reported. -/
def Probing (h : Heard) : Prop :=
  h.breaker.state = .halfOpen →
    h.breaker.counters.consecutiveSuccesses = (succeeded (sinceEntering .halfOpen h.log)).length ∧
      (∀ op ∈ succeeded (sinceEntering .halfOpen h.log),
        op ∈ started (sinceEntering .halfOpen h.log)) ∧
      ∀ m ∈ sinceEntering .halfOpen h.log, ¬ m.report.IsFailure

/-- The report is one `CountsProbes` allows: of a gate passed with an empty streak, of a success of
a probe, or another one. -/
structure Counted (e : Event) (h : Heard) (r : Report) : Prop where
  gate : r = .gate → h.breaker.state = .open → h.breaker.nextAttemptAt ≤ e.now →
    h.breaker.counters.consecutiveSuccesses = 0
  probe : ∀ op, r = .success op → h.breaker.state = .halfOpen →
    op ∈ started (sinceEntering .halfOpen h.log)
  once : ∀ op, r = .success op → op ∉ succeeded h.log

theorem Counted.other {e : Event} {h : Heard} {r : Report} (hg : r ≠ .gate)
    (hs : r.success? = none) : Counted e h r where
  gate h' := absurd h' hg
  probe op h' := by simp [h', Report.success?] at hs
  once op h' := by simp [h', Report.success?] at hs

theorem succeeded_sinceEntering_sublist (st : CircuitBreakerState) (log : List Mark) :
    (succeeded (sinceEntering st log)).Sublist (succeeded log) :=
  since_sublist.filterMap _

/-- A report that finds and leaves the breaker half-open is a new entry of the part since then. -/
theorem sinceEntering_hear_of_halfOpen {e : Event} {h : Heard} {r : Report}
    (hs : h.breaker.state = .halfOpen) (hr : r ≠ .reset) :
    sinceEntering .halfOpen (h.hear config e r).log =
      ⟨r, .halfOpen, (h.hear config e r).breaker.state⟩ :: sinceEntering .halfOpen h.log := by
  rw [sinceEntering, Heard.hear, since_cons_of_neg (by simp [Mark.enters, hs, hr]), hs]
  rfl

/-- A report other than of a failure keeps `Probing` if it finds the breaker half-open and adds to
the streak the success of a probe it reports. -/
theorem Probing.stay {e : Event} {h : Heard} {r : Report} (hp : Probing h)
    (hs : h.breaker.state = .halfOpen) (hr : r ≠ .reset) (hf : ¬ r.IsFailure)
    (hcount : (h.hear config e r).breaker.counters.consecutiveSuccesses =
      h.breaker.counters.consecutiveSuccesses + r.success?.toList.length)
    (hop : ∀ op ∈ r.success?, op ∈ started (sinceEntering .halfOpen h.log)) :
    Probing (h.hear config e r) := by
  intro _
  obtain ⟨hlen, hstarted, hfail⟩ := hp hs
  rw [sinceEntering_hear_of_halfOpen hs hr]
  refine ⟨?_, fun op hmem => ?_, fun m hm => ?_⟩
  · rw [hcount, hlen, succeeded_cons, List.length_append, Nat.add_comm]
  · rw [started_cons]
    rw [succeeded_cons, List.mem_append, Option.mem_toList] at hmem
    exact List.mem_append_right _ (hmem.elim (hop op) (hstarted op))
  · rcases List.mem_cons.mp hm with rfl | hm
    · exact hf
    · exact hfail m hm

theorem probing_hear {e : Event} {h : Heard} {r : Report} (hp : Probing h)
    (hc : Counted e h r) : Probing (h.hear config e r) := by
  -- a report that leaves the breaker in another state has nothing to keep
  have hleave {st : CircuitBreakerState} (hst : (h.hear config e r).breaker.state = st)
      (hne : st ≠ .halfOpen) : Probing (h.hear config e r) := fun h' => absurd (hst ▸ h') hne
  cases r with
  | gate =>
    obtain ⟨hcount, hstate⟩ := executeStart_effect (ε := Unit) config e.throws e.now h.breaker
    by_cases hpass : h.breaker.state = .open ∧ h.breaker.nextAttemptAt ≤ e.now
    · intro hhalf
      have henters : Mark.enters .halfOpen ⟨.gate, h.breaker.state, .halfOpen⟩ = true := by
        simp [Mark.enters, hpass.1]
      have hsince : sinceEntering .halfOpen (h.hear config e .gate).log = [] := by
        rw [Heard.hear, Report.handler, hstate, if_pos hpass]
        exact since_cons_of_pos henters
      rw [hsince]
      refine ⟨?_, by simp [succeeded], by simp⟩
      exact (congrArg Counters.consecutiveSuccesses hcount).trans (hc.gate rfl hpass.1 hpass.2)
    · rw [if_neg hpass] at hstate
      by_cases hs : h.breaker.state = .halfOpen
      · exact hp.stay hs (by simp) id (congrArg Counters.consecutiveSuccesses hcount)
          (by simp [Report.success?])
      · exact hleave hstate hs
  | started op =>
    by_cases hs : h.breaker.state = .halfOpen
    · exact hp.stay hs (by simp) id rfl (by simp [Report.success?])
    · exact @hleave h.breaker.state rfl hs
  | success op =>
    obtain ⟨hcount, hstate⟩ := onSuccess_effect (ε := Unit) config e.throws e.now h.breaker
    by_cases hs : h.breaker.state = .halfOpen
    · refine hp.stay hs (by simp) id (congrArg Counters.consecutiveSuccesses hcount) ?_
      simpa [Report.success?] using hc.probe op rfl hs
    · rw [if_neg fun h' => hs h'.1] at hstate
      exact hleave hstate hs
  | failure op =>
    obtain ⟨-, hstate⟩ := onFailure_effect (ε := Unit) config e.throws e.now h.breaker
    by_cases hs : h.breaker.state = .halfOpen
    · rw [if_pos (.inl hs)] at hstate
      exact hleave hstate (by simp)
    · split_ifs at hstate
      · exact hleave hstate (by simp)
      · exact hleave hstate hs
  | «open» => exact hleave (transitionTo_effect config e.throws e.now .open h.breaker).1 (by simp)
  | close => exact hleave (transitionTo_effect config e.throws e.now .closed h.breaker).1 (by simp)
  | reset => exact hleave (reset_effect config e.throws e.now h.breaker).1 (by simp)

/-- Only the success that completes the streak closes a half-open breaker by itself. -/
theorem success_of_closes {e : Event} {h : Heard} {r : Report} (hs : h.breaker.state = .halfOpen)
    (hs' : (h.hear config e r).breaker.state = .closed) (hclose : r ≠ .close)
    (hreset : r ≠ .reset) :
    ∃ op, r = .success op ∧
      config.successThreshold.getD 2 ≤ (h.breaker.counters.succeed.consecutiveSuccesses : ℚ) := by
  have hsame {st : CircuitBreakerState} (hst : (h.hear config e r).breaker.state = st)
      (hne : st ≠ .closed) : False := hne (hst.symm.trans hs')
  have hhalf : h.breaker.state ≠ .closed := by simp [hs]
  cases r with
  | gate =>
    have hstate := (executeStart_effect (ε := Unit) config e.throws e.now h.breaker).2
    rw [if_neg (by simp [hs])] at hstate
    exact (hsame hstate hhalf).elim
  | started op => exact (hsame rfl hhalf).elim
  | success op =>
    have hstate := (onSuccess_effect (ε := Unit) config e.throws e.now h.breaker).2
    by_cases hmany : config.successThreshold.getD 2 ≤
        (h.breaker.counters.succeed.consecutiveSuccesses : ℚ)
    · exact ⟨op, rfl, hmany⟩
    · rw [if_neg fun h' => hmany h'.2] at hstate
      exact (hsame hstate hhalf).elim
  | failure op =>
    have hstate := (onFailure_effect (ε := Unit) config e.throws e.now h.breaker).2
    rw [if_pos (.inl hs)] at hstate
    exact (hsame hstate (by simp)).elim
  | «open» =>
    exact (hsame (transitionTo_effect config e.throws e.now .open h.breaker).1 (by simp)).elim
  | close => exact absurd rfl hclose
  | reset => exact absurd rfl hreset

/-- What closes the breaker by itself is the last of enough probes. -/
theorem closedByProbes_hear {e : Event} {h : Heard} {r : Report} (hp : Probing h)
    (hnodup : (succeeded h.log).Nodup) (hc : Counted e h r) :
    ClosedByProbes (config.successThreshold.getD 2)
      ⟨r, h.breaker.state, (h.hear config e r).breaker.state⟩ h.log := by
  rintro ⟨hs, hs', hclose, hreset⟩
  obtain ⟨op, rfl, hmany⟩ := success_of_closes hs hs' hclose hreset
  obtain ⟨hlen, hstarted, hfail⟩ := hp hs
  have hop := hc.probe op rfl hs
  have hnew := hc.once op rfl
  refine ⟨hmany.trans ?_, fun m hm => ?_⟩
  · have hsub := succeeded_sinceEntering_sublist .halfOpen h.log
    have hnodup' : (op :: succeeded (sinceEntering .halfOpen h.log)).Nodup :=
      List.nodup_cons.mpr ⟨fun hmem => hnew (hsub.subset hmem), hnodup.sublist hsub⟩
    have hcard : h.breaker.counters.succeed.consecutiveSuccesses ≤ (probes
        (⟨.success op, h.breaker.state, (h.hear config e (.success op)).breaker.state⟩ ::
          sinceEntering .halfOpen h.log)).card := by
      calc h.breaker.counters.succeed.consecutiveSuccesses
          _ = (op :: succeeded (sinceEntering .halfOpen h.log)).length := by
            simp [Counters.succeed, hlen]
          _ = (op :: succeeded (sinceEntering .halfOpen h.log)).toFinset.card :=
            (List.toFinset_card_of_nodup hnodup').symm
          _ ≤ _ := Finset.card_le_card fun op' hop' => ?_
      rw [List.mem_toFinset, List.mem_cons] at hop'
      rw [probes, Finset.mem_inter, List.mem_toFinset, List.mem_toFinset, started_cons,
        succeeded_cons]
      rcases hop' with rfl | hop'
      · exact ⟨List.mem_append_right _ hop, List.mem_append_left _ (by simp [Report.success?])⟩
      · exact ⟨List.mem_append_right _ (hstarted op' hop'), List.mem_append_right _ hop'⟩
    exact_mod_cast hcard
  · rcases List.mem_cons.mp hm with rfl | hm
    · exact id
    · exact hfail m hm

/-! ## Runs -/

/-- What hearing a counted report keeps. -/
structure ProbedSoFar (config : CircuitBreakerConfig) (h : Heard) : Prop where
  probing : Probing h
  nodup : (succeeded h.log).Nodup
  closed : Always (ClosedByProbes (config.successThreshold.getD 2)) h.log

theorem ProbedSoFar.hear {e : Event} {h : Heard} {r : Report} (hh : ProbedSoFar config h)
    (hc : Counted e h r) : ProbedSoFar config (h.hear config e r) where
  probing := probing_hear hh.probing hc
  nodup := by
    rw [Heard.hear, succeeded_cons]
    refine List.nodup_append.mpr ⟨by cases r.success? <;> simp, hh.nodup, ?_⟩
    intro op hop op' hop' heq
    cases r with
    | success op₀ =>
      obtain rfl : op = op₀ := by simpa [Report.success?] using hop
      exact hc.once op rfl (heq ▸ hop')
    | gate | started | failure | «open» | close | reset => simp [Report.success?] at hop
  closed := ⟨closedByProbes_hear hh.probing hh.nodup hc, hh.closed⟩

/-- A step whose event counts probes only keeps the invariant. -/
theorem probedSoFar_step {L L' : Ledger} {e : Event} (hL : Numbered L)
    (hp : ProbedSoFar config L.heard) (hc : CountsProbes L e)
    (h : (ledger config).step L e = some L') : ProbedSoFar config L'.heard := by
  have hflight := (step_operations (ledger_step h).1).1.2
  have hfirst : Counted e L.heard e.action.report := by
    cases ha : e.action with
    | execute => exact ⟨fun _ => hc.1 ha, fun _ h' => (by cases h'), fun _ h' => (by cases h')⟩
    | settled op outcome =>
      rcases outcome with ⟨⟩ | ⟨⟩
      · exact .other (by simp [Action.report]) rfl
      · have hnew : op ∉ succeeded L.log := fun hop =>
          (List.nodup_append.mp hL.nodup).2.2 op (hflight op _ ha) op hop rfl
        refine ⟨fun h' => (by cases h'), fun op' h' => ?_, fun op' h' => ?_⟩
        · obtain rfl := Report.success.inj h'
          exact hc.2 op ha
        · obtain rfl := Report.success.inj h'
          exact hnew
    | «open» | close | reset => exact .other (by simp [Action.report]) rfl
  refine heard_step h (hp.hear hfirst) fun h r hr hh => hh.hear ?_
  rcases hr with ⟨op, rfl⟩ | ⟨op, rfl⟩ <;> exact .other (by simp) rfl

/-- **A breaker closes by itself only after enough probes and no failure**, in every run in which
the gate is passed with an empty streak and a half-open breaker is told of the success of its probes
only. -/
theorem closedByProbes_of_run {t₀ : ℚ} {es : List Event} {L : Ledger}
    (hC : (ledger config).StepsMeet CountsProbes (Ledger.init t₀) es)
    (hrun : (ledger config).runFrom (Ledger.init t₀) es = some L) :
    Always (ClosedByProbes (config.successThreshold.getD 2)) L.log := by
  have hinv := System.invariant_of_stepsMeet
    (I := fun L => Numbered L ∧ ProbedSoFar config L.heard)
    (fun L e L' hL hc h => ⟨numbered_step hL.1 h, probedSoFar_step hL.1 hL.2 hc h⟩)
    ⟨numbered_init t₀, fun h => by simp [Ledger.heard, Ledger.init, World.init] at h,
      List.nodup_nil, trivial⟩ hC hrun
  exact hinv.2.closed

/-- Opened by hand, the breaker starts two probes after the timeout, and both succeed. -/
def twoProbes : List Event :=
  [Action.open.at 5, Action.execute.at 65, Action.execute.at 66,
    (Action.settled 0 (.ok ())).at 70, (Action.settled 1 (.ok ())).at 71]

/-- The breaker that is closed by two probes. -/
theorem closedByProbes_twoProbes :
    ∃ L ∈ (ledger ⟨"payments", .count 3, some 60, none, false⟩).runFrom (Ledger.init 0) twoProbes,
      L.world.breaker.state = .closed ∧ Always (ClosedByProbes 2) L.log := by
  obtain ⟨L, hrun, hclosed⟩ : ∃ L ∈
      (ledger ⟨"payments", .count 3, some 60, none, false⟩).runFrom (Ledger.init 0) twoProbes,
      L.world.breaker.state = .closed := by decide +kernel
  exact ⟨L, hrun, hclosed, closedByProbes_of_run (by decide +kernel) hrun⟩

/-- Two operations succeed before the breaker is opened by hand; one more after the timeout. -/
def oneProbe : List Event :=
  [Action.execute.at 0, (Action.settled 0 (.ok ())).at 1, Action.execute.at 2,
    (Action.settled 1 (.ok ())).at 3, Action.open.at 5, Action.execute.at 65,
    (Action.settled 2 (.ok ())).at 70]

/-- The successes of the closed breaker count: one probe closes it, where two are asked for. -/
theorem not_closedByProbes_oneProbe :
    ∃ L ∈ (ledger ⟨"payments", .count 3, some 60, none, false⟩).runFrom (Ledger.init 0) oneProbe,
      ¬ Always (ClosedByProbes 2) L.log := by
  decide +kernel

end KitiumJobQueue.CircuitBreaker
