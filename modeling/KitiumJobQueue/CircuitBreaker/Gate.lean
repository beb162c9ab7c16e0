import KitiumJobQueue.CircuitBreaker.Basic
import KitiumJobQueue.Foundations.Systems

/-!
# Runs of a circuit breaker

A breaker with any number of operations in flight, as a system: an event is a call of `execute`,
the end of an operation in flight, or a call of `open`, `close` or `reset`, each with its reading
of a clock that does not go back and with the behaviour of the callback during it. The history
records what each event did to the state.

The main result is the gate (`gate_of_run`): from the moment the
breaker has entered OPEN no operation is started before the timeout is over, unless `close` or
`reset` is called, and nothing but these calls and an `execute` after the timeout leaves OPEN. The
invariant `Gated` says where the deadline is: in `nextAttemptAt` while the breaker is OPEN, and in
the past otherwise. Late outcomes keep it because no part of `executeEnd` leaves OPEN or assigns
`nextAttemptAt` without entering OPEN (`KeepsDeadline`).
-/

namespace KitiumJobQueue.CircuitBreaker

open Effects

/-- What happens to a breaker. -/
inductive Action
  | execute
  | settled (operation : ℕ) (outcome : Except Unit Unit)
  | open
  | close
  | reset
  deriving DecidableEq

/-- An event: what happens, when, and how the callback behaves. -/
structure Event where
  now : ℚ
  throws : CallbackThrows
  action : Action

/-- What an event did. -/
structure Record where
  now : ℚ
  action : Action
  before : CircuitBreakerState
  after : CircuitBreakerState
  /-- The operation started by the event. -/
  started : Option ℕ
  deriving DecidableEq

/-- A breaker, the clock, the operations in flight, how many were started, and the history, newest
first. -/
structure World where
  breaker : CircuitBreaker := {}
  clock : ℚ
  inFlight : List ℕ := []
  started : ℕ := 0
  history : List Record := []
  deriving DecidableEq

/-- The code an event runs. -/
def react (config : CircuitBreakerConfig) (e : Event) :
    Async (ExecuteError Unit) CircuitBreaker Unit :=
  match e.action with
  | .execute => executeStart config e.throws e.now
  | .settled _ outcome => executeEnd config e.throws e.now outcome
  | .open => CircuitBreaker.open config e.throws e.now
  | .close => close config e.throws e.now
  | .reset => reset config e.throws e.now

/-- The event can happen: the clock has not gone back, and only an operation in flight ends. -/
def Event.Enabled (e : Event) (w : World) : Prop :=
  w.clock ≤ e.now ∧ ∀ op outcome, e.action = .settled op outcome → op ∈ w.inFlight

instance (e : Event) (w : World) : Decidable (e.Enabled w) :=
  match h : e.action with
  | .settled op outcome =>
    decidable_of_iff (w.clock ≤ e.now ∧ op ∈ w.inFlight) (by simp [Event.Enabled, h])
  | .execute | .open | .close | .reset =>
    decidable_of_iff (w.clock ≤ e.now) (by simp [Event.Enabled, h])

/-- The operation an event starts: `execute` starts one when it is admitted. -/
def startedBy (config : CircuitBreakerConfig) (w : World) (e : Event) : Option ℕ :=
  match e.action, ((react config e).run w.breaker).1 with
  | .execute, .ok _ => some w.started
  | .execute, .error _ => none
  | .settled _ _, _ | .open, _ | .close, _ | .reset, _ => none

/-- The operations in flight after an event. -/
def inFlightAfter (config : CircuitBreakerConfig) (w : World) (e : Event) : List ℕ :=
  match e.action with
  | .settled op _ => w.inFlight.erase op
  | .execute | .open | .close | .reset => (startedBy config w e).toList ++ w.inFlight

/-- Breakers under any interleaving of calls and ends of operations. -/
def system (config : CircuitBreakerConfig) : System World Event where
  step w e :=
    if e.Enabled w then
      let b := ((react config e).run w.breaker).2
      some
        { breaker := b
          clock := e.now
          inFlight := inFlightAfter config w e
          started := w.started + (startedBy config w e).toList.length
          history :=
            ⟨e.now, e.action, w.breaker.state, b.state, startedBy config w e⟩ :: w.history }
    else none

/-- A new breaker, the clock showing `t₀`. -/
def World.init (t₀ : ℚ) : World := { clock := t₀ }

/-! ## The deadline -/

/-- The time at which the breaker last entered OPEN, if neither `close` nor `reset` was called
since. -/
def openSince : List Record → Option ℚ
  | [] => none
  | r :: earlier =>
    if r.action = .close ∨ r.action = .reset then none
    else if r.before ≠ .open ∧ r.after = .open then some r.now
    else openSince earlier

variable {config : CircuitBreakerConfig} {now : ℚ}

/-- OPEN is not left, its deadline not moved, and it is entered with the deadline one timeout
ahead. -/
structure KeepsDeadline (config : CircuitBreakerConfig) (now : ℚ) (b b' : CircuitBreaker) :
    Prop where
  stays : b.state = .open → b'.state = .open ∧ b'.nextAttemptAt = b.nextAttemptAt
  enters : b.state ≠ .open → b'.state = .open → b'.nextAttemptAt = now + config.timeoutMs

namespace KeepsDeadline

theorem of_eq {b b' : CircuitBreaker} (hs : b'.state = b.state)
    (hn : b'.nextAttemptAt = b.nextAttemptAt) : KeepsDeadline config now b b' where
  stays h := ⟨hs.trans h, hn⟩
  enters h h' := absurd (hs ▸ h') h

theorem trans {b₁ b₂ b₃ : CircuitBreaker} (h : KeepsDeadline config now b₁ b₂)
    (h' : KeepsDeadline config now b₂ b₃) : KeepsDeadline config now b₁ b₃ where
  stays h₁ := by
    obtain ⟨h₂, e₂⟩ := h.stays h₁
    obtain ⟨h₃, e₃⟩ := h'.stays h₂
    exact ⟨h₃, e₃.trans e₂⟩
  enters h₁ h₃ := by
    by_cases h₂ : b₂.state = .open
    · rw [(h'.stays h₂).2, h.enters h₁ h₂]
    · exact h'.enters h₂ h₃

end KeepsDeadline

section

variable {ε α : Type} (config : CircuitBreakerConfig) (throws : CallbackThrows) (now : ℚ)

theorem transitionTo_open_keepsDeadline (b : CircuitBreaker) :
    KeepsDeadline config now b ((transitionTo (ε := ε) config throws now .open).run b).2 := by
  by_cases h : b.state = .open
  · rw [transitionTo_of_eq _ _ _ h]
    exact .of_eq rfl rfl
  · obtain ⟨calls, hcalls⟩ := transitionTo_snd_of_ne (ε := ε) config throws now h
    rw [hcalls]
    exact ⟨fun h' => absurd h' h, fun _ _ => by simp⟩

theorem transitionTo_closed_keepsDeadline {b : CircuitBreaker} (h : b.state ≠ .open) :
    KeepsDeadline config now b ((transitionTo (ε := ε) config throws now .closed).run b).2 := by
  by_cases h' : b.state = .closed
  · rw [transitionTo_of_eq _ _ _ h']
    exact .of_eq rfl rfl
  · obtain ⟨calls, hcalls⟩ := transitionTo_snd_of_ne (ε := ε) config throws now h'
    rw [hcalls]
    exact ⟨fun h'' => absurd h'' h, fun _ h'' => by simp at h''⟩

theorem onSuccess_keepsDeadline (b : CircuitBreaker) :
    KeepsDeadline config now b ((onSuccess (ε := ε) config throws now).run b).2 := by
  have hcount : KeepsDeadline config now b (countSuccess now b) := .of_eq rfl rfl
  simp only [onSuccess, Async.run_bind, Async.run_modify, Async.run_read, id_eq]
  split_ifs with hhalf hthreshold
  · -- only a HALF_OPEN breaker is closed, so OPEN is not left
    have hne : (countSuccess now b).state ≠ .open := by rw [hhalf]; decide
    exact hcount.trans (transitionTo_closed_keepsDeadline _ _ _ hne)
  · exact hcount
  · exact hcount

theorem onFailure_keepsDeadline (b : CircuitBreaker) :
    KeepsDeadline config now b ((onFailure (ε := ε) config throws now).run b).2 := by
  have hcount : KeepsDeadline config now b (countFailure now b) := .of_eq rfl rfl
  simp only [onFailure, Async.run_bind, Async.run_modify, Async.run_read, id_eq]
  split_ifs with hopen
  · exact hcount.trans (transitionTo_open_keepsDeadline _ _ _ _)
  · exact hcount

/-- An outcome, early or late, keeps the deadline. -/
theorem executeEnd_keepsDeadline (outcome : Except ε α) (b : CircuitBreaker) :
    KeepsDeadline config now b ((executeEnd config throws now outcome).run b).2 := by
  have hfail (e : ExecuteError ε) (b' : CircuitBreaker) (h : KeepsDeadline config now b b') :
      KeepsDeadline config now b ((do
        onFailure config throws now
        throw e : Async (ExecuteError ε) CircuitBreaker α).run b').2 := by
    have hb := h.trans (onFailure_keepsDeadline (ε := ε) config throws now b')
    rw [Async.run_bind]
    split <;> rename_i heq <;> rw [heq] at hb <;> exact hb
  unfold executeEnd
  rw [Async.run_tryCatch]
  cases outcome with
  | error e => exact hfail _ b (.of_eq rfl rfl)
  | ok a =>
    have hb := onSuccess_keepsDeadline (ε := ε) config throws now b
    simp only [Async.run_bind]
    rcases hr : (onSuccess (ε := ε) config throws now).run b with ⟨_ | _, b'⟩
    · -- the callback threw: the failure is counted on top
      exact hfail _ b' (by simpa [hr] using hb)
    · simpa [hr] using hb

/-- `execute` fails at the gate, passes it after the deadline, or finds no gate. -/
theorem executeStart_cases (b : CircuitBreaker) :
    (b.state = .open ∧ now < b.nextAttemptAt ∧
        ∃ e, (executeStart (ε := ε) config throws now).run b = (.error e, b)) ∨
      (b.state = .open ∧ b.nextAttemptAt ≤ now ∧
        ((executeStart (ε := ε) config throws now).run b).2.state = .halfOpen) ∨
      (b.state ≠ .open ∧ (executeStart (ε := ε) config throws now).run b = (.ok (), b)) := by
  by_cases hopen : b.state = .open
  · by_cases hnow : now < b.nextAttemptAt
    · exact .inl ⟨hopen, hnow, _, by simp [executeStart, Async.run_bind, hopen, hnow]; rfl⟩
    · refine .inr (.inl ⟨hopen, not_lt.mp hnow, ?_⟩)
      have hne : b.state ≠ .halfOpen := by rw [hopen]; decide
      obtain ⟨calls, hcalls⟩ := transitionTo_snd_of_ne (ε := ε) config throws now hne
      simp [executeStart, Async.run_bind, hopen, hnow, hcalls]
  · exact .inr (.inr ⟨hopen, by simp [executeStart, Async.run_bind, hopen]⟩)

theorem close_state (b : CircuitBreaker) :
    ((close (ε := ε) config throws now).run b).2.state = .closed := by
  unfold close
  by_cases h : b.state = .closed
  · rw [transitionTo_of_eq _ _ _ h]
    exact h
  · obtain ⟨calls, hcalls⟩ := transitionTo_snd_of_ne (ε := ε) config throws now h
    rw [hcalls, setState_state]

theorem reset_state (b : CircuitBreaker) :
    ((reset (ε := ε) config throws now).run b).2.state = .closed :=
  close_state config throws now { b with stats := {} }

end

/-! ## The gate -/

/-- Where the deadline is: in `nextAttemptAt` while the breaker is OPEN, in the past otherwise. -/
structure Gated (config : CircuitBreakerConfig) (w : World) : Prop where
  deadline : w.breaker.state = .open →
    ∃ T, openSince w.history = some T ∧ w.breaker.nextAttemptAt = T + config.timeoutMs
  passed : w.breaker.state ≠ .open →
    ∀ T, openSince w.history = some T → T + config.timeoutMs ≤ w.clock

theorem gated_init (t₀ : ℚ) : Gated config (World.init t₀) where
  deadline h := by simp [World.init] at h
  passed _ T h := by simp [World.init, openSince] at h

/-- What a step of the system is. -/
theorem step_eq_some {w w' : World} {e : Event} (h : (system config).step w e = some w') :
    w.clock ≤ e.now ∧ w'.clock = e.now ∧ w'.breaker = ((react config e).run w.breaker).2 ∧
      w'.started = w.started + (startedBy config w e).toList.length ∧
      w'.history = ⟨e.now, e.action, w.breaker.state, w'.breaker.state, startedBy config w e⟩ ::
        w.history := by
  simp only [system] at h
  split_ifs at h with he
  obtain rfl := Option.some.inj h
  exact ⟨he.1, rfl, rfl, rfl, rfl⟩

/-- A step that neither calls `close` or `reset` nor passes the gate keeps `Gated`. -/
theorem gated_of_keepsDeadline {w w' : World} {e : Event} (hw : Gated config w)
    (h : (system config).step w e = some w') (hc : e.action ≠ .close) (hr : e.action ≠ .reset)
    (hk : KeepsDeadline config e.now w.breaker w'.breaker) : Gated config w' := by
  obtain ⟨hclock, hclock', -, -, hist⟩ := step_eq_some h
  by_cases ho : w.breaker.state = .open
  · obtain ⟨ho', hn⟩ := hk.stays ho
    refine ⟨fun _ => ?_, fun h' => absurd ho' h'⟩
    obtain ⟨T, hT, hd⟩ := hw.deadline ho
    exact ⟨T, by simpa [hist, openSince, hc, hr, ho] using hT, hn.trans hd⟩
  · refine ⟨fun ho' => ⟨e.now, ?_, hk.enters ho ho'⟩, fun ho' T hT => ?_⟩
    · simp [hist, openSince, hc, hr, ho, ho']
    · have hT : openSince w.history = some T := by
        simpa [hist, openSince, hc, hr, ho'] using hT
      rw [hclock']
      exact (hw.passed ho T hT).trans hclock

theorem react_execute {e : Event} (h : e.action = .execute) :
    react config e = executeStart config e.throws e.now := by
  rw [react, h]

/-- Apart from the two calls that close the breaker, a step keeps the deadline or comes after it. -/
theorem keepsDeadline_or_passes {w w' : World} {e : Event}
    (h : (system config).step w e = some w') (hc : e.action ≠ .close) (hr : e.action ≠ .reset) :
    KeepsDeadline config e.now w.breaker w'.breaker ∨
      e.action = .execute ∧ w.breaker.state = .open ∧ w.breaker.nextAttemptAt ≤ e.now ∧
        w'.breaker.state = .halfOpen := by
  obtain ⟨-, -, hb, -, -⟩ := step_eq_some h
  cases ha : e.action with
  | close => exact absurd ha hc
  | reset => exact absurd ha hr
  | execute =>
    rw [react_execute ha] at hb
    rcases executeStart_cases (ε := Unit) config e.throws e.now w.breaker with
      ⟨-, -, err, hs⟩ | ⟨ho, hnow, hs⟩ | ⟨-, hs⟩
    · exact .inl (.of_eq (by rw [hb, hs]) (by rw [hb, hs]))
    · exact .inr ⟨rfl, ho, hnow, hb ▸ hs⟩
    · exact .inl (.of_eq (by rw [hb, hs]) (by rw [hb, hs]))
  | settled op outcome =>
    rw [hb, react, ha]
    exact .inl (executeEnd_keepsDeadline config e.throws e.now outcome w.breaker)
  | «open» =>
    rw [hb, react, ha]
    exact .inl (transitionTo_open_keepsDeadline config e.throws e.now w.breaker)

/-- The two calls that close the breaker do. -/
theorem state_of_close_or_reset {w w' : World} {e : Event}
    (h : (system config).step w e = some w') (ha : e.action = .close ∨ e.action = .reset) :
    w'.breaker.state = .closed := by
  obtain ⟨-, -, hb, -, -⟩ := step_eq_some h
  rcases ha with ha | ha
  · rw [hb, react, ha]
    exact close_state config e.throws e.now w.breaker
  · rw [hb, react, ha]
    exact reset_state config e.throws e.now w.breaker

theorem gated_step {w w' : World} {e : Event} (hw : Gated config w)
    (h : (system config).step w e = some w') : Gated config w' := by
  obtain ⟨hclock, hclock', -, -, hist⟩ := step_eq_some h
  by_cases ha : e.action = .close ∨ e.action = .reset
  · have hs := state_of_close_or_reset h ha
    exact ⟨fun ho => by simp [hs] at ho, fun _ T hT => by simp [hist, openSince, ha] at hT⟩
  · obtain ⟨hc, hr⟩ := not_or.mp ha
    rcases keepsDeadline_or_passes h hc hr with hk | ⟨hexecute, ho, hnow, hhalf⟩
    · exact gated_of_keepsDeadline hw h hc hr hk
    · -- the gate is passed: the deadline is over
      refine ⟨fun ho' => by simp [hhalf] at ho', fun _ T hT => ?_⟩
      obtain ⟨T', hT', hd⟩ := hw.deadline ho
      have hT : openSince w.history = some T := by
        simpa [hist, openSince, hexecute, ho] using hT
      obtain rfl : T' = T := Option.some.inj (hT'.symm.trans hT)
      rw [hclock', ← hd]
      exact hnow

/-- A run of a new breaker leads to a gated one. -/
theorem gated_of_run {t₀ : ℚ} {es : List Event} {w : World}
    (h : (system config).runFrom (World.init t₀) es = some w) : Gated config w :=
  System.invariant (fun _ _ _ hw hs => gated_step hw hs) (gated_init t₀) h

/-- Only an admitted call of `execute` starts an operation. -/
theorem execute_of_started_lt {w w' : World} {e : Event}
    (h : (system config).step w e = some w') (hlt : w.started < w'.started) :
    e.action = .execute ∧
      ((executeStart (ε := Unit) config e.throws e.now).run w.breaker).1 = .ok () := by
  obtain ⟨-, -, -, hstarted, -⟩ := step_eq_some h
  have hsome : startedBy config w e ≠ none := by
    intro hnone
    simp [hnone] at hstarted
    omega
  unfold startedBy at hsome
  split at hsome <;> try exact absurd rfl hsome
  rename_i ha hok
  exact ⟨ha, by simpa [react, ha] using hok⟩

/-- The gate, as seen from a gated world: a started operation has waited for the deadline. -/
theorem Gated.le_of_started_lt {w w' : World} {e : Event} (hw : Gated config w)
    (h : (system config).step w e = some w') (hlt : w.started < w'.started) {T : ℚ}
    (hT : openSince w.history = some T) : T + config.timeoutMs ≤ e.now := by
  obtain ⟨-, hok⟩ := execute_of_started_lt h hlt
  rcases executeStart_cases (ε := Unit) config e.throws e.now w.breaker with
    ⟨-, -, err, hs⟩ | ⟨ho, hnow, -⟩ | ⟨ho, -⟩
  · simp [hs] at hok
  · obtain ⟨T', hT', hd⟩ := hw.deadline ho
    obtain rfl : T' = T := Option.some.inj (hT'.symm.trans hT)
    exact hd ▸ hnow
  · exact (hw.passed ho T hT).trans (step_eq_some h).1

/-- The exits of OPEN: the two calls that close the breaker, and the gate. -/
theorem Gated.exits {w w' : World} {e : Event} (hw : Gated config w)
    (h : (system config).step w e = some w') (ho : w.breaker.state = .open)
    (ho' : w'.breaker.state ≠ .open) :
    e.action = .close ∨ e.action = .reset ∨
      e.action = .execute ∧ ∃ T, openSince w.history = some T ∧ T + config.timeoutMs ≤ e.now := by
  by_cases ha : e.action = .close ∨ e.action = .reset
  · exact ha.imp_right .inl
  · obtain ⟨hc, hr⟩ := not_or.mp ha
    rcases keepsDeadline_or_passes h hc hr with hk | ⟨hexecute, -, hnow, -⟩
    · exact absurd (hk.stays ho).1 ho'
    · obtain ⟨T, hT, hd⟩ := hw.deadline ho
      exact .inr (.inr ⟨hexecute, T, hT, hd ▸ hnow⟩)

/-- **No operation starts before the deadline, and OPEN is left only after it or by hand.** -/
theorem gate_of_run {t₀ : ℚ} {es : List Event} {w w' : World}
    {e : Event} (hrun : (system config).runFrom (World.init t₀) es = some w)
    (hstep : (system config).step w e = some w') :
    (w.started < w'.started →
        ∀ T, openSince w.history = some T → T + config.timeoutMs ≤ e.now) ∧
      (w.breaker.state = .open → w'.breaker.state ≠ .open →
        e.action = .close ∨ e.action = .reset ∨
          e.action = .execute ∧
            ∃ T, openSince w.history = some T ∧ T + config.timeoutMs ≤ e.now) := by
  have hw := gated_of_run hrun
  exact ⟨fun hlt T hT => hw.le_of_started_lt hstep hlt hT, fun ho ho' => hw.exits hstep ho ho'⟩

/-- Opened by hand at time 5 with a timeout of 60, a breaker starts an operation at time 65, and
leaves OPEN by starting it. -/
theorem gate_of_run_at_65 :
    ∃ w w' : World,
      (system ⟨"payments", .count 3, some 60, none, true⟩).runFrom (World.init 0)
        [⟨5, fun _ _ => false, .open⟩] = some w ∧
      (system ⟨"payments", .count 3, some 60, none, true⟩).step w
        ⟨65, fun _ _ => false, .execute⟩ = some w' ∧
      w.started < w'.started ∧ (5 : ℚ) + 60 ≤ 65 ∧ w'.breaker.state = .halfOpen := by
  refine ⟨_, _, rfl, rfl, ?_⟩
  have h := @gate_of_run
    ⟨"payments", .count 3, some 60, none, true⟩ 0 [⟨5, fun _ _ => false, .open⟩] _ _
    ⟨65, fun _ _ => false, .execute⟩ rfl rfl
  exact ⟨by decide +kernel, h.1 (by decide +kernel) 5 rfl, by decide +kernel⟩

end KitiumJobQueue.CircuitBreaker
