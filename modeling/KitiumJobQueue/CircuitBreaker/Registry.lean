import KitiumJobQueue.CircuitBreaker.Ledger
import KitiumJobQueue.Foundations.InsertionMaps

/-!
# The registry of circuit breakers

`CircuitBreakerManager` keeps the breakers it has created in a map, under their ids. `createBreaker`
puts a new breaker in the place of the one that is registered; whoever was given that one earlier
goes on using it. Every breaker ever created is a `CircuitBreaker.system` of its own, known by its
number, and the registry moves by one call on one of them at a time.

What an id was promised is read off a history that does not ask which breaker acted: `deadline` is
the end of the timeout of the last change to OPEN under the id. `protected_of_run` says in which
runs every breaker keeps to it.
-/

namespace KitiumJobQueue.CircuitBreakerManager

open CircuitBreaker (Action)

/-! ## The registry -/

/-- A breaker that was created, and what it went through. -/
structure Breaker where
  config : CircuitBreakerConfig
  world : CircuitBreaker.World

/-- What happened under an id: whether the id starts anew, and the deadline set by a change to
OPEN. -/
structure Record where
  id : String
  cleared : Bool := false
  opened : Option ℚ := none
  deriving DecidableEq

/-- The map of a manager, the breakers it has created, the clock, and the history, newest first. -/
structure World where
  breakers : InsertionMap String ℕ := .empty
  created : List Breaker := []
  clock : ℚ
  history : List Record := []

/-- A call of the manager, or something that happens to one of its breakers. -/
inductive Call
  | createBreaker (config : CircuitBreakerConfig)
  | removeBreaker (id : String)
  | on (handle : ℕ) (action : Action)
  deriving DecidableEq

/-- A call, its reading of the clock, and the behaviour of the callback during it. -/
structure Event where
  now : ℚ
  throws : CallbackThrows
  call : Call

/-- `CircuitBreakerManager.getBreaker` -/
def World.getBreaker (w : World) (id : String) : Option ℕ := w.breakers.get id

/-- The breaker registered under the id. -/
def World.registered (w : World) (id : String) : Option Breaker :=
  (w.getBreaker id).bind fun handle => w.created[handle]?

/-- `CircuitBreakerManager.createBreaker` -/
def createBreaker (config : CircuitBreakerConfig) (now : ℚ) (w : World) : World where
  breakers := w.breakers.set config.id w.created.length
  created := w.created ++ [{ config := config, world := .init now }]
  clock := now
  history := { id := config.id } :: w.history

/-- `CircuitBreakerManager.removeBreaker` -/
def removeBreaker (id : String) (now : ℚ) (w : World) : World where
  breakers := w.breakers.delete id
  created := w.created
  clock := now
  history := { id := id, cleared := true } :: w.history

/-- What a breaker's going on to `next` is recorded as. -/
def recordOf (b : Breaker) (next : CircuitBreaker.World) (action : Action) (now : ℚ) : Record where
  id := b.config.id
  cleared := action = .close ∨ action = .reset
  opened :=
    if b.world.breaker.state ≠ .open ∧ next.breaker.state = .open then
      some (now + b.config.timeoutMs)
    else none

/-- One of the breakers has gone on. -/
def advance (handle : ℕ) (b : Breaker) (next : CircuitBreaker.World) (action : Action) (now : ℚ)
    (w : World) : World where
  breakers := w.breakers
  created := w.created.set handle { b with world := next }
  clock := now
  history := recordOf b next action now :: w.history

/-- A manager and its breakers under any interleaving of calls and ends of operations. -/
def system : System World Event where
  step w e :=
    if w.clock ≤ e.now then
      match e.call with
      | .createBreaker config => some (createBreaker config e.now w)
      | .removeBreaker id => some (removeBreaker id e.now w)
      | .on handle action =>
        w.created[handle]?.bind fun b =>
          ((CircuitBreaker.system b.config).step b.world ⟨e.now, e.throws, action⟩).map fun next =>
            advance handle b next action e.now w
    else none

/-- A new manager, the clock showing `t₀`. -/
def World.init (t₀ : ℚ) : World := { clock := t₀ }

/-! ## What an id is promised -/

/-- The end of the timeout of the last change to OPEN under the id, if no `close`, `reset` or
`removeBreaker` was called for it since. -/
def deadline (id : String) : List Record → Option ℚ
  | [] => none
  | r :: earlier =>
    if r.id ≠ id then deadline id earlier
    else if r.cleared then none
    else r.opened.or (deadline id earlier)

/-- The id a call is about. -/
def Event.id? (w : World) (e : Event) : Option String :=
  match e.call with
  | .createBreaker config => some config.id
  | .removeBreaker id => some id
  | .on handle _ => w.created[handle]?.map fun b => b.config.id

/-- What a step is to respect: an operation waits for the deadline of its breaker's id, creating a
breaker for an id in use discards neither OPEN nor failures, and a call for one id changes the
breaker of no other. -/
structure Protected (w : World) (e : Event) (w' : World) : Prop where
  gate : ∀ (handle : ℕ) (b b' : Breaker), w.created[handle]? = some b →
    w'.created[handle]? = some b' → b.world.started < b'.world.started →
    ∀ T ∈ deadline b.config.id w.history, T ≤ e.now
  keeps : ∀ config, e.call = .createBreaker config →
    ∀ old ∈ w.registered config.id, ∀ new ∈ w'.registered config.id,
      (old.world.breaker.state = .open → new.world.breaker.state = .open) ∧
        new.world.breaker.stats.failureCount = old.world.breaker.stats.failureCount ∧
        new.world.breaker.stats.consecutiveFailures = old.world.breaker.stats.consecutiveFailures
  others : ∀ id, e.id? w ≠ some id → w'.registered id = w.registered id

/-! ## The condition -/

/-- What happens to the breaker does not open it. -/
def Breaker.Quiet (b : Breaker) (throws : CallbackThrows) : Action → Prop
  | .execute | .close | .reset => True
  | .open => b.world.breaker.state = .open
  | .settled _ (.ok _) => ∀ oldState newState, throws oldState newState = false
  | .settled _ (.error _) => b.world.breaker.state = .open ∨ b.world.breaker.state = .closed ∧
      ¬ b.world.breaker.counters.fail.Trips b.config.failureThreshold

/-- The breaker lets no operation start at the time. -/
def Breaker.Blocks (b : Breaker) (now : ℚ) : Prop :=
  b.world.breaker.state = .open ∧ now < b.world.breaker.nextAttemptAt

/-- A breaker replaces one that has nothing to lose, and what happens to a breaker that is not
registered does not open it and starts no operation before the deadline of its id. -/
def Careful (w : World) (e : Event) : Prop :=
  match e.call with
  | .createBreaker config => ∀ old ∈ w.registered config.id,
      old.world.breaker.state ≠ .open ∧ old.world.breaker.stats.failureCount = 0 ∧
        old.world.breaker.stats.consecutiveFailures = 0
  | .removeBreaker _ => True
  | .on handle action => ∀ b ∈ w.created[handle]?,
      w.getBreaker b.config.id = some handle ∨ b.Quiet e.throws action ∧
        (action = .execute → b.Blocks e.now ∨ ∀ T ∈ deadline b.config.id w.history, T ≤ e.now)

/-! ## One breaker -/

section Breaker

variable {config : CircuitBreakerConfig} {w w' : CircuitBreaker.World} {e : CircuitBreaker.Event}

/-- The breaker lets no operation start before `T`, as long as nothing closes it. -/
structure Waits (b : CircuitBreaker) (clock T : ℚ) : Prop where
  deadline : b.state = .open → T ≤ b.nextAttemptAt
  passed : b.state ≠ .open → T ≤ clock

theorem Waits.step (h : (CircuitBreaker.system config).step w e = some w')
    (hc : e.action ≠ .close) (hr : e.action ≠ .reset) {clock T : ℚ} (hclock : clock ≤ e.now)
    (hw : Waits w.breaker clock T)
    (hopened : ¬ (w.breaker.state ≠ .open ∧ w'.breaker.state = .open)) :
    Waits w'.breaker e.now T := by
  rcases CircuitBreaker.keepsDeadline_or_passes h hc hr with hk | ⟨-, ho, hnow, hhalf⟩
  · by_cases ho : w.breaker.state = .open
    · obtain ⟨ho', hn⟩ := hk.stays ho
      exact ⟨fun _ => (hw.deadline ho).trans_eq hn.symm, fun h' => absurd ho' h'⟩
    · exact ⟨fun ho' => absurd ⟨ho, ho'⟩ hopened, fun _ => (hw.passed ho).trans hclock⟩
  · have hne : w'.breaker.state ≠ .open := by simp [hhalf]
    exact ⟨fun ho' => absurd ho' hne, fun _ => (hw.deadline ho).trans hnow⟩

/-- A breaker that has opened lets nothing start before the end of its timeout. -/
theorem Waits.opened (h : (CircuitBreaker.system config).step w e = some w')
    (hopened : w.breaker.state ≠ .open ∧ w'.breaker.state = .open) :
    Waits w'.breaker e.now (e.now + config.timeoutMs) := by
  obtain ⟨ho, ho'⟩ := hopened
  have hclosed : ¬ (e.action = .close ∨ e.action = .reset) := fun ha =>
    absurd (ho'.symm.trans (CircuitBreaker.state_of_close_or_reset h ha)) (by decide)
  obtain ⟨hc, hr⟩ := not_or.mp hclosed
  rcases CircuitBreaker.keepsDeadline_or_passes h hc hr with hk | ⟨-, ho₁, -, -⟩
  · exact ⟨fun _ => (hk.enters ho ho').ge, fun h' => absurd ho' h'⟩
  · exact absurd ho₁ ho

/-- An operation that is started has waited. -/
theorem Waits.le_of_started_lt (h : (CircuitBreaker.system config).step w e = some w')
    (hlt : w.started < w'.started) {clock T : ℚ} (hclock : clock ≤ e.now)
    (hw : Waits w.breaker clock T) : T ≤ e.now := by
  obtain ⟨-, hok⟩ := CircuitBreaker.execute_of_started_lt h hlt
  rcases CircuitBreaker.executeStart_cases (ε := Unit) config e.throws e.now w.breaker with
    ⟨-, -, err, hs⟩ | ⟨ho, hnow, -⟩ | ⟨ho, -⟩
  · simp [hs] at hok
  · exact (hw.deadline ho).trans hnow
  · exact (hw.passed ho).trans hclock

/-- A breaker that blocks starts nothing. -/
theorem not_started_lt_of_blocks {b : Breaker}
    (h : (CircuitBreaker.system b.config).step b.world e = some w')
    (hb : b.Blocks e.now) : ¬ b.world.started < w'.started := by
  intro hlt
  obtain ⟨-, hok⟩ := CircuitBreaker.execute_of_started_lt h hlt
  rcases CircuitBreaker.executeStart_cases (ε := Unit) b.config e.throws e.now
    b.world.breaker with ⟨-, -, err, hs⟩ | ⟨-, hnow, -⟩ | ⟨ho, -⟩
  · simp [hs] at hok
  · exact absurd hb.2 (not_lt.mpr hnow)
  · exact ho hb.1

end Breaker

/-! ## What is quiet does not open -/

section Quiet

open CircuitBreaker Effects

variable {ε : Type} {config : CircuitBreakerConfig} {throws : CallbackThrows} {now : ℚ}

/-- A success under a callback that does not throw is counted, and that is all. -/
theorem state_executeEnd_ok (hthrows : ∀ oldState newState, throws oldState newState = false)
    {b : CircuitBreaker} (ho : b.state ≠ .open) :
    ((executeEnd (ε := ε) config throws now (.ok ())).run b).2.state ≠ .open := by
  have hresolves : (onSuccess (ε := ε) config throws now).Resolves :=
    resolves_onSuccess fun _ => hthrows
  obtain ⟨u, b', hrun⟩ := hresolves b
  have hstate := (onSuccess_effect (ε := ε) config throws now b).2
  rw [hrun] at hstate
  have hend : (executeEnd (ε := ε) config throws now (.ok ())).run b = (.ok (), b') :=
    Async.run_tryCatch_of_ok (Async.run_bind_of_ok hrun)
  rw [hend, hstate]
  split_ifs
  · decide
  · exact ho

/-- A failure is counted; what opens the breaker is that it was half-open or had failed enough. -/
theorem state_executeEnd_error {b : CircuitBreaker} (ho : b.state = .closed) {u : Unit}
    (htrips : ¬ b.counters.fail.Trips config.failureThreshold) :
    ((executeEnd (α := Unit) config throws now (.error u)).run b).2.state ≠ .open := by
  have hend : (executeEnd (α := Unit) config throws now (.error u)).run b =
      (onFailure config throws now >>= fun _ => throw (.operation u)).run b := rfl
  have hstate := (onFailure_effect (ε := Unit) config throws now b).2
  rw [hend, Async.Keeps.run_bind (f := CircuitBreaker.state) _ (fun _ => .throw _), hstate, ho,
    if_neg (by simpa using htrips)]
  decide

theorem not_opens_of_quiet {b : Breaker} {next : CircuitBreaker.World} {action : Action}
    (h : (CircuitBreaker.system b.config).step b.world ⟨now, throws, action⟩ = some next)
    (hquiet : b.Quiet throws action) :
    ¬ (b.world.breaker.state ≠ .open ∧ next.breaker.state = .open) := by
  rintro ⟨ho, ho'⟩
  obtain ⟨-, -, hb, -, -⟩ := CircuitBreaker.step_eq_some h
  rw [hb] at ho'
  cases action with
  | execute =>
    have hstate := (executeStart_effect (ε := Unit) b.config throws now b.world.breaker).2
    rw [if_neg fun h => ho h.1] at hstate
    exact ho (hstate ▸ ho')
  | settled op outcome =>
    cases outcome with
    | ok u => exact state_executeEnd_ok hquiet ho ho'
    | error u =>
      obtain ⟨hclosed, htrips⟩ := hquiet.resolve_left ho
      exact state_executeEnd_error hclosed htrips ho'
  | «open» => exact ho hquiet
  | close => exact absurd (ho'.symm.trans (close_state b.config throws now _)) (by decide)
  | reset => exact absurd (ho'.symm.trans (reset_state b.config throws now _)) (by decide)

end Quiet

/-! ## Steps of the registry -/

section Steps

variable {w w' : World} {e : Event} {id : String}

/-- What a step is. -/
theorem step_cases (h : system.step w e = some w') : w.clock ≤ e.now ∧
    ((∃ config, e.call = .createBreaker config ∧ w' = createBreaker config e.now w) ∨
      (∃ id, e.call = .removeBreaker id ∧ w' = removeBreaker id e.now w) ∨
      ∃ handle action b next, e.call = .on handle action ∧ w.created[handle]? = some b ∧
        (CircuitBreaker.system b.config).step b.world ⟨e.now, e.throws, action⟩ = some next ∧
        w' = advance handle b next action e.now w) := by
  simp only [system] at h
  split at h
  · next hclock =>
    refine ⟨hclock, ?_⟩
    split at h
    · next config hcall => exact .inl ⟨config, hcall, (Option.some.inj h).symm⟩
    · next id hcall => exact .inr (.inl ⟨id, hcall, (Option.some.inj h).symm⟩)
    · next handle action hcall =>
      obtain ⟨b, hb, h⟩ := Option.bind_eq_some_iff.mp h
      obtain ⟨next, hnext, h⟩ := Option.map_eq_some_iff.mp h
      exact .inr (.inr ⟨handle, action, b, next, hcall, hb, hnext, h.symm⟩)
  · exact absurd h (Option.some_ne_none _).symm

/-- The map leads to breakers of the right id. -/
def Found (w : World) : Prop :=
  ∀ id handle, w.getBreaker id = some handle → ∃ b, w.created[handle]? = some b ∧ b.config.id = id

theorem registered_eq_some {b : Breaker} :
    w.registered id = some b ↔
      ∃ handle, w.getBreaker id = some handle ∧ w.created[handle]? = some b :=
  Option.bind_eq_some_iff

/-- A new breaker is registered under its id, and the others as before. -/
theorem registered_createBreaker (hfound : Found w) (config : CircuitBreakerConfig) (now : ℚ)
    (id : String) :
    (createBreaker config now w).registered id =
      if id = config.id then some { config := config, world := .init now }
      else w.registered id := by
  unfold World.registered World.getBreaker createBreaker
  simp only
  rw [InsertionMap.get_set]
  split
  · simp
  · cases hget : w.breakers.get id with
    | none => rfl
    | some handle =>
      obtain ⟨b, hb, -⟩ := hfound id handle hget
      exact List.getElem?_append_left (List.getElem?_eq_some_iff.mp hb).1

theorem registered_removeBreaker (w : World) (removed : String) (now : ℚ) (id : String) :
    (removeBreaker removed now w).registered id =
      if id = removed then none else w.registered id := by
  unfold World.registered World.getBreaker removeBreaker
  simp only
  rw [InsertionMap.get_delete]
  split
  · rfl
  · rfl

/-- Where a breaker goes on, the one registered under an id is that one or unchanged. -/
theorem registered_advance {handle : ℕ} {b : Breaker} (hb : w.created[handle]? = some b)
    (next : CircuitBreaker.World) (action : Action) (now : ℚ) (id : String) :
    (advance handle b next action now w).registered id =
      if w.getBreaker id = some handle then some { b with world := next }
      else w.registered id := by
  have hlt := (List.getElem?_eq_some_iff.mp hb).1
  unfold World.registered World.getBreaker advance
  simp only
  cases hget : w.breakers.get id with
  | none => rfl
  | some handle' =>
    rw [Option.bind_some, Option.bind_some, List.getElem?_set]
    by_cases heq : handle = handle'
    · subst heq
      simp [hlt]
    · rw [if_neg heq, if_neg fun h => heq (Option.some.inj h).symm]

theorem found_step (hfound : Found w) (h : system.step w e = some w') : Found w' := by
  obtain ⟨-, hcases⟩ := step_cases h
  rcases hcases with ⟨config, -, rfl⟩ | ⟨removed, -, rfl⟩ |
    ⟨handle, action, b, next, -, hb, -, rfl⟩
  · intro id handle hget
    have hget : (w.breakers.set config.id w.created.length).get id = some handle := hget
    rw [InsertionMap.get_set] at hget
    change ∃ b, (w.created ++ [_])[handle]? = some b ∧ _
    split at hget
    · next hid =>
      cases hget
      exact ⟨_, List.getElem?_concat_length, hid.symm⟩
    · obtain ⟨b, hb, hid⟩ := hfound id handle hget
      exact ⟨b, (List.getElem?_append_left (List.getElem?_eq_some_iff.mp hb).1).trans hb, hid⟩
  · intro id handle hget
    have hget : (w.breakers.delete removed).get id = some handle := hget
    rw [InsertionMap.get_delete] at hget
    split at hget
    · exact absurd hget (Option.some_ne_none _).symm
    · exact hfound id handle hget
  · intro id handle' hget
    obtain ⟨b', hb', hid⟩ := hfound id handle' hget
    change ∃ b'', (w.created.set handle _)[handle']? = some b'' ∧ _
    rw [List.getElem?_set]
    by_cases heq : handle = handle'
    · subst heq
      obtain rfl : b = b' := Option.some.inj (hb.symm.trans hb')
      rw [if_pos rfl, if_pos (List.getElem?_eq_some_iff.mp hb).1]
      exact ⟨_, rfl, hid⟩
    · rw [if_neg heq]
      exact ⟨b', hb', hid⟩

/-! ## The deadlines -/

theorem deadline_cons_of_ne {r : Record} (h : r.id ≠ id) (earlier : List Record) :
    deadline id (r :: earlier) = deadline id earlier := by
  rw [deadline, if_pos h]

theorem deadline_cons_self {r : Record} (h : r.id = id) (earlier : List Record) :
    deadline id (r :: earlier) =
      if r.cleared then none else r.opened.or (deadline id earlier) := by
  rw [deadline, if_neg (not_not.mpr h)]

theorem Waits.mono {b : CircuitBreaker} {clock now T : ℚ} (hw : Waits b clock T)
    (hclock : clock ≤ now) : Waits b now T :=
  ⟨hw.deadline, fun ho => (hw.passed ho).trans hclock⟩

/-- The breaker registered under an id waits for the deadline of the id, and an id under which there
is none has no deadline. -/
structure Gated (w : World) : Prop where
  found : Found w
  waits : ∀ id b T, w.registered id = some b → deadline id w.history = some T →
    Waits b.world.breaker w.clock T
  unregistered : ∀ id, w.getBreaker id = none → deadline id w.history = none

theorem gated_init (t₀ : ℚ) : Gated (World.init t₀) where
  found _ _ hget := absurd hget (Option.some_ne_none _).symm
  waits _ _ _ _ hT := absurd hT (Option.some_ne_none _).symm
  unregistered _ _ := rfl

theorem gated_createBreaker (hw : Gated w) {config : CircuitBreakerConfig}
    (hcall : e.call = .createBreaker config) (hclock : w.clock ≤ e.now)
    (hfound : Found (createBreaker config e.now w)) (hc : Careful w e) :
    Gated (createBreaker config e.now w) := by
  have hdeadline : ∀ id, deadline id (createBreaker config e.now w).history =
      deadline id w.history := by
    intro id
    by_cases hid : config.id = id
    · exact deadline_cons_self hid _
    · exact deadline_cons_of_ne hid _
  refine ⟨hfound, fun id b T hb hT => ?_, fun id hget => ?_⟩
  · rw [hdeadline] at hT
    rw [registered_createBreaker hw.found] at hb
    split at hb
    · next hid =>
      cases hb
      refine ⟨fun ho => absurd ho (by simp [CircuitBreaker.World.init]), fun _ => ?_⟩
      rw [Careful, hcall] at hc
      subst hid
      cases hold : w.registered config.id with
      | some old => exact ((hw.waits _ old T hold hT).passed (hc old hold).1).trans hclock
      | none =>
        have hget : w.getBreaker config.id = none := by
          by_contra hne
          obtain ⟨handle, hget⟩ := Option.ne_none_iff_exists'.mp hne
          obtain ⟨b, hb, -⟩ := hw.found _ handle hget
          exact absurd (hold.symm.trans (registered_eq_some.mpr ⟨handle, hget, hb⟩))
            (Option.some_ne_none b).symm
        exact absurd (hT.symm.trans (hw.unregistered _ hget)) (Option.some_ne_none T)
    · exact (hw.waits id b T hb hT).mono hclock
  · rw [hdeadline]
    refine hw.unregistered id ?_
    have hget : (w.breakers.set config.id w.created.length).get id = none := hget
    rw [InsertionMap.get_set] at hget
    split at hget
    · exact absurd hget (Option.some_ne_none _)
    · exact hget

theorem gated_removeBreaker (hw : Gated w) (removed : String) (hclock : w.clock ≤ e.now)
    (hfound : Found (removeBreaker removed e.now w)) :
    Gated (removeBreaker removed e.now w) := by
  refine ⟨hfound, fun id b T hb hT => ?_, fun id hget => ?_⟩
  · rw [registered_removeBreaker] at hb
    split at hb
    · exact absurd hb (Option.some_ne_none _).symm
    · next hid =>
      have hT : deadline id (_ :: w.history) = some T := hT
      rw [deadline_cons_of_ne (Ne.symm hid)] at hT
      exact (hw.waits id b T hb hT).mono hclock
  · change deadline id (_ :: w.history) = none
    by_cases hid : removed = id
    · exact deadline_cons_self hid _
    · have hget : (w.breakers.delete removed).get id = none := hget
      rw [InsertionMap.get_delete, if_neg (Ne.symm hid)] at hget
      rw [deadline_cons_of_ne hid]
      exact hw.unregistered id hget

/-- What a deadline is after a breaker has gone on: none, or that of its opening, or the one from
before. -/
theorem deadline_advance {b : Breaker} {next : CircuitBreaker.World} {action : Action} {now T : ℚ}
    (hT : deadline id (recordOf b next action now :: w.history) = some T)
    (hid : b.config.id = id) :
    (action ≠ .close ∧ action ≠ .reset) ∧
      ((b.world.breaker.state ≠ .open ∧ next.breaker.state = .open) ∧
          T = now + b.config.timeoutMs ∨
        ¬ (b.world.breaker.state ≠ .open ∧ next.breaker.state = .open) ∧
          deadline id w.history = some T) := by
  rw [deadline_cons_self hid] at hT
  split at hT
  · exact absurd hT (Option.some_ne_none _).symm
  · next hcleared =>
    have hcleared : ¬ (action = .close ∨ action = .reset) := by simpa [recordOf] using hcleared
    refine ⟨not_or.mp hcleared, ?_⟩
    by_cases hopened : b.world.breaker.state ≠ .open ∧ next.breaker.state = .open
    · rw [recordOf, if_pos hopened, Option.some_or] at hT
      exact .inl ⟨hopened, (Option.some.inj hT).symm⟩
    · rw [recordOf, if_neg hopened, Option.none_or] at hT
      exact .inr ⟨hopened, hT⟩

/-- A breaker that is not the one registered under the id leaves the deadline of the id. -/
theorem deadline_of_stale {handle : ℕ} {action : Action} {b : Breaker}
    {next : CircuitBreaker.World} (hcall : e.call = .on handle action)
    (hb : w.created[handle]? = some b)
    (hnext : (CircuitBreaker.system b.config).step b.world ⟨e.now, e.throws, action⟩ = some next)
    (hc : Careful w e) (hget : w.getBreaker id ≠ some handle) {T : ℚ}
    (hT : deadline id (recordOf b next action e.now :: w.history) = some T) :
    deadline id w.history = some T := by
  rw [Careful, hcall] at hc
  by_cases hid : b.config.id = id
  · obtain ⟨-, ⟨hopened, -⟩ | ⟨-, hT⟩⟩ := deadline_advance hT hid
    · subst hid
      exact absurd hopened (not_opens_of_quiet hnext ((hc b hb).resolve_left hget).1)
    · exact hT
  · rwa [deadline_cons_of_ne hid] at hT

theorem gated_advance (hw : Gated w) {handle : ℕ} {action : Action} {b : Breaker}
    {next : CircuitBreaker.World} (hcall : e.call = .on handle action)
    (hclock : w.clock ≤ e.now) (hb : w.created[handle]? = some b)
    (hnext : (CircuitBreaker.system b.config).step b.world ⟨e.now, e.throws, action⟩ = some next)
    (hfound : Found (advance handle b next action e.now w)) (hc : Careful w e) :
    Gated (advance handle b next action e.now w) := by
  refine ⟨hfound, fun id b' T hb' hT => ?_, fun id hget => ?_⟩
  · have hT : deadline id (recordOf b next action e.now :: w.history) = some T := hT
    rw [registered_advance hb] at hb'
    split at hb'
    · next hget =>
      obtain ⟨b₀, hb₀, hid⟩ := hw.found id handle hget
      obtain rfl : b = b₀ := Option.some.inj (hb.symm.trans hb₀)
      cases hb'
      obtain ⟨⟨hclose, hreset⟩, ⟨hopened, rfl⟩ | ⟨hopened, hT⟩⟩ := deadline_advance hT hid
      · exact Waits.opened hnext hopened
      · have hwaits := hw.waits id b T (registered_eq_some.mpr ⟨handle, hget, hb⟩) hT
        exact hwaits.step hnext hclose hreset hclock hopened
    · next hget =>
      have hT := deadline_of_stale hcall hb hnext hc hget hT
      exact (hw.waits id b' T hb' hT).mono hclock
  · have hget : w.getBreaker id = none := hget
    change deadline id (recordOf b next action e.now :: w.history) = none
    by_contra hne
    obtain ⟨T, hT⟩ := Option.ne_none_iff_exists'.mp hne
    have hT := deadline_of_stale hcall hb hnext hc
      (hget ▸ (Option.some_ne_none handle).symm) hT
    exact absurd (hT.symm.trans (hw.unregistered id hget)) (Option.some_ne_none T)

theorem gated_step (hw : Gated w) (hc : Careful w e) (h : system.step w e = some w') :
    Gated w' := by
  have hfound := found_step hw.found h
  obtain ⟨hclock, hcases⟩ := step_cases h
  rcases hcases with ⟨config, hcall, rfl⟩ | ⟨removed, -, rfl⟩ |
    ⟨handle, action, b, next, hcall, hb, hnext, rfl⟩
  · exact gated_createBreaker hw hcall hclock hfound hc
  · exact gated_removeBreaker hw removed hclock hfound
  · exact gated_advance hw hcall hclock hb hnext hfound hc

/-! ## What is promised -/

/-- Calls for one id leave the breakers of the others alone, in every run. -/
theorem registered_of_id?_ne (hfound : Found w) (h : system.step w e = some w')
    (hid : e.id? w ≠ some id) : w'.registered id = w.registered id := by
  obtain ⟨-, hcases⟩ := step_cases h
  unfold Event.id? at hid
  rcases hcases with ⟨config, hcall, rfl⟩ | ⟨removed, hcall, rfl⟩ |
    ⟨handle, action, b, next, hcall, hb, -, rfl⟩
  · rw [hcall] at hid
    rw [registered_createBreaker hfound, if_neg fun heq => hid (congrArg some heq.symm)]
  · rw [hcall] at hid
    rw [registered_removeBreaker, if_neg fun heq => hid (congrArg some heq.symm)]
  · rw [hcall] at hid
    rw [registered_advance hb]
    refine if_neg fun hget => hid ?_
    obtain ⟨b', hb', hid'⟩ := hfound id handle hget
    change (w.created[handle]?.map _) = _
    rw [hb', Option.map_some, hid']

/-- Only the breaker that goes on can start an operation, and it has waited. -/
theorem gate_of_gated (hw : Gated w) (hc : Careful w e) (h : system.step w e = some w')
    {handle : ℕ} {b b' : Breaker} (hb : w.created[handle]? = some b)
    (hb' : w'.created[handle]? = some b') (hlt : b.world.started < b'.world.started) {T : ℚ}
    (hT : deadline b.config.id w.history = some T) : T ≤ e.now := by
  obtain ⟨hclock, hcases⟩ := step_cases h
  rcases hcases with ⟨config, -, rfl⟩ | ⟨removed, -, rfl⟩ |
    ⟨handle', action, b₀, next, hcall, hb₀, hnext, rfl⟩
  · have hold : (w.created ++ [{ config := config, world := .init e.now }])[handle]? =
        w.created[handle]? := List.getElem?_append_left (List.getElem?_eq_some_iff.mp hb).1
    obtain rfl : b = b' := Option.some.inj ((hold.trans hb).symm.trans hb')
    exact absurd hlt (Nat.lt_irrefl _)
  · obtain rfl : b = b' := Option.some.inj (hb.symm.trans hb')
    exact absurd hlt (Nat.lt_irrefl _)
  · have hset : (w.created.set handle' { b₀ with world := next })[handle]? = some b' := hb'
    rw [List.getElem?_set] at hset
    split at hset
    · next heq =>
      subst heq
      obtain rfl : b = b₀ := Option.some.inj (hb.symm.trans hb₀)
      rw [if_pos (List.getElem?_eq_some_iff.mp hb).1] at hset
      cases hset
      rw [Careful, hcall] at hc
      rcases hc b hb with hget | ⟨-, hstart⟩
      · exact Waits.le_of_started_lt hnext hlt hclock
          (hw.waits _ b T (registered_eq_some.mpr ⟨handle', hget, hb⟩) hT)
      · rcases hstart (CircuitBreaker.execute_of_started_lt hnext hlt).1 with hblocks | hpassed
        · exact absurd hlt (not_started_lt_of_blocks hnext hblocks)
        · exact hpassed T hT
    · obtain rfl : b = b' := Option.some.inj (hb.symm.trans hset)
      exact absurd hlt (Nat.lt_irrefl _)

theorem protected_of_gated (hw : Gated w) (hc : Careful w e) (h : system.step w e = some w') :
    Protected w e w' where
  gate _ _ _ hb hb' hlt _ hT := gate_of_gated hw hc h hb hb' hlt hT
  keeps config hcall old hold new hnew := by
    obtain ⟨-, hcases⟩ := step_cases h
    rw [Careful, hcall] at hc
    obtain ⟨hopen, hfailures, hconsecutive⟩ := hc old hold
    rcases hcases with ⟨config', hcall', rfl⟩ | ⟨removed, hcall', -⟩ | ⟨_, _, _, _, hcall', -⟩
    · cases hcall.symm.trans hcall'
      rw [registered_createBreaker hw.found, if_pos rfl] at hnew
      cases hnew
      exact ⟨fun ho => absurd ho hopen, hfailures.symm, hconsecutive.symm⟩
    · cases hcall.symm.trans hcall'
    · cases hcall.symm.trans hcall'
  others _ hid := registered_of_id?_ne hw.found h hid

/-- **In a run of careful steps every id is protected**: no operation starts before the deadline of
its id, creating a breaker again discards nothing, and other ids are left alone. -/
theorem protected_of_run (t₀ : ℚ) (es : List Event)
    (hcareful : system.StepsMeet Careful (World.init t₀) (es ++ [e]))
    (hrun : system.runFrom (World.init t₀) es = some w) (hstep : system.step w e = some w') :
    Protected w e w' := by
  obtain ⟨hes, he⟩ := System.meets_last hcareful hrun
  exact protected_of_gated
    (System.invariant_of_stepsMeet (fun _ _ _ hw hc hs => gated_step hw hc hs) (gated_init t₀) hes
      hrun) he hstep

/-- A breaker for the calls of a payment provider. -/
def stripe : CircuitBreakerConfig :=
  { id := "stripe-payment", failureThreshold := .count 1, timeout := some 60 }

/-- An event under a callback that does not throw. -/
def quietly (now : ℚ) (call : Call) : Event := ⟨now, fun _ _ => false, call⟩

/-- A breaker that was opened by hand starts an operation after its timeout. -/
theorem protected_stripe :
    ∃ w w' : World,
      system.runFrom (World.init 0)
        [quietly 1 (.createBreaker stripe), quietly 5 (.on 0 .open)] = some w ∧
      system.step w (quietly 65 (.on 0 .execute)) = some w' ∧
      deadline "stripe-payment" w.history = some 65 ∧
      Protected w (quietly 65 (.on 0 .execute)) w' := by
  refine ⟨_, _, rfl, rfl, by decide +kernel, protected_of_run 0
    [quietly 1 (.createBreaker stripe), quietly 5 (.on 0 .open)] ?_ rfl rfl⟩
  refine ⟨fun old hold => absurd hold (Option.some_ne_none old).symm, fun w₁ h₁ => ?_⟩
  obtain rfl := Option.some.inj h₁
  refine ⟨?_, fun w₂ h₂ => ?_⟩
  · intro b hb
    obtain rfl := Option.some.inj hb
    exact .inl rfl
  · obtain rfl := Option.some.inj h₂
    refine ⟨?_, fun _ _ => trivial⟩
    intro b hb
    obtain rfl := Option.some.inj hb
    exact .inl rfl

/-- A job that creates the breaker again calls the provider while it is to be left alone. -/
theorem not_protected_stripe :
    ¬ ∀ (es : List Event) (e : Event) (w w' : World),
      system.runFrom (World.init 0) es = some w → system.step w e = some w' →
        Protected w e w' := by
  intro hclaim
  have hprotected := hclaim
    [quietly 1 (.createBreaker stripe), quietly 2 (.on 0 .execute),
      quietly 3 (.on 0 (.settled 0 (.error ()))), quietly 4 (.createBreaker stripe)]
    (quietly 5 (.on 1 .execute)) _ _ rfl rfl
  exact absurd (hprotected.gate 1 _ _ rfl rfl (by decide +kernel) 63
    (by decide +kernel)) (by decide +kernel)

end Steps

end KitiumJobQueue.CircuitBreakerManager
