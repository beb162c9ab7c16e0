import KitiumJobQueue.Foundations.Handles
import KitiumJobQueue.Foundations.Histories
import KitiumJobQueue.Foundations.InsertionMaps
import KitiumJobQueue.GlobalQueue.Manager

/-!
# What the global queue holds open

`initialize` and `close` of `GlobalQueueManager`, with the handles that `Manager` leaves out: for
each region a queue, a Redis client and the timer of its health check. The three maps are the only
place where the manager keeps them. `created` counts all that was ever created, and lists what was
closed, quit or cleared: a handle counts as released once that was asked for.

`forall_closed_iff` says when nothing is left open by a `close`, for all sequences of calls.
-/

namespace KitiumJobQueue.QueueResources

open Effects JavaScript
open GlobalQueue (RegionConfig GlobalQueueConfig noRegions determinePrimaryRegion)

/-! ## The manager -/

/-- The fields of a manager, and the ledger of what it has created. -/
structure Manager where
  queues : InsertionMap String ℕ := .empty
  redisClients : InsertionMap String ℕ := .empty
  config : Option GlobalQueueConfig := none
  primaryRegion : Option String := none
  healthCheckIntervals : InsertionMap String ℕ := .empty
  created : Ledger := {}

/-- A method of the manager. -/
abbrev Method := Async Thrown (Remote Manager)

/-- Change the manager's fields. -/
def modifyManager (f : Manager → Manager) : Method Unit :=
  .modify fun r => { r with server := f r.server }

/-- What is created next has the number that the ledger comes to. -/
def create : Method ℕ := do
  let handle ← .read fun r => r.server.created.opened
  modifyManager fun m => { m with created := m.created.next }
  pure handle

section Methods

variable (answers : ℕ → Answer Thrown)

/-- A call that may fail. -/
def attempt : Method Unit := call answers fun m => ((), m)

/-- `new ioredis(...)` and `new Queue(...)`. A constructor that throws has created nothing. -/
def construct : Method ℕ := do
  attempt answers
  create

/-- `queue.close()` and `redis.quit()`. -/
def shut (handle : ℕ) : Method Unit := do
  modifyManager fun m => { m with created := m.created.release handle }
  attempt answers

/-- `GlobalQueueManager.initializeRegion` -/
def initializeRegion (region : RegionConfig) : Method Unit :=
  tryCatch
    (do
      let redis ← construct answers
      let queueInstance ← construct answers
      modifyManager fun m =>
        { m with
          redisClients := m.redisClients.set region.region redis
          queues := m.queues.set region.region queueInstance })
    fun error => throw error

/-- `GlobalQueueManager.initializeRegions` -/
def initializeRegions : List RegionConfig → Method Unit
  | [] => pure ()
  | region :: regions => do
    initializeRegion answers region
    initializeRegions regions

/-- `GlobalQueueManager.startHealthCheck` -/
def startHealthCheck (region : RegionConfig) : Method Unit := do
  let interval ← create
  modifyManager fun m =>
    { m with healthCheckIntervals := m.healthCheckIntervals.set region.region interval }

/-- `GlobalQueueManager.startHealthChecks` -/
def startHealthChecks : List RegionConfig → Method Unit
  | [] => pure ()
  | region :: regions => do
    startHealthCheck region
    startHealthChecks regions

/-- `GlobalQueueManager.initialize` -/
def initializeManager (config : GlobalQueueConfig) : Method Unit :=
  tryCatch
    (if config.regions = [] then throw noRegions
    else do
      modifyManager fun m => { m with config := some config }
      initializeRegions answers config.regions
      modifyManager fun m =>
        { m with primaryRegion := some (determinePrimaryRegion config.regions) }
      startHealthChecks config.regions)
    fun error => throw error

/-- `clearInterval`, for each of the timers. -/
def clearIntervals : Method Unit :=
  modifyManager fun m =>
    { m with created := m.created.releaseAll m.healthCheckIntervals.values }

/-- The loops over the queues and over the Redis clients. -/
def shutAll : List ℕ → Method Unit
  | [] => pure ()
  | handle :: handles => do
    shut answers handle
    shutAll handles

/-- `GlobalQueueManager.close` -/
def close : Method Unit :=
  tryCatch
    (do
      clearIntervals
      let queues ← .read fun r => r.server.queues.values
      shutAll answers queues
      let redisClients ← .read fun r => r.server.redisClients.values
      shutAll answers redisClients)
    fun _ => pure ()

/-! ## Runs -/

/-- A call of a method. -/
inductive Call
  | initializeManager (config : GlobalQueueConfig)
  | close

/-- The method of a call. -/
def method : Call → Method Unit
  | .initializeManager config => initializeManager answers config
  | .close => close answers

/-- A call that is over: how it ended, and the manager before and after it. -/
structure Event where
  call : Call
  answer : Except Thrown Unit
  before : Remote Manager
  after : Manager

/-- A call made in a state. -/
def eventOf (call : Call) (r : Remote Manager) : Event where
  call := call
  answer := ((method answers call).run r).1
  before := r
  after := ((method answers call).run r).2.server

/-- The history of a run, the latest event first, after an earlier one. -/
def history : List Call → Remote Manager → List Event → List Event
  | [], _, past => past
  | call :: calls, r, past =>
    history calls ((method answers call).run r).2 (eventOf answers call r :: past)

/-- A `close` that has resolved leaves nothing open. -/
def Event.Closed (event : Event) : Prop :=
  event.call = .close → event.answer = .ok () → event.after.created.AllReleased

/-! ## When nothing is lost -/

/-- The slots of the three maps. -/
inductive Slot
  | queue (region : String)
  | redisClient (region : String)
  | healthCheckInterval (region : String)
  deriving DecidableEq

/-- What the manager holds. -/
def Manager.held (m : Manager) : Slot → Option ℕ
  | .queue region => m.queues.get region
  | .redisClient region => m.redisClients.get region
  | .healthCheckInterval region => m.healthCheckIntervals.get region

/-- Nothing open is held in the slot. -/
abbrev Manager.Free (m : Manager) (slot : Slot) : Prop := m.created.Free m.held slot

/-- The regions that are set up, the calls of their constructors numbered from `n`: each has a name
not used in this initialization and under which nothing is open, and where its Redis client can be
created its queue can be. Those after a failure are not reached. -/
def KeepsRegions (m : Manager) : List String → List String → ℕ → Prop
  | _, [], _ => True
  | seen, region :: regions, n =>
    (answers n).IsAnswered → (answers (n + 1)).IsAnswered ∧
      region ∉ seen ∧ m.Free (.queue region) ∧ m.Free (.redisClient region) ∧
      KeepsRegions m (region :: seen) regions (n + 2)

/-- An initialization that loses no handle. The timers are started if all constructors return. -/
def Keeps (r : Remote Manager) (config : GlobalQueueConfig) : Prop :=
  KeepsRegions answers r.server [] config.regionNames r.calls ∧
    ((∀ i < 2 * config.regions.length, (answers (r.calls + i)).IsAnswered) →
      ∀ region ∈ config.regionNames, r.server.Free (.healthCheckInterval region))

/-- Of the handles to shut, the calls numbered from `n`, one that cannot be is followed by none that
is open. -/
def ShutsAll : Ledger → List ℕ → ℕ → Prop
  | _, [], _ => True
  | created, handle :: handles, n =>
    if (answers n).IsAnswered then ShutsAll (created.release handle) handles (n + 1)
    else ∀ h ∈ handles, h ∈ (created.release handle).released

/-- A closing that reaches every handle that is open. -/
def Reaches (r : Remote Manager) : Prop :=
  ShutsAll answers (r.server.created.releaseAll r.server.healthCheckIntervals.values)
    (r.server.queues.values ++ r.server.redisClients.values) r.calls

/-- The call, if it is an initialization, loses no handle. -/
def Event.Keeps (event : Event) : Prop :=
  match event.call with
  | .initializeManager config => QueueResources.Keeps answers event.before config
  | .close => True

/-- The call, if it closes, reaches what is open, and no initialization before it has lost
anything. -/
def Event.Meets (event : Event) (past : List Event) : Prop :=
  event.call = .close → Reaches answers event.before ∧ ∀ earlier ∈ past, earlier.Keeps answers

end Methods

/-! ## One method at a time -/

/-- Everything open is held by the manager. -/
abbrev Manager.Accounted (m : Manager) : Prop := m.created.Accounted m.held

/-- The maps and the ledger fit together. -/
abbrev Manager.Sound (m : Manager) : Prop := m.created.Fits m.held

/-- A new manager holds nothing. -/
theorem held_new : ({} : Manager).held = fun _ => none := by
  funext slot
  cases slot with
  | queue name | redisClient name | healthCheckInterval name => rfl

theorem sound_new : ({} : Manager).Sound := by
  rw [Manager.Sound, held_new]
  exact Ledger.fits_empty

theorem accounted_new : ({} : Manager).Accounted := by
  rw [Manager.Accounted, held_new]
  exact Ledger.accounted_empty

section Runs

variable {answers : ℕ → Answer Thrown} {r : Remote Manager} {m : Manager}

/-- A manager with a new Redis client and a new queue for the region. -/
def Manager.withRegion (m : Manager) (region : String) : Manager :=
  { m with
    redisClients := m.redisClients.set region m.created.opened
    queues := m.queues.set region m.created.next.opened
    created := m.created.next.next }

/-- A manager with a new timer for the region. -/
def Manager.withInterval (m : Manager) (region : String) : Manager :=
  { m with
    healthCheckIntervals := m.healthCheckIntervals.set region m.created.opened
    created := m.created.next }

theorem held_withInterval (m : Manager) (region : String) :
    (m.withInterval region).held = m.created.put m.held (.healthCheckInterval region) := by
  funext slot
  cases slot with
  | queue name | redisClient name => rfl
  | healthCheckInterval name =>
    change (m.healthCheckIntervals.set region m.created.opened).get name = _
    rw [InsertionMap.get_set, Ledger.put, Function.update_apply]
    simp [Manager.held]

/-- The Redis client goes into its slot, then the queue into its own. -/
theorem held_withRegion (m : Manager) (region : String) :
    (m.withRegion region).held =
      m.created.next.put (m.created.put m.held (.redisClient region)) (.queue region) := by
  funext slot
  cases slot with
  | healthCheckInterval name => rfl
  | redisClient name =>
    change (m.redisClients.set region m.created.opened).get name = _
    rw [InsertionMap.get_set, Ledger.put, Function.update_apply, Ledger.put, Function.update_apply]
    simp [Manager.held]
  | queue name =>
    change (m.queues.set region m.created.next.opened).get name = _
    rw [InsertionMap.get_set, Ledger.put, Function.update_apply, Ledger.put, Function.update_apply]
    simp [Manager.held]

theorem sound_withInterval (h : m.Sound) (region : String) : (m.withInterval region).Sound := by
  unfold Manager.Sound
  rw [held_withInterval]
  exact h.put _

theorem sound_withRegion (h : m.Sound) (region : String) : (m.withRegion region).Sound := by
  unfold Manager.Sound
  rw [held_withRegion]
  exact (h.put _).put _

theorem accounted_withInterval_iff (h : m.Sound) {region : String} :
    (m.withInterval region).Accounted ↔ m.Accounted ∧ m.Free (.healthCheckInterval region) := by
  unfold Manager.Accounted
  rw [held_withInterval]
  exact Ledger.accounted_put_iff h

theorem free_withInterval_iff (h : m.Sound) {region name : String} :
    (m.withInterval region).Free (.healthCheckInterval name) ↔
      name ≠ region ∧ m.Free (.healthCheckInterval name) := by
  unfold Manager.Free
  rw [held_withInterval]
  exact (Ledger.free_put_iff h).trans (and_congr_left' (by simp))

theorem free_withRegion_iff (h : m.Sound) {region : String} {slot : Slot} :
    (m.withRegion region).Free slot ↔
      slot ≠ .queue region ∧ slot ≠ .redisClient region ∧ m.Free slot := by
  unfold Manager.Free
  rw [held_withRegion]
  exact (Ledger.free_put_iff (h.put _)).trans (and_congr_right' (Ledger.free_put_iff h))

theorem accounted_withRegion_iff (h : m.Sound) {region : String} :
    (m.withRegion region).Accounted ↔
      m.Accounted ∧ m.Free (.queue region) ∧ m.Free (.redisClient region) := by
  unfold Manager.Accounted
  rw [held_withRegion]
  refine (Ledger.accounted_put_iff (h.put _)).trans ?_
  rw [Ledger.accounted_put_iff h, Ledger.free_put_iff h]
  have hne : (Slot.queue region) ≠ .redisClient region := by simp
  tauto

theorem run_attempt_of_answered (h : (answers r.calls).IsAnswered) :
    (attempt answers).run r = (.ok (), ⟨r.server, r.calls + 1⟩) :=
  run_call_of_answered h.eq

theorem run_attempt_of_not_answered (h : ¬ (answers r.calls).IsAnswered) :
    ∃ e, (attempt answers).run r = (.error e, ⟨r.server, r.calls + 1⟩) := by
  cases hanswer : answers r.calls with
  | answered =>
    rw [hanswer] at h
    exact absurd trivial h
  | rejected e applied =>
    refine ⟨e, (run_call_of_rejected hanswer).trans ?_⟩
    cases applied with
    | false => rfl
    | true => rfl

theorem run_construct_of_answered (h : (answers r.calls).IsAnswered) :
    (construct answers).run r = (.ok r.server.created.opened,
      ⟨{ r.server with created := r.server.created.next }, r.calls + 1⟩) := by
  rw [construct, Async.run_bind_of_ok (run_attempt_of_answered h)]
  rfl

theorem run_construct_of_not_answered (h : ¬ (answers r.calls).IsAnswered) :
    ∃ e, (construct answers).run r = (.error e, ⟨r.server, r.calls + 1⟩) := by
  obtain ⟨e, hrun⟩ := run_attempt_of_not_answered h
  exact ⟨e, Async.run_bind_of_error hrun⟩

/-- **What setting up a region does**: nothing if the Redis client cannot be created, and a client
that nothing holds if the queue cannot. -/
theorem run_initializeRegion (answers : ℕ → Answer Thrown) (region : RegionConfig)
    (r : Remote Manager) :
    (¬ (answers r.calls).IsAnswered ∧
      ∃ e, (initializeRegion answers region).run r = (.error e, ⟨r.server, r.calls + 1⟩)) ∨
    ((answers r.calls).IsAnswered ∧ ¬ (answers (r.calls + 1)).IsAnswered ∧
      ∃ e, (initializeRegion answers region).run r = (.error e,
        ⟨{ r.server with created := r.server.created.next }, r.calls + 2⟩)) ∨
    ((answers r.calls).IsAnswered ∧ (answers (r.calls + 1)).IsAnswered ∧
      (initializeRegion answers region).run r =
        (.ok (), ⟨r.server.withRegion region.region, r.calls + 2⟩)) := by
  rw [initializeRegion, Async.tryCatch_throw]
  by_cases hredis : (answers r.calls).IsAnswered
  · rw [Async.run_bind_of_ok (run_construct_of_answered hredis)]
    by_cases hqueue : (answers (r.calls + 1)).IsAnswered
    · refine .inr (.inr ⟨hredis, hqueue, ?_⟩)
      rw [Async.run_bind_of_ok (run_construct_of_answered hqueue)]
      rfl
    · obtain ⟨e, hrun⟩ := run_construct_of_not_answered
        (r := ⟨{ r.server with created := r.server.created.next }, r.calls + 1⟩) hqueue
      exact .inr (.inl ⟨hredis, hqueue, e, Async.run_bind_of_error hrun⟩)
  · obtain ⟨e, hrun⟩ := run_construct_of_not_answered hredis
    exact .inl ⟨hredis, e, Async.run_bind_of_error hrun⟩

/-! ## The loops of an initialization -/

/-- Nothing open is held under the region's name, apart from a timer. -/
def Manager.RegionFree (m : Manager) (region : String) : Prop :=
  m.Free (.queue region) ∧ m.Free (.redisClient region)

theorem regionFree_withRegion_iff (h : m.Sound) {region name : String} :
    (m.withRegion region).RegionFree name ↔ name ≠ region ∧ m.RegionFree name := by
  unfold Manager.RegionFree
  rw [free_withRegion_iff h, free_withRegion_iff h]
  simp only [ne_eq, Slot.queue.injEq, reduceCtorEq, not_false_eq_true, Slot.redisClient.injEq,
    true_and]
  tauto

theorem free_interval_withRegion_iff (h : m.Sound) {region name : String} :
    (m.withRegion region).Free (.healthCheckInterval name) ↔
      m.Free (.healthCheckInterval name) := by
  rw [free_withRegion_iff h]
  simp

/-- The constructors of so many regions, numbered from `n`, return. -/
def AllReturn (answers : ℕ → Answer Thrown) (n count : ℕ) : Prop :=
  ∀ i < 2 * count, (answers (n + i)).IsAnswered

theorem allReturn_succ_iff {n count : ℕ} :
    AllReturn answers n (count + 1) ↔ (answers n).IsAnswered ∧ (answers (n + 1)).IsAnswered ∧
      AllReturn answers (n + 2) count := by
  constructor
  · intro h
    refine ⟨h 0 (by omega), h 1 (by omega), fun i hi => ?_⟩
    rw [Nat.add_assoc, Nat.add_comm 2 i]
    exact h (i + 2) (by omega)
  · rintro ⟨h₀, h₁, h⟩ i hi
    match i with
    | 0 => exact h₀
    | 1 => exact h₁
    | i + 2 =>
      have hi' := h i (by omega)
      rwa [Nat.add_assoc, Nat.add_comm 2 i] at hi'

/-- What the loop over the regions leaves. -/
structure Initialized (answers : ℕ → Answer Thrown) (m₀ : Manager) (seen : List String)
    (regions : List RegionConfig) (r : Remote Manager) : Prop where
  sound : ((initializeRegions answers regions).run r).2.server.Sound
  accounted_iff : ((initializeRegions answers regions).run r).2.server.Accounted ↔
    r.server.Accounted ∧
      KeepsRegions answers m₀ seen (regions.map RegionConfig.region) r.calls
  resolves_iff : ((initializeRegions answers regions).run r).1 = .ok () ↔
    AllReturn answers r.calls regions.length
  free_interval_iff : ∀ name,
    ((initializeRegions answers regions).run r).2.server.Free (.healthCheckInterval name) ↔
      r.server.Free (.healthCheckInterval name)

namespace Initialized

variable {m₀ : Manager} {seen : List String} {region : RegionConfig} {regions : List RegionConfig}
  {r r' : Remote Manager}

/-- The loop ends with a region that cannot be set up. -/
theorem of_error {e : Thrown}
    (hloop : (initializeRegions answers (region :: regions)).run r = (.error e, r'))
    (hsound : r'.server.Sound)
    (haccounted : r'.server.Accounted ↔ r.server.Accounted ∧
      KeepsRegions answers m₀ seen (region.region :: regions.map RegionConfig.region) r.calls)
    (hstop : ¬ ((answers r.calls).IsAnswered ∧ (answers (r.calls + 1)).IsAnswered))
    (hfree : ∀ name, r'.server.Free (.healthCheckInterval name) ↔
      r.server.Free (.healthCheckInterval name)) :
    Initialized answers m₀ seen (region :: regions) r := by
  constructor
  · rw [hloop]
    exact hsound
  · rw [hloop]
    exact haccounted
  · rw [hloop, List.length_cons, allReturn_succ_iff]
    exact iff_of_false nofun fun h => hstop ⟨h.1, h.2.1⟩
  · rw [hloop]
    exact hfree

/-- A region is set up, and the loop goes on. -/
theorem cons (hsound : r.server.Sound) (hredis : (answers r.calls).IsAnswered)
    (hqueue : (answers (r.calls + 1)).IsAnswered)
    (hfree : r.server.RegionFree region.region ↔ region.region ∉ seen ∧
      m₀.RegionFree region.region)
    (hloop : (initializeRegions answers (region :: regions)).run r =
      (initializeRegions answers regions).run ⟨r.server.withRegion region.region, r.calls + 2⟩)
    (hnext : Initialized answers m₀ (region.region :: seen) regions
      ⟨r.server.withRegion region.region, r.calls + 2⟩) :
    Initialized answers m₀ seen (region :: regions) r := by
  constructor
  · rw [hloop]
    exact hnext.sound
  · rw [hloop, hnext.accounted_iff, accounted_withRegion_iff hsound, List.map_cons, KeepsRegions]
    unfold Manager.RegionFree at hfree
    tauto
  · rw [hloop, hnext.resolves_iff, List.length_cons, allReturn_succ_iff]
    tauto
  · intro name
    rw [hloop, hnext.free_interval_iff]
    exact free_interval_withRegion_iff hsound

end Initialized

/-- By induction on the regions, those set up so far being no longer free. -/
theorem initialized (answers : ℕ → Answer Thrown) {m₀ : Manager} {seen : List String}
    (regions : List RegionConfig) {r : Remote Manager} (hsound : r.server.Sound)
    (hfree : ∀ name, r.server.RegionFree name ↔ name ∉ seen ∧ m₀.RegionFree name) :
    Initialized answers m₀ seen regions r := by
  induction regions generalizing seen r with
  | nil =>
    exact
      { sound := hsound
        accounted_iff := (and_iff_left trivial).symm
        resolves_iff := iff_of_true rfl fun i hi => absurd hi (by simp)
        free_interval_iff := fun _ => Iff.rfl }
  | cons region regions ih =>
    rcases run_initializeRegion answers region r with
      ⟨hredis, e, hrun⟩ | ⟨hredis, hqueue, e, hrun⟩ | ⟨hredis, hqueue, hrun⟩
    · refine .of_error (Async.run_bind_of_error hrun) hsound ?_ (fun h => hredis h.1)
        fun _ => Iff.rfl
      exact (and_iff_left fun h => absurd h hredis).symm
    · refine .of_error (Async.run_bind_of_error hrun) hsound.next ?_ (fun h => hqueue h.2)
        fun _ => Iff.rfl
      exact iff_of_false (Ledger.not_accounted_next hsound) fun h => hqueue (h.2 hredis).1
    · refine .cons hsound hredis hqueue (hfree _) (Async.run_bind_of_ok hrun) ?_
      refine ih (sound_withRegion hsound _) fun name => ?_
      rw [regionFree_withRegion_iff hsound, hfree, List.mem_cons]
      tauto

/-- The timers are started one after another, which cannot fail. -/
theorem run_startHealthChecks (regions : List RegionConfig) (r : Remote Manager) :
    (startHealthChecks regions).run r =
      (.ok (), ⟨(regions.map RegionConfig.region).foldl Manager.withInterval r.server,
        r.calls⟩) := by
  induction regions generalizing r with
  | nil => rfl
  | cons region regions ih =>
    have hrun : (startHealthCheck region).run r =
        (.ok (), ⟨r.server.withInterval region.region, r.calls⟩) := rfl
    rw [startHealthChecks, Async.run_bind_of_ok hrun, ih]
    rfl

theorem sound_withIntervals (hsound : m.Sound) (names : List String) :
    (names.foldl Manager.withInterval m).Sound := by
  induction names generalizing m with
  | nil => exact hsound
  | cons name names ih => exact ih (sound_withInterval hsound name)

/-- No timer is lost exactly if the names are distinct and none has one that runs. -/
theorem accounted_withIntervals_iff (hsound : m.Sound) {names : List String} :
    (names.foldl Manager.withInterval m).Accounted ↔
      m.Accounted ∧ names.Nodup ∧ ∀ name ∈ names, m.Free (.healthCheckInterval name) := by
  induction names generalizing m with
  | nil => simp
  | cons name names ih =>
    rw [List.foldl_cons, ih (sound_withInterval hsound name), accounted_withInterval_iff hsound,
      List.nodup_cons, List.forall_mem_cons]
    have hfree : (∀ name' ∈ names, (m.withInterval name).Free (.healthCheckInterval name')) ↔
        name ∉ names ∧ ∀ name' ∈ names, m.Free (.healthCheckInterval name') := by
      simp only [free_withInterval_iff hsound, forall_and, and_congr_left_iff]
      exact fun _ => ⟨fun h hmem => h name hmem rfl, fun h name' hmem heq => h (heq ▸ hmem)⟩
    rw [hfree]
    tauto

/-- Regions that are all set up without a loss have distinct names. -/
theorem nodup_of_keepsRegions {m₀ : Manager} {seen names : List String} {n : ℕ}
    (hreturn : AllReturn answers n names.length)
    (hkeeps : KeepsRegions answers m₀ seen names n) :
    names.Nodup ∧ ∀ name ∈ names, name ∉ seen := by
  induction names generalizing seen n with
  | nil => simp
  | cons name names ih =>
    obtain ⟨hredis, -, hreturn⟩ := allReturn_succ_iff.mp hreturn
    obtain ⟨-, hseen, -, -, hkeeps⟩ := hkeeps hredis
    obtain ⟨hnodup, hnotMem⟩ := ih hreturn hkeeps
    refine ⟨List.nodup_cons.mpr ⟨fun hmem => ?_, hnodup⟩, ?_⟩
    · exact hnotMem name hmem List.mem_cons_self
    · rw [List.forall_mem_cons]
      exact ⟨hseen, fun name' hmem hin => hnotMem name' hmem (List.mem_cons_of_mem name hin)⟩

/-- The timers, once all regions are set up. -/
theorem accounted_timers_iff {m₀ m : Manager} {names : List String} {n : ℕ} (hsound : m.Sound)
    (hreturn : AllReturn answers n names.length)
    (haccounted : m.Accounted ↔ m₀.Accounted ∧ KeepsRegions answers m₀ [] names n)
    (hfree : ∀ name, m.Free (.healthCheckInterval name) ↔ m₀.Free (.healthCheckInterval name)) :
    (names.foldl Manager.withInterval m).Accounted ↔
      m₀.Accounted ∧ KeepsRegions answers m₀ [] names n ∧
        (AllReturn answers n names.length →
          ∀ name ∈ names, m₀.Free (.healthCheckInterval name)) := by
  have htimers : (∀ name ∈ names, m.Free (.healthCheckInterval name)) ↔
      ∀ name ∈ names, m₀.Free (.healthCheckInterval name) :=
    forall₂_congr fun name _ => hfree name
  rw [accounted_withIntervals_iff hsound, haccounted, htimers]
  constructor
  · rintro ⟨⟨hacc, hkeeps⟩, -, hintervals⟩
    exact ⟨hacc, hkeeps, fun _ => hintervals⟩
  · rintro ⟨hacc, hkeeps, hintervals⟩
    exact ⟨⟨hacc, hkeeps⟩, (nodup_of_keepsRegions hreturn hkeeps).1, hintervals hreturn⟩

/-- **An initialization loses no handle exactly if it `Keeps`**, whether it resolves or rejects. -/
theorem accounted_initializeManager (config : GlobalQueueConfig) (hsound : r.server.Sound) :
    ((initializeManager answers config).run r).2.server.Sound ∧
      (((initializeManager answers config).run r).2.server.Accounted ↔
        r.server.Accounted ∧ Keeps answers r config) := by
  rw [initializeManager, Async.tryCatch_throw]
  split
  · next hregions =>
    refine ⟨hsound, (and_iff_left ?_).symm⟩
    simp [Keeps, GlobalQueueConfig.regionNames, hregions, KeepsRegions]
  · set r₁ : Remote Manager := ⟨{ r.server with config := some config }, r.calls⟩ with hr₁
    have hinit : Initialized answers r.server [] config.regions r₁ :=
      initialized answers config.regions hsound fun name => by simp [hr₁]; rfl
    have hconfig : (modifyManager fun m => { m with config := some config }).run r =
        (.ok (), r₁) := rfl
    rw [Async.run_bind_of_ok hconfig]
    cases hrun : (initializeRegions answers config.regions).run r₁ with
    | mk result r₂ =>
      obtain ⟨hsound₂, haccounted, hresolves, hfree⟩ := hinit
      rw [hrun] at hsound₂ haccounted hresolves hfree
      cases result with
      | error e =>
        rw [Async.run_bind_of_error hrun]
        refine ⟨hsound₂, haccounted.trans (and_congr_right fun _ => ?_)⟩
        have hstop : ¬ AllReturn answers r.calls config.regions.length :=
          fun h => absurd (hresolves.mpr h) nofun
        exact (and_iff_left fun h => absurd h hstop).symm
      | ok u =>
        have hlength : config.regionNames.length = config.regions.length := by
          simp [GlobalQueueConfig.regionNames]
        have hreturn : AllReturn answers r.calls config.regionNames.length :=
          hlength ▸ hresolves.mp rfl
        set m₃ : Manager :=
          { r₂.server with primaryRegion := some (determinePrimaryRegion config.regions) }
        have hprimary : (modifyManager fun m =>
            { m with primaryRegion := some (determinePrimaryRegion config.regions) }).run r₂ =
            (.ok (), ⟨m₃, r₂.calls⟩) := rfl
        have hsound₃ : m₃.Sound := hsound₂
        have haccounted₃ : m₃.Accounted ↔ r.server.Accounted ∧
            KeepsRegions answers r.server [] config.regionNames r.calls := haccounted
        have htimers := accounted_timers_iff hsound₃ hreturn haccounted₃ hfree
        rw [hlength] at htimers
        rw [Async.run_bind_of_ok hrun, Async.run_bind_of_ok hprimary, run_startHealthChecks]
        exact ⟨sound_withIntervals hsound₃ _, htimers⟩

/-! ## Closing -/

/-- The state once a handle was asked to shut. -/
def afterShut (r : Remote Manager) (handle : ℕ) : Remote Manager :=
  ⟨{ r.server with created := r.server.created.release handle }, r.calls + 1⟩

theorem run_shut_of_answered {handle : ℕ} (h : (answers r.calls).IsAnswered) :
    (shut answers handle).run r = (.ok (), afterShut r handle) := by
  have hrelease : (modifyManager fun m => { m with created := m.created.release handle }).run r =
      (.ok (), ⟨{ r.server with created := r.server.created.release handle }, r.calls⟩) := rfl
  rw [shut, Async.run_bind_of_ok hrelease]
  exact run_attempt_of_answered
    (r := ⟨{ r.server with created := r.server.created.release handle }, r.calls⟩) h

theorem run_shut_of_not_answered (h : ¬ (answers r.calls).IsAnswered) (handle : ℕ) :
    ∃ e, (shut answers handle).run r = (.error e, afterShut r handle) := by
  have hrelease : (modifyManager fun m => { m with created := m.created.release handle }).run r =
      (.ok (), ⟨{ r.server with created := r.server.created.release handle }, r.calls⟩) := rfl
  obtain ⟨e, hrun⟩ := run_attempt_of_not_answered
    (r := ⟨{ r.server with created := r.server.created.release handle }, r.calls⟩) h
  refine ⟨e, ?_⟩
  rw [shut, Async.run_bind_of_ok hrelease]
  exact hrun

/-- A loop over handles goes on after each that can be shut. -/
theorem run_shutAll_cons_of_answered (h : (answers r.calls).IsAnswered) (handle : ℕ)
    (handles : List ℕ) :
    (shutAll answers (handle :: handles)).run r =
      (shutAll answers handles).run (afterShut r handle) :=
  Async.run_bind_of_ok (run_shut_of_answered h)

/-- It stops at the first that cannot be. -/
theorem run_shutAll_cons_of_not_answered (h : ¬ (answers r.calls).IsAnswered) (handle : ℕ) :
    ∃ e, ∀ handles, (shutAll answers (handle :: handles)).run r =
      (.error e, afterShut r handle) := by
  obtain ⟨e, hrun⟩ := run_shut_of_not_answered h handle
  exact ⟨e, fun _ => Async.run_bind_of_error hrun⟩

/-- What a loop over handles leaves: those shut are among them, and none stays open exactly if the
loop gets past the last open one. -/
structure Shut (answers : ℕ → Answer Thrown) (handles : List ℕ) (r : Remote Manager) : Prop where
  released : ∃ shut ⊆ handles, ((shutAll answers handles).run r).2.server =
    { r.server with created := r.server.created.releaseAll shut }
  shutsAll_iff : (∀ h ∈ handles,
      h ∈ ((shutAll answers handles).run r).2.server.created.released) ↔
    ShutsAll answers r.server.created handles r.calls

theorem shut_handles (answers : ℕ → Answer Thrown) (handles : List ℕ) (r : Remote Manager) :
    Shut answers handles r := by
  induction handles generalizing r with
  | nil => exact ⟨⟨[], List.Subset.refl [], rfl⟩, iff_of_true nofun trivial⟩
  | cons handle handles ih =>
    by_cases hanswer : (answers r.calls).IsAnswered
    · have hloop := run_shutAll_cons_of_answered hanswer handle handles
      obtain ⟨⟨shut, hsubset, hserver⟩, hiff⟩ := ih (afterShut r handle)
      refine ⟨⟨handle :: shut, List.cons_subset_cons handle hsubset, ?_⟩, ?_⟩
      · rw [hloop, hserver]
        rfl
      · rw [hloop, List.forall_mem_cons, ShutsAll, if_pos hanswer]
        refine (and_iff_right ?_).trans hiff
        rw [hserver]
        simp [afterShut]
    · obtain ⟨e, hloop⟩ := run_shutAll_cons_of_not_answered hanswer handle
      refine ⟨⟨[handle], by simp, ?_⟩, ?_⟩
      · rw [hloop]
        rfl
      · rw [hloop, List.forall_mem_cons, ShutsAll, if_neg hanswer]
        exact and_iff_right List.mem_cons_self

/-- Two loops one after the other are one. -/
theorem run_shutAll_append (handles handles' : List ℕ) (r : Remote Manager) :
    (shutAll answers (handles ++ handles')).run r =
      (shutAll answers handles >>= fun _ => shutAll answers handles').run r := by
  induction handles generalizing r with
  | nil => rfl
  | cons handle handles ih =>
    rw [List.cons_append]
    by_cases hanswer : (answers r.calls).IsAnswered
    · rw [run_shutAll_cons_of_answered hanswer, ih, Async.run_bind, Async.run_bind,
        run_shutAll_cons_of_answered hanswer]
    · obtain ⟨e, hloop⟩ := run_shutAll_cons_of_not_answered hanswer handle
      rw [hloop, Async.run_bind_of_error (hloop handles)]

/-- The manager when the timers are cleared. -/
def Manager.cleared (m : Manager) : Manager :=
  { m with created := m.created.releaseAll m.healthCheckIntervals.values }

/-- The handles that the two loops of `close` go over. -/
def Manager.toShut (m : Manager) : List ℕ := m.queues.values ++ m.redisClients.values

/-- `close` resolves, and leaves what its loops leave. -/
theorem run_close (answers : ℕ → Answer Thrown) (r : Remote Manager) :
    (close answers).run r = (.ok (),
      ((shutAll answers r.server.toShut).run ⟨r.server.cleared, r.calls⟩).2) := by
  rw [close, Async.run_handled, Manager.toShut, run_shutAll_append]
  have hclear : clearIntervals.run r = (.ok (), ⟨r.server.cleared, r.calls⟩) := rfl
  have hqueues : (Async.read fun r : Remote Manager => r.server.queues.values).run
      (⟨r.server.cleared, r.calls⟩ : Remote Manager) =
      ((.ok r.server.queues.values : Except Thrown (List ℕ)), ⟨r.server.cleared, r.calls⟩) := rfl
  rw [Async.run_bind_of_ok hclear, Async.run_bind_of_ok hqueues]
  obtain ⟨shut, -, hserver⟩ := (shut_handles answers r.server.queues.values
    ⟨r.server.cleared, r.calls⟩).released
  cases hrun : (shutAll answers r.server.queues.values).run ⟨r.server.cleared, r.calls⟩ with
  | mk result r' =>
    rw [hrun] at hserver
    have hclients : r'.server.redisClients = r.server.redisClients := by
      rw [hserver]
      rfl
    cases result with
    | error e => rw [Async.run_bind_of_error hrun, Async.run_bind_of_error hrun]
    | ok u =>
      rw [Async.run_bind_of_ok hrun, Async.run_bind_of_ok hrun]
      have hread : (Async.read fun r : Remote Manager => r.server.redisClients.values).run r' =
          ((.ok r.server.redisClients.values : Except Thrown (List ℕ)), r') := by
        rw [Async.run_read, hclients]
      rw [Async.run_bind_of_ok hread]

/-- The handles that are shut are held. -/
theorem exists_held_of_mem_toShut {handle : ℕ} (h : handle ∈ m.toShut) :
    ∃ slot, m.held slot = some handle := by
  rcases List.mem_append.mp h with hmem | hmem
  · obtain ⟨name, hname⟩ := InsertionMap.mem_values.mp hmem
    exact ⟨.queue name, hname⟩
  · obtain ⟨name, hname⟩ := InsertionMap.mem_values.mp hmem
    exact ⟨.redisClient name, hname⟩

theorem exists_held_of_mem_intervals {handle : ℕ} (h : handle ∈ m.healthCheckIntervals.values) :
    ∃ slot, m.held slot = some handle := by
  obtain ⟨name, hname⟩ := InsertionMap.mem_values.mp h
  exact ⟨.healthCheckInterval name, hname⟩

/-- Where the timers are cleared, every slot is free exactly if all that the loops go over is
released. -/
theorem free_iff_of_cleared (h : ∀ handle ∈ m.healthCheckIntervals.values,
      handle ∈ m.created.released) :
    (∀ slot, m.Free slot) ↔ ∀ handle ∈ m.toShut, handle ∈ m.created.released := by
  constructor
  · intro hfree handle hmem
    obtain ⟨slot, hslot⟩ := exists_held_of_mem_toShut hmem
    exact hfree slot handle hslot
  · intro hall slot handle hslot
    cases slot with
    | queue name =>
      exact hall handle (List.mem_append_left _ (InsertionMap.mem_values.mpr ⟨name, hslot⟩))
    | redisClient name =>
      exact hall handle (List.mem_append_right _ (InsertionMap.mem_values.mpr ⟨name, hslot⟩))
    | healthCheckInterval name => exact h handle (InsertionMap.mem_values.mpr ⟨name, hslot⟩)

/-- **A `close` leaves nothing open exactly if nothing had been lost and its loops get past the last
open handle.** -/
theorem closed_close (answers : ℕ → Answer Thrown) (hsound : r.server.Sound) :
    ((close answers).run r).2.server.Sound ∧
      (((close answers).run r).2.server.Accounted ↔ r.server.Accounted) ∧
      (((close answers).run r).2.server.created.AllReleased ↔
        r.server.Accounted ∧ Reaches answers r) := by
  rw [run_close]
  obtain ⟨⟨shut, hsubset, hserver⟩, hiff⟩ :=
    shut_handles answers r.server.toShut ⟨r.server.cleared, r.calls⟩
  change ((shutAll answers r.server.toShut).run ⟨r.server.cleared, r.calls⟩).2.server.Sound ∧
    (((shutAll answers r.server.toShut).run ⟨r.server.cleared, r.calls⟩).2.server.Accounted ↔ _) ∧
    (((shutAll answers r.server.toShut).run
      ⟨r.server.cleared, r.calls⟩).2.server.created.AllReleased ↔ _)
  rw [hserver] at hiff ⊢
  have hintervals : ∀ h ∈ r.server.healthCheckIntervals.values,
      ∃ slot, r.server.held slot = some h := fun h hmem => exists_held_of_mem_intervals hmem
  have hshut : ∀ h ∈ shut, ∃ slot, r.server.held slot = some h :=
    fun h hmem => exists_held_of_mem_toShut (hsubset hmem)
  set m' : Manager :=
    { r.server.cleared with created := r.server.cleared.created.releaseAll shut }
  have hsound' : m'.Sound := (hsound.releaseAll hintervals).releaseAll hshut
  have haccounted : m'.Accounted ↔ r.server.Accounted :=
    (Ledger.accounted_releaseAll_iff hshut).trans (Ledger.accounted_releaseAll_iff hintervals)
  refine ⟨hsound', haccounted, (Ledger.allReleased_iff hsound').trans ?_⟩
  refine and_congr haccounted ((free_iff_of_cleared fun handle hmem => ?_).trans hiff)
  exact Ledger.mem_released_releaseAll.mpr
    (.inr (Ledger.mem_released_releaseAll.mpr (.inl hmem)))

/-! ## The manager without handles -/

/-- What `GlobalQueue.Manager` has of the manager: the regions that have a queue and a client. -/
def Manager.toManager (m : Manager) : GlobalQueue.Manager where
  queues := m.queues.keys
  redisClients := m.redisClients.keys
  config := m.config
  primaryRegion := m.primaryRegion

theorem toManager_withIntervals (m : Manager) (names : List String) :
    (names.foldl Manager.withInterval m).toManager = m.toManager := by
  induction names generalizing m with
  | nil => rfl
  | cons name names ih => exact ih (m.withInterval name)

/-- Regions with new names come after those that are there. -/
theorem toManager_withRegions {names : List String} (hnodup : names.Nodup)
    (hqueues : ∀ name ∈ names, name ∉ m.queues.keys)
    (hclients : ∀ name ∈ names, name ∉ m.redisClients.keys) :
    (names.foldl Manager.withRegion m).toManager =
      { m.toManager with
        queues := m.queues.keys ++ names
        redisClients := m.redisClients.keys ++ names } := by
  induction names generalizing m with
  | nil => simp [Manager.toManager]
  | cons name names ih =>
    obtain ⟨hname, hnodup⟩ := List.nodup_cons.mp hnodup
    have hkeys : (m.withRegion name).queues.keys = m.queues.keys ++ [name] := by
      rw [Manager.withRegion, InsertionMap.keys_set, if_neg (hqueues name List.mem_cons_self)]
    have hclientKeys : (m.withRegion name).redisClients.keys =
        m.redisClients.keys ++ [name] := by
      rw [Manager.withRegion, InsertionMap.keys_set, if_neg (hclients name List.mem_cons_self)]
    have hne : ∀ name' ∈ names, name' ≠ name := fun name' hmem heq => hname (heq ▸ hmem)
    rw [List.foldl_cons, ih hnodup]
    · rw [hkeys, hclientKeys, List.append_assoc, List.append_assoc]
      rfl
    · intro name' hmem
      rw [hkeys, List.mem_append, List.mem_singleton, not_or]
      exact ⟨hqueues name' (List.mem_cons_of_mem name hmem), hne name' hmem⟩
    · intro name' hmem
      rw [hclientKeys, List.mem_append, List.mem_singleton, not_or]
      exact ⟨hclients name' (List.mem_cons_of_mem name hmem), hne name' hmem⟩

theorem run_initializeRegions_of_allReturn {regions : List RegionConfig} {r : Remote Manager}
    (hreturn : AllReturn answers r.calls regions.length) :
    ∃ n, (initializeRegions answers regions).run r =
      (.ok (), ⟨(regions.map RegionConfig.region).foldl Manager.withRegion r.server, n⟩) := by
  induction regions generalizing r with
  | nil => exact ⟨r.calls, rfl⟩
  | cons region regions ih =>
    obtain ⟨hredis, hqueue, hreturn⟩ := allReturn_succ_iff.mp hreturn
    rcases run_initializeRegion answers region r with ⟨h, -⟩ | ⟨-, h, -⟩ | ⟨-, -, hrun⟩
    · exact absurd hredis h
    · exact absurd hqueue h
    · obtain ⟨n, hloop⟩ := @ih ⟨r.server.withRegion region.region, r.calls + 2⟩ hreturn
      exact ⟨n, (Async.run_bind_of_ok hrun).trans hloop⟩

theorem run_initializeManager_of_allReturn {config : GlobalQueueConfig} {r : Remote Manager}
    (hregions : config.regions ≠ []) (hreturn : AllReturn answers r.calls config.regions.length) :
    ∃ n, (initializeManager answers config).run r =
      (.ok (), ⟨config.regionNames.foldl Manager.withInterval
        { config.regionNames.foldl Manager.withRegion { r.server with config := some config } with
          primaryRegion := some (determinePrimaryRegion config.regions) }, n⟩) := by
  rw [initializeManager, Async.tryCatch_throw, if_neg hregions]
  obtain ⟨n, hloop⟩ := @run_initializeRegions_of_allReturn answers config.regions
    ⟨{ r.server with config := some config }, r.calls⟩ hreturn
  have hconfig : (modifyManager fun m => { m with config := some config }).run r =
      (.ok (), ⟨{ r.server with config := some config }, r.calls⟩) := rfl
  set m₁ := config.regionNames.foldl Manager.withRegion { r.server with config := some config }
  have hprimary : (modifyManager fun m =>
      { m with primaryRegion := some (determinePrimaryRegion config.regions) }).run ⟨m₁, n⟩ =
      (.ok (), ⟨{ m₁ with primaryRegion := some (determinePrimaryRegion config.regions) }, n⟩) :=
    rfl
  refine ⟨n, ?_⟩
  rw [Async.run_bind_of_ok hconfig, Async.run_bind_of_ok hloop]
  exact (Async.run_bind_of_ok hprimary).trans (run_startHealthChecks _ _)

/-- **Where every region can be set up and no name comes twice, a new manager is initialized as in
the model without handles.** -/
theorem toManager_initializeManager (hanswers : ∀ i, (answers i).IsAnswered) (n : ℕ)
    {config : GlobalQueueConfig} (hnodup : config.regionNames.Nodup) :
    (((initializeManager answers config).run ⟨{}, n⟩).1.map fun _ =>
        ((initializeManager answers config).run ⟨{}, n⟩).2.server.toManager) =
      GlobalQueue.initializeManager config := by
  by_cases hregions : config.regions = []
  · rw [initializeManager, Async.tryCatch_throw, GlobalQueue.initializeManager, if_pos hregions,
      if_pos hregions]
    rfl
  · obtain ⟨n', hrun⟩ := @run_initializeManager_of_allReturn answers config ⟨{}, n⟩ hregions
      fun i _ => hanswers _
    have hmanager := toManager_withRegions (m := { config := some config }) hnodup
      (fun _ _ => List.not_mem_nil) (fun _ _ => List.not_mem_nil)
    rw [hrun, GlobalQueue.initializeManager, if_neg hregions]
    refine congrArg Except.ok ((toManager_withIntervals _ _).trans ?_)
    exact congrArg (fun m : GlobalQueue.Manager =>
      { m with primaryRegion := some (determinePrimaryRegion config.regions) }) hmanager

/-! ## All runs -/

/-- What a call does to the handles. -/
theorem accounted_method (answers : ℕ → Answer Thrown) (call : Call) (hsound : r.server.Sound) :
    ((method answers call).run r).2.server.Sound ∧
      (((method answers call).run r).2.server.Accounted ↔
        r.server.Accounted ∧ (eventOf answers call r).Keeps answers) := by
  cases call with
  | initializeManager config => exact accounted_initializeManager config hsound
  | close =>
    obtain ⟨hsound', haccounted, -⟩ := closed_close answers hsound
    exact ⟨hsound', haccounted.trans (and_iff_left trivial).symm⟩

/-- A call closes as it should exactly if its condition is met, where the manager holds what is open
exactly if no initialization so far has lost anything. -/
theorem closed_eventOf_iff (answers : ℕ → Answer Thrown) (call : Call) {past : List Event}
    (hsound : r.server.Sound)
    (haccounted : r.server.Accounted ↔ ∀ earlier ∈ past, earlier.Keeps answers) :
    (eventOf answers call r).Closed ↔ (eventOf answers call r).Meets answers past := by
  cases call with
  | initializeManager config => exact iff_of_true nofun nofun
  | close =>
    have hanswer : ((close answers).run r).1 = .ok () := by rw [run_close]
    have hclosed : (eventOf answers .close r).Closed ↔
        ((close answers).run r).2.server.created.AllReleased :=
      ⟨fun h => h rfl hanswer, fun h _ _ => h⟩
    rw [hclosed, (closed_close answers hsound).2.2, haccounted]
    exact ⟨fun h _ => ⟨h.2, h.1⟩, fun h => ⟨(h rfl).2, (h rfl).1⟩⟩

/-- By induction on the calls, the manager holding what is open exactly if nothing was lost. -/
theorem forall_closed_history_iff {calls : List Call} {r : Remote Manager} {past : List Event}
    (hsound : r.server.Sound)
    (haccounted : r.server.Accounted ↔ ∀ earlier ∈ past, earlier.Keeps answers)
    (hpast : (∀ event ∈ past, event.Closed) ↔ History.Always (Event.Meets answers) past) :
    (∀ event ∈ history answers calls r past, event.Closed) ↔
      History.Always (Event.Meets answers) (history answers calls r past) := by
  induction calls generalizing r past with
  | nil => exact hpast
  | cons call calls ih =>
    obtain ⟨hsound', haccounted'⟩ := accounted_method answers call hsound
    refine ih hsound' ?_ ?_
    · rw [haccounted', haccounted, List.forall_mem_cons, and_comm]
    · rw [List.forall_mem_cons, History.always_cons, hpast,
        closed_eventOf_iff answers call hsound haccounted]

/-- **Every `close` of a run leaves nothing open exactly if each gets past the last handle that is
open and no initialization before it has lost one.** -/
theorem forall_closed_iff (answers : ℕ → Answer Thrown) (calls : List Call) (n : ℕ) :
    (∀ event ∈ history answers calls ⟨{}, n⟩ [], event.Closed) ↔
      History.Always (Event.Meets answers) (history answers calls ⟨{}, n⟩ []) := by
  refine forall_closed_history_iff sound_new ?_
    (iff_of_true (fun _ hmem => absurd hmem List.not_mem_nil) trivial)
  exact iff_of_true accounted_new fun _ hmem => absurd hmem List.not_mem_nil

/-- Two regions of one name. -/
def sameName : GlobalQueueConfig where
  regions := [{ region := "eu-west-1" }, { region := "eu-west-1" }]

/-- Of two regions with the same name only the second is closed. -/
theorem not_forall_closed_sameName :
    ¬ ∀ event ∈ history (fun _ => .answered) [.initializeManager sameName, .close] ⟨{}, 0⟩ [],
      event.Closed := by
  intro hclaim
  have hclosed := hclaim _ List.mem_cons_self rfl rfl
  exact absurd hclosed (by decide +kernel)

end Runs

end KitiumJobQueue.QueueResources
