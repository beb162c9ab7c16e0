import KitiumJobQueue.Foundations.Lists
import KitiumJobQueue.GlobalQueue.Initialization
import KitiumJobQueue.GlobalQueue.Regions
import Mathlib.Algebra.Order.Ring.Rat

/-!
# The new primary

`handleFailover` on its own moves the primary to the healthy region that comes first by priority
(`run_handleFailover`), whatever the primary is and whoever was initialized before. Failovers by
hand, health ticks and automatic failovers, one after the other, keep the primary a region that was
initialized (`served_runMoves`). `elected_and_served` says both of every manager whose `initialize`
has resolved.
-/

namespace KitiumJobQueue

open Bull Effects JavaScript

namespace GlobalQueue

/-! ## Elections -/

/-- Region number `i` may take over: it is healthy and not the primary. -/
def MayTakeOver (config : GlobalQueueConfig) (healthy : ℕ → Bool) (primaryRegion : Option String)
    (i : ℕ) (region : RegionConfig) : Prop :=
  config.regions[i]? = some region ∧ healthy i = true ∧ primaryRegion ≠ some region.region

/-- The primary after a failover: of the regions that may take over the one of least priority, the
earliest among equals, and the one before if none may. -/
def Elected (config : GlobalQueueConfig) (healthy : ℕ → Bool)
    (primaryRegion primaryRegion' : Option String) : Prop :=
  (∃ i region, MayTakeOver config healthy primaryRegion i region ∧
    primaryRegion' = some region.region ∧
    ∀ j other, MayTakeOver config healthy primaryRegion j other →
      region.priority.getD 999 ≤ other.priority.getD 999 ∧
        (other.priority.getD 999 = region.priority.getD 999 → i ≤ j)) ∨
  (∀ i region, ¬ MayTakeOver config healthy primaryRegion i region) ∧
    primaryRegion' = primaryRegion

/-- What `healthyRegions` says of each region, if each has a client. -/
def healths (config : GlobalQueueConfig) (healthy : ℕ → Bool) : List RegionHealth :=
  config.regions.mapIdx fun i region =>
    { region := region.region
      priority := region.priority.getD 999
      healthy := healthy i }

section Election

variable {config : GlobalQueueConfig} {healthy : ℕ → Bool} {primaryRegion : Option String}

theorem getElem?_healths {i : ℕ} {health : RegionHealth} :
    (healths config healthy)[i]? = some health ↔
      ∃ region, config.regions[i]? = some region ∧
        { region := region.region
          priority := region.priority.getD 999
          healthy := healthy i } = health := by
  rw [healths, List.getElem?_mapIdx, Option.map_eq_some_iff]

/-- The new primary comes first of the healthy regions other than the primary. -/
theorem exists_of_newPrimary {healths : List RegionHealth} {new : RegionHealth}
    (h : newPrimary healths primaryRegion = some new) :
    ∃ i : ℕ, healths[i]? = some new ∧ new.healthy = true ∧ primaryRegion ≠ some new.region ∧
      ∀ (j : ℕ) other, healths[j]? = some other → other.healthy = true →
        primaryRegion ≠ some other.region →
        new.priority ≤ other.priority ∧ (other.priority = new.priority → i ≤ j) := by
  obtain ⟨i, hi, hmeets, hleast⟩ := List.exists_firstLeast (f := RegionHealth.priority)
    (p := fun r : RegionHealth => r.healthy && primaryRegion ≠ some r.region) h
  rw [Bool.and_eq_true, decide_eq_true_eq] at hmeets
  refine ⟨i, hi, hmeets.1, hmeets.2, fun j other hj hhealthy hne => hleast j other hj ?_⟩
  rw [Bool.and_eq_true, decide_eq_true_eq]
  exact ⟨hhealthy, hne⟩

/-- **The region that comes first is elected.** -/
theorem elected_newPrimary : Elected config healthy primaryRegion
    (((newPrimary (healths config healthy) primaryRegion).map RegionHealth.region).or
      primaryRegion) := by
  cases hnew : newPrimary (healths config healthy) primaryRegion with
  | none =>
    refine .inr ⟨fun i region hmay => ?_, rfl⟩
    obtain ⟨hregion, hhealthy, hne⟩ := hmay
    have hi : (healths config healthy)[i]? = some _ := getElem?_healths.mpr ⟨region, hregion, rfl⟩
    refine List.head?_insertionSort_eq_none.mp hnew _ (List.mem_of_getElem? hi) ?_
    simp [hhealthy, hne]
  | some new =>
    obtain ⟨i, hi, hhealthy, hne, hleast⟩ := exists_of_newPrimary hnew
    obtain ⟨region, hregion, rfl⟩ := getElem?_healths.mp hi
    refine .inl ⟨i, region, ⟨hregion, hhealthy, hne⟩, rfl, fun j other hother => ?_⟩
    exact hleast j _ (getElem?_healths.mpr ⟨other, hother.1, rfl⟩) hother.2.1 hother.2.2

end Election

/-! ## Calls on their own -/

/-- A manager, its regions and what the environment will choose. -/
abbrev Alone := Solo Thrown Manager Queues Choice Reply

/-- What the pings say of the regions, each of which has a client. -/
theorem run_regionHealths {config : GlobalQueueConfig} {w : Alone}
    (hclients : ∀ name ∈ config.regionNames, name ∈ w.memory.redisClients) :
    ((regionHealths config.regions).alone serve).run w =
      (.ok (healths config (w.choices 0).healthy),
        (w.send serve (.pings config.regionNames)).2) := by
  have hask : ((ask (.pings (config.regions.map RegionConfig.region))).alone serve).run w =
      (.ok ((config.regions.map RegionConfig.region).mapIdx fun i _ => (w.choices 0).healthy i),
        (w.send serve (.pings config.regionNames)).2) := run_alone_ask _ w
  rw [regionHealths, Coroutine.run_alone_read_bind, Coroutine.alone_bind,
    Async.run_bind_of_ok hask, Coroutine.run_alone_pure]
  refine Prod.ext (congrArg Except.ok ?_) rfl
  refine List.ext_getElem? fun i => ?_
  rw [healths, List.getElem?_zipWith, List.getElem?_mapIdx, List.getElem?_mapIdx,
    List.getElem?_map]
  cases hi : config.regions[i]? with
  | none => rfl
  | some region =>
    have hclient : region.region ∈ w.memory.redisClients :=
      hclients _ (List.mem_map_of_mem (List.mem_of_getElem? hi))
    simp [hclient]

/-- **A failover on its own** moves the primary to the region that comes first. -/
theorem run_handleFailover {config : GlobalQueueConfig} {w : Alone}
    (hconfig : w.memory.config = some config)
    (hqueues : ∀ name ∈ config.regionNames, name ∈ w.memory.queues)
    (hclients : ∀ name ∈ config.regionNames, name ∈ w.memory.redisClients) :
    ∃ primaryRegion',
      Elected config (w.choices 0).healthy w.memory.primaryRegion primaryRegion' ∧
        ((handleFailover.alone serve).run w).2.memory =
          { w.memory with primaryRegion := primaryRegion' } := by
  refine ⟨_, elected_newPrimary, ?_⟩
  rw [handleFailover, Coroutine.alone_tryCatch, Async.run_tryCatch, Coroutine.run_alone_read_bind]
  simp only [id_eq, hconfig]
  rw [Coroutine.alone_bind, Async.run_bind_of_ok (run_regionHealths hclients),
    Coroutine.run_alone_read_bind, Solo.memory_send]
  cases hnew : newPrimary (healths config (w.choices 0).healthy) w.memory.primaryRegion with
  | none =>
    rw [← hconfig]
    rfl
  | some new =>
    have hqueue : new.region ∈ w.memory.queues := by
      obtain ⟨i, hi, -⟩ := exists_of_newPrimary hnew
      obtain ⟨region, hregion, rfl⟩ := getElem?_healths.mp hi
      exact hqueues _ (List.mem_map_of_mem (List.mem_of_getElem? hregion))
    dsimp only
    rw [failoverTo, Coroutine.run_alone_read_bind, Solo.memory_send, if_pos hqueue,
      ← hconfig]
    rfl

/-! ## One call after the other -/

/-- The calls that may move the primary. -/
inductive Move
  | failoverTo (region : String)
  | healthCheckTick (region : String)
  | handleFailover

/-- The method of a call. -/
def Move.method : Move → Method Unit
  | .failoverTo region => GlobalQueue.failoverTo region
  | .healthCheckTick region => GlobalQueue.healthCheckTick region
  | .handleFailover => GlobalQueue.handleFailover

/-- Calls that run one at a time. -/
def runMoves : List Move → Alone → Alone
  | [], w => w
  | move :: moves, w => runMoves moves ((move.method.alone serve).run w).2

/-- The primary is a region with a queue and a client, and these are the ones of `m₀`. -/
structure Served (m₀ m : Manager) : Prop where
  queues : m.queues = m₀.queues
  redisClients : m.redisClients = m₀.redisClients
  primary : ∃ region ∈ m₀.queues, region ∈ m₀.redisClients ∧ m.primaryRegion = some region

section Moves

variable {m₀ : Manager}

/-- The region moved to has a queue, so it has a client. -/
theorem served_move (hboth : ∀ region ∈ m₀.queues, region ∈ m₀.redisClients) (m m' : Manager)
    (region : String) (hm : Served m₀ m) (hregion : region ∈ m.queues) (hm' : Served m₀ m') :
    Served m₀ { m' with primaryRegion := some region } := by
  have hqueue : region ∈ m₀.queues := hm.queues ▸ hregion
  exact ⟨hm'.queues, hm'.redisClients, region, hqueue, hboth region hqueue, rfl⟩

theorem confined_move (hboth : ∀ region ∈ m₀.queues, region ∈ m₀.redisClients) (move : Move) :
    move.method.Confined (Served m₀) fun _ => True := by
  have hmoves := served_move hboth
  cases move with
  | failoverTo region => exact confined_failoverTo hmoves region
  | healthCheckTick region =>
    exact confined_healthCheckTick hmoves (fun _ => trivial) (fun _ => trivial) region
  | handleFailover => exact confined_handleFailover hmoves fun _ => trivial

/-- By induction on the calls. -/
theorem served_runMoves (hboth : ∀ region ∈ m₀.queues, region ∈ m₀.redisClients)
    (moves : List Move) {w : Alone} (hw : Served m₀ w.memory) :
    Served m₀ (runMoves moves w).memory := by
  induction moves generalizing w with
  | nil => exact hw
  | cons move moves ih => exact ih ((confined_move hboth move).run_alone hw)

end Moves

end GlobalQueue

/-! ## Managers that are initialized -/

namespace QueueResources

open GlobalQueue (RegionConfig GlobalQueueConfig determinePrimaryRegion)

variable {answers : ℕ → Answer Thrown} {m : Manager} {r r' : Remote Manager}
  {config : GlobalQueueConfig}

/-- The regions with a queue are those with a client. -/
def SameRegions (r : Remote Manager) : Prop :=
  ∀ region, region ∈ r.server.queues.keys ↔ region ∈ r.server.redisClients.keys

theorem preserves_attempt (answers : ℕ → Answer Thrown) :
    (attempt answers).Preserves SameRegions := by
  intro r h
  by_cases hanswer : (answers r.calls).IsAnswered
  · rw [run_attempt_of_answered hanswer]
    exact h
  · obtain ⟨e, hrun⟩ := run_attempt_of_not_answered hanswer
    rw [hrun]
    exact h

theorem preserves_initializeRegion (answers : ℕ → Answer Thrown) (region : RegionConfig) :
    (initializeRegion answers region).Preserves SameRegions := by
  intro r h
  rcases run_initializeRegion answers region r with ⟨-, e, hrun⟩ | ⟨-, -, e, hrun⟩ | ⟨-, -, hrun⟩
  · rw [hrun]
    exact h
  · rw [hrun]
    exact h
  · rw [hrun]
    intro name
    simp only [Manager.withRegion, InsertionMap.mem_keys_set]
    exact or_congr_right (h name)

theorem preserves_initializeRegions (answers : ℕ → Answer Thrown) (regions : List RegionConfig) :
    (initializeRegions answers regions).Preserves SameRegions := by
  induction regions with
  | nil => exact .pure ()
  | cons region regions ih => exact .bind (preserves_initializeRegion answers region) fun _ => ih

theorem preserves_startHealthChecks (regions : List RegionConfig) :
    (startHealthChecks regions).Preserves SameRegions := by
  induction regions with
  | nil => exact .pure ()
  | cons region regions ih => exact .bind (fun _ h => h) fun _ => ih

theorem preserves_shutAll (answers : ℕ → Answer Thrown) (handles : List ℕ) :
    (shutAll answers handles).Preserves SameRegions := by
  induction handles with
  | nil => exact .pure ()
  | cons handle handles ih =>
    exact .bind (.bind (fun _ h => h) fun _ => preserves_attempt answers) fun _ => ih

/-- A region gets its queue and its client together, and keeps both. -/
theorem preserves_method (answers : ℕ → Answer Thrown) (call : Call) :
    (method answers call).Preserves SameRegions := by
  cases call with
  | initializeManager config =>
    refine .handle ?_ fun e => .throw e
    split
    · exact .throw _
    · refine .bind (fun _ h => h) fun _ => .bind (preserves_initializeRegions answers _) fun _ => ?_
      exact .bind (fun _ h => h) fun _ => preserves_startHealthChecks _
  | close =>
    refine .handle (.bind (fun _ h => h) fun _ => .bind (fun _ h => h) fun queues => ?_)
      fun _ => .pure ()
    exact .bind (preserves_shutAll answers queues) fun _ =>
      .bind (fun _ h => h) fun redisClients => preserves_shutAll answers redisClients

theorem Reachable.sameRegions (h : Reachable m) (n : ℕ) : SameRegions ⟨m, n⟩ := by
  induction h generalizing n with
  | new => exact fun _ => Iff.rfl
  | call answers call n _ ih => exact preserves_method answers call _ (ih n)
  | failoverTo _ _ ih => exact ih n

theorem mem_keys_withRegions {names : List String} {name : String} (m : Manager) :
    name ∈ (names.foldl Manager.withRegion m).queues.keys ↔
      name ∈ names ∨ name ∈ m.queues.keys := by
  induction names generalizing m with
  | nil => simp
  | cons name' names ih =>
    rw [List.foldl_cons, ih, Manager.withRegion, InsertionMap.mem_keys_set, List.mem_cons,
      or_left_comm, or_assoc]

/-- An `initialize` that resolves has set up every region. -/
theorem allReturn_of_ok (h : (initializeManager answers config).run r = (.ok (), r')) :
    config.regions ≠ [] ∧ AllReturn answers r.calls config.regions.length := by
  rw [initializeManager, Async.tryCatch_throw] at h
  by_cases hregions : config.regions = []
  · rw [if_pos hregions] at h
    cases h
  · refine ⟨hregions, ?_⟩
    by_contra hreturn
    obtain ⟨k, -, e, created, n, hloop, -⟩ := @run_initializeRegions_of_not_allReturn answers
      ⟨{ r.server with config := some config }, r.calls⟩ config.regions hreturn
    have hconfig : (modifyManager fun m => { m with config := some config }).run r =
        (.ok (), ⟨{ r.server with config := some config }, r.calls⟩) := rfl
    rw [if_neg hregions, Async.run_bind_of_ok hconfig, Async.run_bind_of_error hloop] at h
    cases h

/-- What a manager is after an `initialize` that resolves, without its handles. -/
structure IsInitialized (config : GlobalQueueConfig) (m : GlobalQueue.Manager) : Prop where
  config_eq : m.config = some config
  queues : ∀ name ∈ config.regionNames, name ∈ m.queues
  both : ∀ name ∈ m.queues, name ∈ m.redisClients
  primary : ∃ name ∈ config.regionNames, m.primaryRegion = some name

theorem isInitialized_of_ok (hr : Reachable r.server)
    (h : (initializeManager answers config).run r = (.ok (), r')) :
    IsInitialized config r'.server.toManager := by
  obtain ⟨hregions, hreturn⟩ := allReturn_of_ok h
  obtain ⟨n, hrun⟩ := run_initializeManager_of_allReturn hregions hreturn
  have hsame : SameRegions r' :=
    (preserves_method answers (.initializeManager config)).of_run (hr.sameRegions r.calls) h
  obtain ⟨-, hr'⟩ := Prod.mk.inj (h.symm.trans hrun)
  have hmanager : r'.server.toManager = _ :=
    (congrArg (fun r => r.server.toManager) hr').trans (toManager_withIntervals _ _)
  constructor
  · rw [hmanager]
    exact fold_withRegion_config config.regionNames _
  · intro name hname
    rw [hmanager]
    exact (mem_keys_withRegions _).mpr (.inl hname)
  · exact fun name => (hsame name).mp
  · rw [hmanager]
    exact ⟨_, GlobalQueue.determinePrimaryRegion_mem hregions, rfl⟩

/-! ## The primary of a manager -/

/-- The fields of the manager, the primary being any. -/
def withPrimary (m : Manager) (primaryRegion : Option String) : GlobalQueue.Manager :=
  { m.toManager with primaryRegion := primaryRegion }

/-- **After an `initialize` that resolves, a failover on its own moves any primary to the healthy
region that comes first by priority and configuration, and moves one after the other keep the
primary a region that was initialized.** -/
theorem elected_and_served (hr : Reachable r.server)
    (hinit : (initializeManager answers config).run r = (.ok (), r')) (qs : GlobalQueue.Queues)
    (choices : ℕ → GlobalQueue.Choice) :
    (∀ primaryRegion, ∃ primaryRegion',
      GlobalQueue.Elected config (choices 0).healthy primaryRegion primaryRegion' ∧
        ((GlobalQueue.handleFailover.alone GlobalQueue.serve).run
            ⟨⟨withPrimary r'.server primaryRegion, qs⟩, choices, []⟩).2.memory =
          withPrimary r'.server primaryRegion') ∧
    ∀ moves, GlobalQueue.Served r'.server.toManager
      (GlobalQueue.runMoves moves ⟨⟨r'.server.toManager, qs⟩, choices, []⟩).memory := by
  have hinitialized := isInitialized_of_ok hr hinit
  refine ⟨fun primaryRegion => ?_, fun moves => ?_⟩
  · obtain ⟨primaryRegion', helected, hmemory⟩ := GlobalQueue.run_handleFailover
      (w := ⟨⟨withPrimary r'.server primaryRegion, qs⟩, choices, []⟩) hinitialized.config_eq
      hinitialized.queues fun name hname => hinitialized.both name (hinitialized.queues name hname)
    exact ⟨primaryRegion', helected, hmemory⟩
  · refine GlobalQueue.served_runMoves hinitialized.both moves ⟨rfl, rfl, ?_⟩
    obtain ⟨name, hname, hprimary⟩ := hinitialized.primary
    have hqueue := hinitialized.queues name hname
    exact ⟨name, hqueue, hinitialized.both name hqueue, hprimary⟩

/-- Four regions, the third and the fourth of equal priority. -/
def fourRegions : GlobalQueueConfig where
  regions := [{ region := "A", isPrimary := some true }, { region := "B" },
    { region := "C", priority := some 1 }, { region := "D", priority := some 1 }]
  failover := some { enabled := true }

/-- All regions answer, and C takes over from A. -/
theorem elected_and_served_fourRegions :
    ∃ primaryRegion', GlobalQueue.Elected fourRegions (fun _ => true) (some "A") primaryRegion' ∧
      ∃ r', (initializeManager (fun _ => .answered) fourRegions).run ⟨{}, 0⟩ = (.ok (), r') ∧
        ((GlobalQueue.handleFailover.alone GlobalQueue.serve).run
            ⟨⟨withPrimary r'.server (some "A"), GlobalQueue.emptyQueues⟩, fun _ => {},
              []⟩).2.memory = withPrimary r'.server primaryRegion' := by
  have hinit : (initializeManager (fun _ => .answered) fourRegions).run ⟨{}, 0⟩ =
      (.ok (), ((initializeManager (fun _ => .answered) fourRegions).run ⟨{}, 0⟩).2) := rfl
  obtain ⟨primaryRegion', helected, hmemory⟩ :=
    (elected_and_served .new hinit GlobalQueue.emptyQueues fun _ => {}).1 (some "A")
  exact ⟨primaryRegion', helected, _, hinit, hmemory⟩

end QueueResources

end KitiumJobQueue
