import KitiumJobQueue.GlobalQueue.Resources

/-!
# Initializations that fail

`initialize` of `GlobalQueueManager` assigns the new configuration first and then sets the regions
up one by one, into the maps that the manager serves from. Nothing is taken back when a region
cannot be set up: `run_initializeRegions_of_not_allReturn` says what stays in the maps.

`unchanged_iff` says which initializations leave a manager as it was when they reject.
-/

namespace KitiumJobQueue.QueueResources

open Effects JavaScript
open GlobalQueue (RegionConfig GlobalQueueConfig)

variable {answers : ℕ → Answer Thrown} {m m' : Manager} {r : Remote Manager}
  {config : GlobalQueueConfig}

/-! ## Managers in use -/

/-- A manager that was initialized and closed any number of times, or never, whose primary region
was moved now and then to one that has a queue. -/
inductive Reachable : Manager → Prop
  | new : Reachable {}
  | call {m : Manager} (answers : ℕ → Answer Thrown) (call : Call) (n : ℕ) (h : Reachable m) :
    Reachable ((method answers call).run ⟨m, n⟩).2.server
  | failoverTo {m : Manager} {region : String} (h : Reachable m) (hqueue : region ∈ m.queues.keys) :
    Reachable { m with primaryRegion := some region }

theorem Reachable.sound (h : Reachable m) : m.Sound := by
  induction h with
  | new => exact sound_new
  | call answers call n _ ih => exact (accounted_method (r := ⟨_, n⟩) answers call ih).1
  | failoverTo _ _ ih => exact ⟨ih.lt_of_held, ih.lt_of_released, ih.slot_unique⟩

/-- The configuration, the primary region and the three maps are the same. -/
def Manager.SameFields (m m' : Manager) : Prop := { m' with created := m.created } = m

/-- An initialization that rejects leaves the fields as they are. -/
def Unchanged (answers : ℕ → Answer Thrown) (config : GlobalQueueConfig) (r : Remote Manager) :
    Prop :=
  ((initializeManager answers config).run r).1 ≠ .ok () →
    r.server.SameFields ((initializeManager answers config).run r).2.server

/-! ## Where the loop stops -/

/-- The constructors of the next region, their calls numbered from `n`, return. -/
def Returns (answers : ℕ → Answer Thrown) (n : ℕ) : Prop :=
  (answers n).IsAnswered ∧ (answers (n + 1)).IsAnswered

/-- **The regions before the one that cannot be set up stay in the maps.** -/
theorem run_initializeRegions_of_not_allReturn {regions : List RegionConfig}
    (h : ¬ AllReturn answers r.calls regions.length) :
    ∃ k < regions.length, ∃ e created n, (initializeRegions answers regions).run r =
        (.error e, ⟨{ ((regions.map RegionConfig.region).take k).foldl Manager.withRegion r.server
          with created := created }, n⟩) ∧
      (k = 0 ↔ ¬ Returns answers r.calls) := by
  induction regions generalizing r with
  | nil => exact absurd (fun i hi => absurd hi (Nat.not_lt_zero i)) h
  | cons region regions ih =>
    rcases run_initializeRegion answers region r with
      ⟨hredis, e, hrun⟩ | ⟨hredis, hqueue, e, hrun⟩ | ⟨hredis, hqueue, hrun⟩
    · exact ⟨0, Nat.succ_pos _, e, _, _, Async.run_bind_of_error hrun,
        iff_of_true rfl fun hreturns => hredis hreturns.1⟩
    · exact ⟨0, Nat.succ_pos _, e, _, _, Async.run_bind_of_error hrun,
        iff_of_true rfl fun hreturns => hqueue hreturns.2⟩
    · have hrest : ¬ AllReturn answers (r.calls + 2) regions.length :=
        fun hrest => h (allReturn_succ_iff.mpr ⟨hredis, hqueue, hrest⟩)
      obtain ⟨k, hk, e, created, n, hloop, -⟩ :=
        @ih ⟨r.server.withRegion region.region, r.calls + 2⟩ hrest
      exact ⟨k + 1, Nat.succ_lt_succ hk, e, created, n, (Async.run_bind_of_ok hrun).trans hloop,
        iff_of_false (Nat.succ_ne_zero k) fun hnot => hnot ⟨hredis, hqueue⟩⟩

/-- A region that was set up has a Redis client that was not there before. -/
theorem exists_new_redisClient {names : List String} (hnames : names ≠ []) (m : Manager) :
    ∃ name handle, (names.foldl Manager.withRegion m).redisClients.get name = some handle ∧
      m.created.opened ≤ handle := by
  induction names generalizing m with
  | nil => exact absurd rfl hnames
  | cons name names ih =>
    cases names with
    | nil =>
      refine ⟨name, m.created.opened, ?_, Nat.le_refl _⟩
      exact InsertionMap.get_set_self m.redisClients name m.created.opened
    | cons name' names =>
      obtain ⟨name'', handle, hget, hle⟩ := ih (List.cons_ne_nil _ _) (m.withRegion name)
      refine ⟨name'', handle, hget, Nat.le_trans ?_ hle⟩
      exact Nat.le_add_right m.created.opened 2

theorem fold_withRegion_config (names : List String) (m : Manager) :
    (names.foldl Manager.withRegion m).config = m.config := by
  induction names generalizing m with
  | nil => rfl
  | cons name names ih => exact ih (m.withRegion name)

/-! ## Rejections -/

/-- An initialization that rejects where a region cannot be set up leaves the manager as it was
exactly if that is the first region and the configuration was there before. -/
theorem sameFields_failed_iff (hsound : m.Sound) {names : List String} {created : Ledger} :
    m.SameFields { names.foldl Manager.withRegion { m with config := some config }
        with created := created } ↔ names = [] ∧ m.config = some config := by
  constructor
  · intro hsame
    have hconfig : m.config = some config := by
      rw [← hsame]
      exact fold_withRegion_config names _
    refine ⟨?_, hconfig⟩
    by_contra hnames
    obtain ⟨name, handle, hget, hle⟩ :=
      exists_new_redisClient hnames { m with config := some config }
    have hheld : m.held (.redisClient name) = some handle := by
      rw [← hsame]
      exact hget
    exact absurd (hsound.lt_of_held _ _ hheld) (Nat.not_lt.mpr hle)
  · rintro ⟨rfl, hconfig⟩
    rw [Manager.SameFields, ← hconfig]
    rfl

/-- An initialization that leaves the manager as it was when it rejects: with no region at all,
where every region is set up, and where the first one cannot be and the configuration is the one
the manager has. -/
def KeepsFields (answers : ℕ → Answer Thrown) (config : GlobalQueueConfig) (r : Remote Manager) :
    Prop :=
  config.regions = [] ∨ AllReturn answers r.calls config.regions.length ∨
    ¬ Returns answers r.calls ∧ r.server.config = some config

/-- **Which initializations leave the manager as it was when they reject**, for every manager that
was ever in use. -/
theorem unchanged_iff (h : Reachable m) (answers : ℕ → Answer Thrown) (config : GlobalQueueConfig)
    (n : ℕ) : Unchanged answers config ⟨m, n⟩ ↔ KeepsFields answers config ⟨m, n⟩ := by
  by_cases hregions : config.regions = []
  · refine iff_of_true (fun _ => ?_) (.inl hregions)
    rw [initializeManager, Async.tryCatch_throw, if_pos hregions]
    rfl
  by_cases hreturn : AllReturn answers n config.regions.length
  · obtain ⟨n', hrun⟩ := @run_initializeManager_of_allReturn answers config ⟨m, n⟩ hregions hreturn
    exact iff_of_true (fun hrejects => absurd (congrArg Prod.fst hrun) hrejects)
      (.inr (.inl hreturn))
  · obtain ⟨k, hk, e, created, n', hloop, hzero⟩ := @run_initializeRegions_of_not_allReturn answers
      ⟨{ m with config := some config }, n⟩ config.regions hreturn
    have hconfig : (modifyManager fun m => { m with config := some config }).run ⟨m, n⟩ =
        (.ok (), ⟨{ m with config := some config }, n⟩) := rfl
    have hnames : config.regionNames.take k = [] ↔ k = 0 := by
      have hlength : config.regionNames.length = config.regions.length := List.length_map _
      rw [List.take_eq_nil_iff, ← List.length_eq_zero_iff, hlength]
      omega
    have hrun : (initializeManager answers config).run ⟨m, n⟩ =
        (.error e, ⟨{ (config.regionNames.take k).foldl Manager.withRegion
          { m with config := some config } with created := created }, n'⟩) := by
      rw [initializeManager, Async.tryCatch_throw, if_neg hregions, Async.run_bind_of_ok hconfig]
      exact Async.run_bind_of_error hloop
    calc Unchanged answers config ⟨m, n⟩
        ↔ m.SameFields { (config.regionNames.take k).foldl Manager.withRegion
            { m with config := some config } with created := created } := by
          rw [Unchanged, hrun]
          exact ⟨fun hsame => hsame (by simp), fun hsame _ => hsame⟩
      _ ↔ k = 0 ∧ m.config = some config := by rw [sameFields_failed_iff h.sound, hnames]
      _ ↔ ¬ Returns answers n ∧ m.config = some config := and_congr_left' hzero
      _ ↔ KeepsFields answers config ⟨m, n⟩ :=
          ⟨fun hkeeps => .inr (.inr hkeeps),
            fun hkeeps => (hkeeps.resolve_left hregions).resolve_left hreturn⟩

/-! ## Two configurations -/

/-- One region. -/
def oneRegion : GlobalQueueConfig where
  regions := [{ region := "eu-west-1" }]

/-- Two other regions. -/
def otherRegions : GlobalQueueConfig where
  regions := [{ region := "us-east-1" }, { region := "ap-south-1" }]

/-- The third constructor called throws. -/
def thirdThrows (n : ℕ) : Answer Thrown :=
  if n = 2 then .rejected (.value "EMFILE: too many open files") false else .answered

/-- A manager that serves one region. -/
def serving : Manager := ((initializeManager (fun _ => .answered) oneRegion).run ⟨{}, 0⟩).2.server

theorem reachable_serving : Reachable serving :=
  .call (fun _ => .answered) (.initializeManager oneRegion) 0 .new

/-- The first region of the same configuration cannot be set up again, and nothing changes. -/
theorem unchanged_oneRegion : KeepsFields (fun n => thirdThrows (n + 2)) oneRegion ⟨serving, 0⟩ ∧
    Unchanged (fun n => thirdThrows (n + 2)) oneRegion ⟨serving, 0⟩ := by
  have hkeeps : KeepsFields (fun n => thirdThrows (n + 2)) oneRegion ⟨serving, 0⟩ :=
    .inr (.inr ⟨fun hreturns => hreturns.1.elim, rfl⟩)
  exact ⟨hkeeps, (unchanged_iff reachable_serving _ _ _).mpr hkeeps⟩

/-- The second of two other regions cannot be set up: `initialize` rejects, and the manager, whose
primary region is still the old one, has the new configuration and the first of the new regions. -/
theorem not_unchanged_serving :
    Reachable serving ∧ ¬ Unchanged thirdThrows otherRegions ⟨serving, 0⟩ := by
  refine ⟨reachable_serving, fun hclaim => ?_⟩
  have hconfig : serving.config = some oneRegion := rfl
  have hsame := congrArg Manager.config (hclaim nofun)
  rw [hconfig] at hsame
  exact absurd hsame (by decide +kernel)

end KitiumJobQueue.QueueResources
