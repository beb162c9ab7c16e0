import KitiumJobQueue.GlobalQueue.Manager

/-!
# The configured regions

What all methods of the manager keep to, in every run: the primary region stays a configured one
(`ready_of_run`), and jobs go to configured regions only, so the queues of other regions stay as
they are (`server_of_run`).
-/

namespace KitiumJobQueue.GlobalQueue

open Bull Effects

variable {config : GlobalQueueConfig}

/-! ## Managers with a primary region -/

/-- The primary region is a configured one. -/
def PrimaryConfigured (config : GlobalQueueConfig) (m : Manager) : Prop :=
  ∃ region ∈ config.regionNames, m.primaryRegion = some region

/-- The fields after a successful `initialize`, the primary region being any configured one. -/
def Ready (config : GlobalQueueConfig) (m : Manager) : Prop :=
  SetUp config m ∧ PrimaryConfigured config m

theorem determinePrimaryRegion_mem (h : config.regions ≠ []) :
    determinePrimaryRegion config.regions ∈ config.regionNames := by
  unfold determinePrimaryRegion
  split
  · rename_i primary hfind
    exact List.mem_map_of_mem (List.mem_of_find?_eq_some hfind)
  · cases hr : config.regions with
    | nil => exact absurd hr h
    | cons region regions => simp [GlobalQueueConfig.regionNames, hr]

theorem primaryConfigured_initializeManager {m : Manager}
    (h : initializeManager config = .ok m) : PrimaryConfigured config m := by
  unfold initializeManager at h
  split at h
  · cases h
  · rename_i hne
    cases h
    exact ⟨_, determinePrimaryRegion_mem hne, rfl⟩

theorem ready_initializeManager {m : Manager} (h : initializeManager config = .ok m) :
    Ready config m :=
  ⟨setUp_initializeManager h, primaryConfigured_initializeManager h⟩

/-! ## What the methods send -/

/-- If the command adds a job, it does so to a configured region. -/
def AddsTo (config : GlobalQueueConfig) : Command → Prop
  | .add region _ _ _ => region ∈ config.regionNames
  | .getJob _ _ | .ping _ | .pings _ | .timer _ => True

section Failover

variable {J : Manager → Prop} {P : Command → Prop}
  (hmoves : ∀ m m' region, J m → region ∈ m.queues → J m' →
    J { m' with primaryRegion := some region })
  (hping : ∀ region, P (.ping region)) (hpings : ∀ regions, P (.pings regions))

include hmoves in
theorem confined_failoverTo (region : String) : (failoverTo region).Confined J P := by
  refine .read_bind fun m hm => ?_
  split
  · rename_i hregion
    exact .modify fun m' hm' => hmoves m m' region hm hregion hm'
  · exact .throw _

include hping in
theorem confined_isRegionHealthy (region : String) : (isRegionHealthy region).Confined J P := by
  refine .handle (.read_bind fun m hm => ?_) fun _ => .pure _
  split
  · exact .bind (.await (hping region)) fun _ => .pure _
  · exact .pure _

include hmoves hpings in
theorem confined_handleFailover : handleFailover.Confined J P := by
  refine .handle (.read_bind fun m hm => ?_) fun _ => .pure _
  split
  · exact .pure _
  · refine .bind (.read_bind fun m hm => .bind (.await (hpings _)) fun _ => .pure _)
      fun healths => ?_
    refine .read_bind fun m hm => ?_
    split
    · exact confined_failoverTo hmoves _
    · exact .pure _

include hmoves hping hpings in
theorem confined_healthCheckTick (region : String) : (healthCheckTick region).Confined J P := by
  refine .bind (confined_isRegionHealthy hping region) fun isHealthy => ?_
  split
  · exact .pure _
  · refine .read_bind fun m hm => ?_
    split
    · exact confined_handleFailover hmoves hpings
    · exact .pure _

end Failover

/-- A primary that has a queue is a configured one. -/
theorem ready_move (m m' : Manager) (region : String) (hm : Ready config m)
    (hregion : region ∈ m.queues) (hm' : Ready config m') :
    Ready config { m' with primaryRegion := some region } :=
  ⟨hm'.1, region, hm.1.1 ▸ hregion, rfl⟩

theorem confined_replicateJobToRegion (jobId jobName : String) (jobData : Json)
    (mode : ReplicationMode) (region : String) :
    (replicateJobToRegion jobId jobName jobData mode region).Confined (Ready config)
      (AddsTo config) := by
  refine .read_bind fun m hm => ?_
  split
  · rename_i hregion
    have hregion : region ∈ config.regionNames := hm.1.1 ▸ hregion
    refine .handle (.bind (.await hregion) fun _ => ?_) fun _ => ?_
    · split
      · exact .read_bind fun m hm => .await trivial
      · exact .pure _
    · split
      · exact .throw _
      · exact .pure _
  · exact .pure _

theorem confined_replicateJob (jobId : String) (targetRegions : Option (List String)) :
    (replicateJob jobId targetRegions).Confined (Ready config) (AddsTo config) := by
  refine .handle (.read_bind fun m hm => ?_) fun _ => .pure _
  split
  · refine .bind (.read_bind fun m hm => ?_) fun job => ?_
    · dsimp only
      split
      · exact .await trivial
      · exact .pure _
    · split
      · exact .pure _
      · exact .read_bind fun m hm => .forEach fun region _ =>
          confined_replicateJobToRegion _ _ _ _ region
  · exact .pure _

theorem confined_addJob (jobName : String) (data : Json) (options : JobsOptions) :
    (addJob jobName data options).Confined (Ready config) (AddsTo config) := by
  refine .read_bind fun m hm => ?_
  dsimp only
  split
  · rename_i hprimary
    have hprimary : m.primaryRegion.getD "" ∈ config.regionNames := hm.1.1 ▸ hprimary
    refine .bind (.await hprimary) fun job => .read_bind fun m hm => ?_
    split
    · exact .bind (confined_replicateJob _ _) fun _ => .pure _
    · exact .pure _
  · exact .throw _

theorem confined_statusLoop (jobId : String) (regions : List RegionConfig) (status : StatusMap) :
    (statusLoop jobId regions status).Confined (Ready config) (AddsTo config) := by
  induction regions generalizing status with
  | nil => exact .pure _
  | cons region regions ih =>
    refine .read_bind fun m hm => ?_
    split
    · exact .bind (.await trivial) fun _ => ih _
    · exact ih status

theorem confined_getReplicationStatus (jobId : String) :
    (getReplicationStatus jobId).Confined (Ready config) (AddsTo config) := by
  refine .handle (.read_bind fun m hm => ?_) fun _ => .pure _
  split
  · exact .pure _
  · exact confined_statusLoop jobId _ _

/-- Every method adds jobs to configured regions only. -/
theorem confined_method (l : Call) : l.method.Confined (Ready config) (AddsTo config) := by
  cases l with
  | addJob jobName data options => exact .bind (confined_addJob _ _ _) fun _ => .pure _
  | replicateJob jobId targetRegions => exact .bind (confined_replicateJob _ _) fun _ => .pure _
  | failoverTo region => exact .bind (confined_failoverTo ready_move _) fun _ => .pure _
  | healthCheckTick region =>
    exact .bind (confined_healthCheckTick ready_move (fun _ => trivial) (fun _ => trivial) _)
      fun _ => .pure _
  | getReplicationStatus jobId => exact .bind (confined_getReplicationStatus _) fun _ => .pure _

/-! ## Runs -/

/-- The queues of the regions that are not configured stay as they are. -/
theorem serve_of_addsTo {v : Choice} {c : Command} {qs : Queues} (hc : AddsTo config c)
    {region : String} (hregion : region ∉ config.regionNames) :
    (serve v c qs).2 region = qs region := by
  cases c with
  | add region' jobName data opts =>
    have hne : region ≠ region' := fun h => hregion (h ▸ hc)
    cases hv : v.answer with
    | answered => simp [serve, hv, hne]
    | rejected e applied => cases applied <;> simp [serve, hv, hne]
  | getJob region' jobId => cases hv : v.answer <;> simp [serve, hv]
  | ping region' => cases hv : v.answer <;> simp [serve, hv]
  | pings regions => rfl
  | timer ms => rfl

section Runs

variable {m : Manager} {qs : Queues} {es : List (PoolEvent Call Choice)} {w : World}

/-- A run changes the queues of configured regions only, and keeps the manager ready. -/
theorem confined_of_run (hm : Ready config m)
    (h : system.runFrom (World.init m qs) es = some w) :
    Ready config w.memory ∧ ∀ region ∉ config.regionNames, w.server region = qs region :=
  Pool.confined_of_run
    (T := fun qs qs' : Queues => ∀ region ∉ config.regionNames, qs' region = qs region)
    confined_method (fun _ _ _ => rfl)
    (fun h h' region hregion => (h' region hregion).trans (h region hregion))
    (fun _ _ _ hc _ hregion => serve_of_addsTo hc hregion) hm h

theorem ready_of_run (hm : Ready config m) (h : system.runFrom (World.init m qs) es = some w) :
    Ready config w.memory :=
  (confined_of_run hm h).1

theorem server_of_run (hm : Ready config m) (h : system.runFrom (World.init m qs) es = some w)
    {region : String} (hregion : region ∉ config.regionNames) : w.server region = qs region :=
  (confined_of_run hm h).2 region hregion

end Runs

end KitiumJobQueue.GlobalQueue
