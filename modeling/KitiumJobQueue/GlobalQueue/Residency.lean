import KitiumJobQueue.GlobalQueue.Regions
import Mathlib.Data.Fintype.EquivFin

/-!
# Data residency

`dataResidency` names the regions where data must be stored and those where it is prohibited. No
method reads it: a job goes to whatever region is primary and is copied to whatever region is
configured. So the requirement is met by a configuration that meets it by itself, one all of whose
regions are permitted, and by no other (`resident_iff`): the methods send jobs to the configured
regions only (`confined_method`), and any of these can be made the primary.
-/

namespace KitiumJobQueue.GlobalQueue

open Bull Effects

/-- Data is not to be stored in the region. -/
def DataResidencyConfig.Prohibits (residency : DataResidencyConfig) (region : String) : Prop :=
  region ∈ residency.blockedRegions.getD [] ∨ region ∉ residency.allowedRegions

/-- The configuration has residency requirements that prohibit the region. -/
def Prohibited (config : GlobalQueueConfig) (region : String) : Prop :=
  ∃ residency ∈ config.dataResidency, residency.Prohibits region

instance (residency : DataResidencyConfig) : DecidablePred residency.Prohibits := fun region =>
  inferInstanceAs
    (Decidable (region ∈ residency.blockedRegions.getD [] ∨ region ∉ residency.allowedRegions))

instance (config : GlobalQueueConfig) : DecidablePred (Prohibited config) := fun region =>
  inferInstanceAs (Decidable (∃ residency ∈ config.dataResidency, residency.Prohibits region))

/-- No run adds a job to the queue of a prohibited region. -/
def Resident (config : GlobalQueueConfig) (m : Manager) (qs : Queues) : Prop :=
  ∀ es w, system.runFrom (World.init m qs) es = some w →
    ∀ region, Prohibited config region → (w.server region).jobs = (qs region).jobs

/-! ## Adding to a prohibited region -/

variable {config : GlobalQueueConfig}

/-- An id that no job of a queue has. -/
theorem exists_fresh_id (q : Queue) : ∃ id, id ≠ "" ∧ id ∉ q.ids := by
  have : Infinite String := Infinite.of_injective _ Queue.toString_injective
  obtain ⟨id, hid⟩ := Infinite.exists_notMem_finset (insert "" q.ids.toFinset)
  rw [Finset.mem_insert, List.mem_toFinset, not_or] at hid
  exact ⟨id, hid⟩

/-- Adding under a fresh id changes the jobs of a queue. -/
theorem jobs_add_ne {q : Queue} {id : String} (hne : id ≠ "") (hfresh : id ∉ q.ids) (name : String)
    (data : Json) (now : ℕ) :
    (q.add name data { jobId := .value id } now).2.jobs ≠ q.jobs := by
  have hid : (q.defaultJobOptions.spread { jobId := .value id }).customId = some id :=
    JobsOptions.customId_spread rfl hne
  have hdup : q.duplicate { jobId := .value id } = none := by
    rw [Queue.duplicate, hid, Option.bind_some, Queue.getJob_eq_none]
    exact hfresh
  rw [Queue.add_of_duplicate_eq_none hdup (by rwa [Queue.newJob_id_of_some hid])]
  exact List.cons_ne_self _ _

theorem advance_failoverTo {m : Manager} {region : String} (h : region ∈ m.queues) :
    (Call.failoverTo region).method.advance m =
      (.settled (.ok .done), { m with primaryRegion := some region }) := by
  show Coroutine.advance ((if region ∈ m.queues then _ else _ : Method Unit) >>= _) m = _
  rw [if_pos h]
  rfl

theorem advance_addJob {m : Manager} {region : String} (h : region ∈ m.queues)
    (hm : m.primaryRegion = some region) (jobName : String) (data : Json) (options : JobsOptions) :
    ∃ k, (Call.addJob jobName data options).method.advance m =
      (.waiting (.add region jobName data options) k, m) := by
  obtain ⟨queues, redisClients, config, primaryRegion⟩ := m
  obtain rfl : primaryRegion = some region := hm
  show ∃ k, Coroutine.advance
    ((if region ∈ queues then _ else _ : Method String) >>= _) _ = _
  rw [if_pos h]
  exact ⟨_, rfl⟩

/-- A job added by hand to a region made primary by hand. -/
theorem exists_run_adding {m : Manager} (hm : SetUp config m) (qs : Queues) {region : String}
    (hregion : region ∈ config.regionNames) :
    ∃ es w, system.runFrom (World.init m qs) es = some w ∧
      (w.server region).jobs ≠ (qs region).jobs := by
  obtain ⟨id, hne, hfresh⟩ := exists_fresh_id (qs region)
  have hqueue : region ∈ m.queues := hm.1 ▸ hregion
  obtain ⟨k, hadd⟩ := advance_addJob (m := { m with primaryRegion := some region }) hqueue rfl "job"
    .null { jobId := .value id }
  refine ⟨[.spawn (.failoverTo region),
    .spawn (.addJob "job" .null { jobId := .value id }), .exec 1 {}], ?_⟩
  simp only [System.runFrom, system, Pool.system, Pool.spawn, World.init, advance_failoverTo hqueue,
    Option.bind_some, hadd, Pool.exec]
  refine ⟨_, rfl, ?_⟩
  simpa [serve] using jobs_add_ne hne hfresh "job" .null 0

/-- **No run adds a job to a prohibited region exactly if none of the configured regions is
prohibited.** -/
theorem resident_iff {m : Manager} (hm : initializeManager config = .ok m) (qs : Queues) :
    Resident config m qs ↔ ∀ region ∈ config.regionNames, ¬ Prohibited config region := by
  have hready := ready_initializeManager hm
  constructor
  · intro hresident region hregion hprohibited
    obtain ⟨es, w, hrun, hne⟩ := exists_run_adding hready.1 qs hregion
    exact hne (hresident es w hrun region hprohibited)
  · intro hpermitted es w hrun region hprohibited
    have hregion : region ∉ config.regionNames := fun h => hpermitted region h hprohibited
    rw [server_of_run hready hrun hregion]

/-- Two regions of the European Union, where data must be stored. -/
def europe : GlobalQueueConfig where
  regions := [{ region := "eu-west" }, { region := "eu-north" }]
  replication := some { enabled := true }
  dataResidency := some { allowedRegions := ["eu-west", "eu-north"] }

/-- With a copy in a region where data is prohibited. -/
def europeAndCopy : GlobalQueueConfig where
  regions := [{ region := "eu-west" }, { region := "us-east" }]
  replication := some { enabled := true }
  dataResidency := some { allowedRegions := ["eu-west"], blockedRegions := some ["us-east"] }

/-- No run stores a job outside the two regions. -/
theorem resident_europe :
    Resident europe
      { queues := ["eu-west", "eu-north"]
        redisClients := ["eu-west", "eu-north"]
        config := some europe
        primaryRegion := some "eu-west" } emptyQueues :=
  (resident_iff rfl emptyQueues).mpr (by decide)

/-- One addition, up to the copy. -/
def oneAddition : List (PoolEvent Call Choice) :=
  [.spawn (.addJob "render" .null { jobId := .value "r" }), .exec 0 {}, .resume 0, .exec 0 {},
    .resume 0, .exec 0 {}]

/-- The copy goes to the prohibited region. -/
theorem not_resident_europeAndCopy :
    ¬ Resident europeAndCopy
      { queues := ["eu-west", "us-east"]
        redisClients := ["eu-west", "us-east"]
        config := some europeAndCopy
        primaryRegion := some "eu-west" } emptyQueues := by
  intro hresident
  obtain ⟨w, hrun, hcopied⟩ :
      ∃ w ∈ system.runFrom (World.init
          { queues := ["eu-west", "us-east"]
            redisClients := ["eu-west", "us-east"]
            config := some europeAndCopy
            primaryRegion := some "eu-west" } emptyQueues) oneAddition,
        (w.server "us-east").jobs ≠ [] := by decide +kernel
  exact hcopied (hresident oneAddition w hrun "us-east" (by decide))

end KitiumJobQueue.GlobalQueue
