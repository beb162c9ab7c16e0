import KitiumJobQueue.Foundations.SharedInvariants
import KitiumJobQueue.GlobalQueue.Failover
import KitiumJobQueue.GlobalQueue.Replication

/-!
# Where the jobs of the regions come from

All methods of a running `GlobalQueueManager`, called in any number and interleaved at their waits,
any call to a region failing with or without effect. A region leads only if it was the primary from
the start, was named by a `failoverTo`, or was failed over to from a leading region (`Leads`); a job
is stored in a region only if it was there before, was added to a region that leads at some time, or
is a copy of a job of such a region (`Made`). So no job changes its name, data or id on its way
(`made_of_run`), and what the methods tell of jobs was made likewise (`told_of_run`).
-/

namespace KitiumJobQueue.GlobalQueue.Provenance

open Bull Effects JavaScript

section

variable (config : GlobalQueueConfig) (qs : Queues) (Called : Call → Prop)

/-- The regions that calls may have made the primary one. -/
inductive Leads : String → Prop
  | initial : Leads (determinePrimaryRegion config.regions)
  | named {region : String} (hcalled : Called (.failoverTo region))
    (hregion : region ∈ config.regionNames) : Leads region
  | failedOver {tick region : String} (hcalled : Called (.healthCheckTick tick))
    (henabled : config.failover.any FailoverConfig.enabled) (hled : Leads tick)
    (hregion : region ∈ config.regionNames) : Leads region

/-- A call copies jobs under the id to the region. -/
def Copies (id region : String) : Call → Prop
  | .addJob _ _ options =>
    (∀ custom ∈ options.customId, id = custom) ∧ region ∈ config.regionNames
  | .replicateJob jobId targetRegions => id = jobId ∧ region ∈ targetRegions.getD []
  | .failoverTo _ | .healthCheckTick _ | .getReplicationStatus _ => False

/-- The id, the name and the data of a job that calls may have put into a region. -/
inductive Made : String → String → String → Json → Prop
  | found {region : String} {job : Job} (hjob : job ∈ (qs region).jobs) :
    Made region job.id job.name job.data
  | added {region id name : String} {data : Json} {options : JobsOptions}
    (hcalled : Called (.addJob name data options)) (hleads : Leads config Called region)
    (hid : ∀ custom ∈ options.customId, id = custom) (hne : id ≠ "") : Made region id name data
  | copied {call : Call} {primary region id name : String} {data : Json} (hcalled : Called call)
    (henabled : config.replication.any ReplicationConfig.enabled)
    (hcopies : Copies config id region call) (hregion : region ∈ config.regionNames)
    (hled : Leads config Called primary) (hmade : Made primary id name data) :
    Made region id name data

/-- Queues as they are created: without options of their own, and with no job under the empty id. -/
structure Plain (q : Queue) : Prop where
  defaults : q.defaultJobOptions = {}
  named : "" ∉ q.ids

/-- The manager is set up, its primary region leads, and whatever is stored was made. -/
structure Sound (w : Shared Manager Queues) : Prop where
  setup : SetUp config w.memory
  leads : ∃ region, w.memory.primaryRegion = some region ∧ Leads config Called region
  defaults : ∀ region, (w.server region).defaultJobOptions = {}
  stored : ∀ region, ∀ job ∈ (w.server region).jobs,
    Made config qs Called region job.id job.name job.data

/-- While others do likewise, the method moves the primary region and stores jobs only so, and
resolves with what meets `Q`. -/
abbrev Safely {α : Type} (Q : α → Prop) (method : Method α) : Prop :=
  Ensures serve (Sound config qs Called) (fun _ _ => True) Q method

end

variable {config : GlobalQueueConfig} {qs : Queues} {Called : Call → Prop}

/-! ## Options -/

/-- Without defaults of the queue, the custom id is that of the options. -/
theorem customId_spread_empty (opts : JobsOptions) :
    (JobsOptions.spread {} opts).customId = opts.customId := by
  rw [JobsOptions.customId, JobsOptions.customId, JobsOptions.spread]
  cases opts.jobId with
  | absent => rfl
  | undefined => rfl
  | value id => rfl

section

variable {q : Queue} (hq : q.defaultJobOptions = {}) (name : String) (data : Json)
  (opts : JobsOptions) (now : ℕ)
include hq

/-- The job an addition returns has the custom id, if there is one. -/
theorem id_add : ∀ custom ∈ opts.customId, (q.add name data opts now).1.id = custom :=
  fun _ hcustom => Queue.add_id_of_customId
    ((congrArg (JobsOptions.customId <| JobsOptions.spread · opts) hq).trans
      ((customId_spread_empty opts).trans hcustom)) name data now

/-- It is what was asked for, if there is none. -/
theorem content_add (hnone : opts.customId = none) :
    (q.add name data opts now).1.name = name ∧ (q.add name data opts now).1.data = data := by
  refine (Queue.add_cases name data opts now).resolve_left fun hstored => hstored.2 ?_
  rw [hq, customId_spread_empty, hnone]

end

/-- No job that was made has the empty id. -/
theorem Made.ne_empty (hqs : ∀ region, Plain (qs region)) {region id name : String} {data : Json}
    (h : Made config qs Called region id name data) : id ≠ "" := by
  induction h with
  | found hjob =>
    rintro hid
    exact (hqs _).named (Queue.mem_ids.mpr ⟨_, hjob, hid⟩)
  | added _ _ _ hne => exact hne
  | copied _ _ _ _ _ _ ih => exact ih

/-! ## Commands -/

/-- An addition of a job that was made or may be made. -/
theorem safely_add {region name : String} {data : Json} {opts : JobsOptions}
    (hmade : ∀ id, (∀ custom ∈ opts.customId, id = custom) → id ≠ "" →
      Made config qs Called region id name data) :
    Safely config qs Called
      (fun job => Made config qs Called region job.id job.name job.data ∧
        (∀ custom ∈ opts.customId, job.id = custom) ∧
        (opts.customId = none → job.name = name ∧ job.data = data))
      (ask (.add region name data opts)) := by
  refine .await fun v m' s hs => ?_
  have hid := id_add (hs.defaults region) name data opts v.now
  have hreturned : Made config qs Called region ((s region).add name data opts v.now).1.id
      ((s region).add name data opts v.now).1.name
      ((s region).add name data opts v.now).1.data := by
    rcases Queue.add_cases (q := s region) name data opts v.now with
      ⟨hstored, -⟩ | ⟨hname, hdata⟩
    · exact hs.stored region _ hstored
    · rw [hname, hdata]
      exact hmade _ hid (Queue.add_id_ne_empty name data opts v.now)
  have hsound : Sound config qs Called ⟨m', addTo s region name data opts v.now⟩ := by
    refine ⟨hs.setup, hs.leads, fun region' => ?_, fun region' job hjob => ?_⟩
    · by_cases hr : region' = region
      · subst hr
        exact (congrArg Queue.defaultJobOptions addTo_self).trans
          ((Queue.defaultJobOptions_add name data opts v.now).trans (hs.defaults region'))
      · exact (congrArg Queue.defaultJobOptions (addTo_of_ne hr)).trans (hs.defaults region')
    · by_cases hr : region' = region
      · subst hr
        have hjob : job ∈ (addTo s region' name data opts v.now region').jobs := hjob
        rw [addTo_self] at hjob
        rcases Queue.mem_jobs_or_returned hjob with hjob | rfl
        · exact hs.stored region' job hjob
        · exact hreturned
      · have hjob : job ∈ (addTo s region name data opts v.now region').jobs := hjob
        rw [addTo_of_ne hr] at hjob
        exact hs.stored region' job hjob
  rw [serve_add]
  refine ⟨⟨?_, .inr trivial⟩, fun job hjob => ?_⟩
  · by_cases hv : v.answer.TakesEffect
    · rw [if_pos hv]
      exact hsound
    · rw [if_neg hv]
      exact hs
  · cases hv : v.answer with
    | rejected e applied =>
      rw [hv] at hjob
      cases hjob
    | answered =>
      rw [hv] at hjob
      obtain rfl := Except.ok.inj hjob
      exact ⟨hreturned, hid, content_add (hs.defaults region) name data opts v.now⟩

/-- A command that only reads. -/
theorem safely_ask {c : Command} {Q : Reply c → Prop} (hreads : ∀ v s, (serve v c s).2 = s)
    (hQ : ∀ v m' s, Sound config qs Called ⟨m', s⟩ → ∀ r, (serve v c s).1 = .ok r → Q r) :
    Safely config qs Called Q (ask c) :=
  .await fun v m' s hs => ⟨⟨(hreads v s).symm ▸ hs, .inl (hreads v s)⟩, hQ v m' s hs⟩

theorem safely_getJob (region id : String) :
    Safely config qs Called
      (fun job => ∀ j ∈ job, j.id = id ∧ Made config qs Called region j.id j.name j.data)
      (ask (.getJob region id)) := by
  refine safely_ask (fun v s => ?_) fun v m' s hs job hjob j hj => ?_
  · cases hv : v.answer <;> simp [serve, hv]
  · cases hv : v.answer with
    | rejected e applied => simp [serve, hv] at hjob
    | answered =>
      simp only [serve, hv, Except.ok.injEq] at hjob
      subst hjob
      exact ⟨Queue.getJob_id hj, hs.stored region j (List.mem_of_find?_eq_some hj)⟩

theorem safely_ping (region : String) :
    Safely config qs Called (fun _ => True) (ask (.ping region)) :=
  safely_ask (fun v s => by cases hv : v.answer <;> simp [serve, hv]) fun _ _ _ _ _ _ => trivial

/-! ## Failover -/

theorem safely_failoverTo {region : String}
    (hleads : region ∈ config.regionNames → Leads config Called region) :
    Safely config qs Called (fun _ => region ∈ config.regionNames) (failoverTo region) := by
  refine .read_bind fun w hw => ?_
  split
  · next hqueue =>
    have hregion : region ∈ config.regionNames := hw.setup.1 ▸ hqueue
    exact .modify (fun m s hs => ⟨hs.setup, ⟨region, rfl, hleads hregion⟩, hs.defaults, hs.stored⟩)
      hregion
  · exact .throw _

theorem safely_isRegionHealthy (region : String) :
    Safely config qs Called (fun _ => True) (isRegionHealthy region) := by
  refine .handle (.read_bind fun w _ => ?_) fun _ => .pure trivial
  split
  · exact .bind (safely_ping region) fun _ _ => .pure trivial
  · exact .pure trivial

theorem safely_regionHealths (regions : List RegionConfig) :
    Safely config qs Called
      (fun healths => ∀ r ∈ healths, r.healthy = true →
        r.region ∈ regions.map RegionConfig.region)
      (regionHealths regions) :=
  .read_bind fun _ _ =>
    .bind (P := fun _ => True) (safely_ask (fun _ _ => rfl) fun _ _ _ _ _ _ => trivial)
      fun _ _ => .pure fun _ hr hhealthy =>
        (List.of_mem_zip (mem_answered_of_healthy hr hhealthy)).1

theorem safely_handleFailover {tick : String} (hcalled : Called (.healthCheckTick tick))
    (henabled : config.failover.any FailoverConfig.enabled) (hled : Leads config Called tick) :
    Safely config qs Called (fun _ => True) handleFailover := by
  refine .handle (.read_bind fun w hw => ?_) fun _ => .pure trivial
  have hconfig : (id w.memory).config = some config := hw.setup.2.2
  rw [hconfig]
  refine .bind (safely_regionHealths config.regions) fun healths hhealths => ?_
  refine .read_bind fun w' _ => ?_
  split
  · next r hr =>
    obtain ⟨hmem, hhealthy, -⟩ := newPrimary_eq_some hr
    exact (safely_failoverTo fun hregion =>
      .failedOver hcalled henabled hled hregion).mono fun _ _ => trivial
  · exact .pure trivial

theorem failoverEnabled_of_setUp {m : Manager} (h : SetUp config m) :
    m.failoverEnabled = config.failover.any FailoverConfig.enabled := by
  rw [Manager.failoverEnabled, h.2.2, Option.bind_some]

theorem replicationEnabled_of_setUp {m : Manager} (h : SetUp config m) :
    m.replicationEnabled = config.replication.any ReplicationConfig.enabled := by
  rw [Manager.replicationEnabled, Manager.replication, h.2.2, Option.bind_some]

theorem safely_healthCheckTick {region : String} (hcalled : Called (.healthCheckTick region)) :
    Safely config qs Called (fun _ => True) (healthCheckTick region) := by
  refine .bind (safely_isRegionHealthy region) fun isHealthy _ => ?_
  split
  · exact .pure trivial
  · refine .read_bind fun w hw => ?_
    split
    · next h =>
      obtain ⟨henabled, hprimary⟩ := Bool.and_eq_true_iff.mp h
      obtain ⟨leader, hleader, hleads⟩ := hw.leads
      obtain rfl := Option.some.inj (hleader.symm.trans (of_decide_eq_true hprimary))
      exact safely_handleFailover hcalled (failoverEnabled_of_setUp hw.setup ▸ henabled) hleads
    · exact .pure trivial

/-! ## Adding and replicating -/

/-- The region jobs are added to and read back from. -/
theorem Sound.leads_primary {w : Shared Manager Queues} (hw : Sound config qs Called w) :
    Leads config Called (w.memory.primaryRegion.getD "") := by
  obtain ⟨region, hprimary, hleads⟩ := hw.leads
  rwa [hprimary, Option.getD_some]

theorem safely_getPrimaryJob (id : String) :
    Safely config qs Called
      (fun job => ∀ j ∈ job, ∃ primary, Leads config Called primary ∧
        Made config qs Called primary id j.name j.data)
      (getPrimaryJob id) := by
  refine .read_bind fun w hw => ?_
  dsimp only
  split
  · refine (safely_getJob _ id).mono fun job hjob j hj => ?_
    obtain ⟨hid, hmade⟩ := hjob j hj
    exact ⟨_, hw.leads_primary, hid ▸ hmade⟩
  · exact .pure fun j hj => by cases hj

section

variable (hqs : ∀ region, Plain (qs region)) {call : Call} (hcalled : Called call)
include hqs hcalled

theorem safely_replicateJobToRegion {id name : String} {data : Json} {mode : ReplicationMode}
    {primary region : String} (henabled : config.replication.any ReplicationConfig.enabled)
    (hcopies : Copies config id region call) (hled : Leads config Called primary)
    (hmade : Made config qs Called primary id name data) :
    Safely config qs Called (fun _ => True) (replicateJobToRegion id name data mode region) := by
  refine .read_bind fun w hw => ?_
  split
  case isFalse => exact .pure trivial
  case isTrue hqueue =>
  have hregion : region ∈ config.regionNames := hw.setup.1 ▸ hqueue
  have hcustom : id ∈ JobsOptions.customId { jobId := .value id } := by
    simp [JobsOptions.customId, hmade.ne_empty hqs]
  refine .handle (.bind (safely_add fun id' hid _ => ?_) fun _ _ => ?_) fun _ => ?_
  · exact hid id hcustom ▸ .copied hcalled henabled hcopies hregion hled hmade
  · split
    · exact .read_bind fun _ _ => safely_ask (fun _ _ => rfl) fun _ _ _ _ _ _ => trivial
    · exact .pure trivial
  · split
    · exact .throw _
    · exact .pure trivial

/-- The copies are those of a job of the region that leads when it is read back. -/
theorem safely_replicateJob {id : String} {targetRegions : Option (List String)}
    (hcopies : ∀ region ∈ targetRegions.getD [], Copies config id region call) :
    Safely config qs Called (fun _ => True) (replicateJob id targetRegions) := by
  refine .handle (.read_bind fun w hw => ?_) fun _ => .pure trivial
  split
  case isFalse => exact .pure trivial
  case isTrue h =>
  have henabled := replicationEnabled_of_setUp hw.setup ▸ (Bool.and_eq_true_iff.mp h).1
  refine .bind (safely_getPrimaryJob id) fun job hjob => ?_
  cases job with
  | none => exact .pure trivial
  | some j =>
    obtain ⟨primary, hled, hmade⟩ := hjob j rfl
    refine .read_bind fun w' _ => .forEach fun region hregion => ?_
    exact safely_replicateJobToRegion hqs hcalled henabled
      (hcopies region (List.mem_of_mem_filter hregion)) hled hmade

end

/-- What `addJob` resolves with: the id of a job of a leading region, which is the added one unless
the options named an id. -/
def AddedAs (config : GlobalQueueConfig) (qs : Queues) (Called : Call → Prop) (name : String)
    (data : Json) (options : JobsOptions) (id : String) : Prop :=
  ∃ primary name' data', Leads config Called primary ∧
    Made config qs Called primary id name' data' ∧ (∀ custom ∈ options.customId, id = custom) ∧
    (options.customId = none → name' = name ∧ data' = data)

theorem safely_addJob (hqs : ∀ region, Plain (qs region)) {name : String} {data : Json}
    {options : JobsOptions} (hcalled : Called (.addJob name data options)) :
    Safely config qs Called (AddedAs config qs Called name data options)
      (addJob name data options) := by
  refine .read_bind fun w hw => ?_
  dsimp only
  split
  case isFalse => exact .throw _
  case isTrue hqueue =>
  have hled := hw.leads_primary
  refine .bind (safely_add fun id hid hne => .added hcalled hled hid hne)
    fun job ⟨hmade, hid, hnew⟩ => ?_
  have hadded : AddedAs config qs Called name data options job.id :=
    ⟨_, _, _, hled, hmade, hid, hnew⟩
  refine .read_bind fun w' hw' => ?_
  split
  · refine .bind (safely_replicateJob hqs hcalled fun region hregion => ⟨hid, ?_⟩)
      fun _ _ => .pure hadded
    have hnames : w'.memory.regionNames = some config.regionNames := by
      rw [Manager.regionNames, hw'.setup.2.2, Option.map_some]
    have hregion : region ∈ w'.memory.regionNames.getD [] := hregion
    rwa [hnames] at hregion
  · exact .pure hadded

/-! ## Replication status -/

/-- What is told of a job's copies. -/
def ToldOf (config : GlobalQueueConfig) (qs : Queues) (Called : Call → Prop) (id : String)
    (status : StatusMap) : Prop :=
  ∀ region s, status region = some s → region ∈ config.regionNames ∧
    (s = .pending ∨ s = .replicated ∧ ∃ name data, Made config qs Called region id name data)

theorem toldOf_empty {id : String} : ToldOf config qs Called id fun _ => none :=
  fun _ _ h => by cases h

/-- The loop, by induction on the regions that are left. -/
theorem safely_statusLoop {id : String} {regions : List RegionConfig} {status : StatusMap}
    (hstatus : ToldOf config qs Called id status) :
    Safely config qs Called (ToldOf config qs Called id) (statusLoop id regions status) := by
  induction regions generalizing status with
  | nil => exact .pure hstatus
  | cons region regions ih =>
    refine .read_bind fun w hw => ?_
    split
    case isFalse => exact ih hstatus
    case isTrue hqueue =>
    refine .bind (safely_getJob _ id) fun job hjob => ih fun region' s hs => ?_
    by_cases hr : region' = region.region
    · subst hr
      rw [Function.update_self, Option.some.injEq] at hs
      refine ⟨hw.setup.1 ▸ hqueue, ?_⟩
      cases job with
      | none => exact .inl hs.symm
      | some j =>
        obtain ⟨hid, hmade⟩ := hjob j rfl
        exact .inr ⟨hs.symm, j.name, j.data, hid ▸ hmade⟩
    · rw [Function.update_of_ne hr] at hs
      exact hstatus region' s hs

theorem safely_getReplicationStatus (id : String) :
    Safely config qs Called (ToldOf config qs Called id) (getReplicationStatus id) := by
  refine .handle (.read_bind fun w _ => ?_) fun _ => .pure toldOf_empty
  split
  · exact .pure toldOf_empty
  · exact safely_statusLoop toldOf_empty

/-! ## Calls and runs -/

/-- What the methods resolve with. -/
def Told (config : GlobalQueueConfig) (qs : Queues) (Called : Call → Prop) : Call → Result → Prop
  | .addJob name data options, result =>
    ∃ id, result = .jobId id ∧ AddedAs config qs Called name data options id
  | .getReplicationStatus jobId, result =>
    ∃ status, result = .status status ∧ ToldOf config qs Called jobId status
  | .failoverTo region, _ => region ∈ config.regionNames
  | .replicateJob _ _, _ | .healthCheckTick _, _ => True

theorem safely_method (hqs : ∀ region, Plain (qs region)) {call : Call} (hcalled : Called call) :
    Safely config qs Called (Told config qs Called call) call.method := by
  cases call with
  | addJob name data options =>
    exact .bind (safely_addJob hqs hcalled) fun id hid => .pure ⟨id, rfl, hid⟩
  | replicateJob jobId targetRegions =>
    exact .bind (safely_replicateJob hqs hcalled fun _ hregion => ⟨rfl, hregion⟩)
      fun _ _ => .pure trivial
  | failoverTo region =>
    exact .bind (safely_failoverTo (.named hcalled)) fun _ hregion => .pure hregion
  | healthCheckTick region =>
    exact .bind (safely_healthCheckTick hcalled) fun _ _ => .pure trivial
  | getReplicationStatus jobId =>
    exact .bind (safely_getReplicationStatus jobId) fun status hstatus =>
      .pure ⟨status, rfl, hstatus⟩

theorem sound_init {m : Manager} (hqs : ∀ region, Plain (qs region))
    (hm : initializeManager config = .ok m) : Sound config qs Called ⟨m, qs⟩ where
  setup := setUp_initializeManager hm
  leads := by
    unfold initializeManager at hm
    split at hm
    · cases hm
    · cases hm
      exact ⟨_, rfl, .initial⟩
  defaults region := (hqs region).defaults
  stored _ _ hjob := .found hjob

section

variable {m : Manager} {es : List (PoolEvent Call Choice)} {w : World}

/-- **Every job of a region was added.** However the calls of a manager overlap, and whichever calls
to the regions fail, the primary region is one that calls have made so, and each job in a region was
there before, was added with its name and data, the region being one that calls of the run may make
the primary, or is the copy, under the same id, of such a job. -/
theorem made_of_run (hm : initializeManager config = .ok m) (hqs : ∀ region, Plain (qs region))
    (h : system.runFrom (World.init m qs) es = some w) :
    (∃ region, w.memory.primaryRegion = some region ∧
      Leads config (fun call => .spawn call ∈ es) region) ∧
    ∀ region, ∀ job ∈ (w.server region).jobs,
      Made config qs (fun call => .spawn call ∈ es) region job.id job.name job.data := by
  obtain ⟨hsound, -⟩ := ensures_of_run (P := fun call => .spawn call ∈ es)
    (fun _ hcalled => safely_method hqs hcalled) (sound_init hqs hm) (fun _ hcalled => hcalled) h
  exact ⟨hsound.leads, hsound.stored⟩

/-- **What is told of jobs was made**: `addJob` returns the id of the job it has added to a leading
region, or of the one that was stored under the id it was given; `getReplicationStatus` tells of
configured regions only, and of a copy only where one was made. -/
theorem told_of_run (hm : initializeManager config = .ok m) (hqs : ∀ region, Plain (qs region))
    (h : system.runFrom (World.init m qs) es = some w) :
    ∀ t ∈ w.threads, ∀ result, t.stage = .settled (.ok result) →
      Told config qs (fun call => .spawn call ∈ es) t.label result :=
  (ensures_of_run (P := fun call => .spawn call ∈ es)
    (fun _ hcalled => safely_method hqs hcalled) (sound_init hqs hm) (fun _ hcalled => hcalled) h).2

end

/-! ## Two jobs under one number -/

theorem plain_emptyQueues (region : String) : Plain (emptyQueues region) :=
  ⟨rfl, List.not_mem_nil⟩

/-- A failover while the first job is added: the second gets the same number in the other region,
the copy of each finds the other in its place, and the number is told to be replicated. -/
def overlappingRun : List (PoolEvent Call Choice) :=
  [.spawn (.addJob "render" .null {}), .exec 0 {}, .spawn (.failoverTo "B"),
    .spawn (.addJob "encode" .null {}), .exec 2 {}, .resume 0, .exec 0 {}, .resume 0, .exec 0 {},
    .resume 0, .resume 2, .exec 2 {}, .resume 2, .exec 2 noAnswer, .resume 2,
    .spawn (.getReplicationStatus "1"), .exec 3 {}, .resume 3, .exec 3 {}, .resume 3]

theorem isSome_overlappingRun :
    (system.runFrom (World.init twoRegionsManager emptyQueues) overlappingRun).isSome := by
  decide +kernel

/-- Each of the two was added. -/
theorem made_of_overlappingRun :
    ∃ w, system.runFrom (World.init twoRegionsManager emptyQueues) overlappingRun = some w ∧
      (∃ region, w.memory.primaryRegion = some region ∧
        Leads twoRegions (fun call => .spawn call ∈ overlappingRun) region) ∧
      ∀ region, ∀ job ∈ (w.server region).jobs,
        Made twoRegions emptyQueues (fun call => .spawn call ∈ overlappingRun) region job.id
          job.name job.data :=
  ⟨_, (Option.some_get isSome_overlappingRun).symm,
    made_of_run rfl plain_emptyQueues (Option.some_get isSome_overlappingRun).symm⟩

/-- What is told of them is so. -/
theorem told_of_overlappingRun :
    ∃ w, system.runFrom (World.init twoRegionsManager emptyQueues) overlappingRun = some w ∧
      ∀ t ∈ w.threads, ∀ result, t.stage = .settled (.ok result) →
        Told twoRegions emptyQueues (fun call => .spawn call ∈ overlappingRun) t.label result :=
  ⟨_, (Option.some_get isSome_overlappingRun).symm,
    told_of_run rfl plain_emptyQueues (Option.some_get isSome_overlappingRun).symm⟩

end KitiumJobQueue.GlobalQueue.Provenance
