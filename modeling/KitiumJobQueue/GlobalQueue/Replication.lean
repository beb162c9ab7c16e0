import KitiumJobQueue.Foundations.RelyGuarantee
import KitiumJobQueue.GlobalQueue.Regions

/-!
# Replication and failover

`addJob` adds a job to the primary region, reads it back from the primary region, and copies it to
the regions other than the primary one. The id is the number the primary's queue gives it, and the
other queues get the job under that number. So two things can go wrong. A failover between the three
readings of the primary loses copies, and a region that has become primary may number a job as one
already stored elsewhere.

Without the second, the job that a call resolved with is the only one stored under its id, in every
region (`SoleJob`), so `getReplicationStatus` tells the truth (`status_of_run`); without the first,
and when no call fails, all regions store it (`holds_of_run`). Both are proved by rely and guarantee
with one relation (`Keeps`): no step takes away a job that is the only one under its id, and none
adds another.
-/

namespace KitiumJobQueue.GlobalQueue

open Bull Effects JavaScript

variable {config : GlobalQueueConfig}

/-! ## What the regions store under an id -/

/-- In no configured region another job is stored under the id. -/
def NoOtherJob (config : GlobalQueueConfig) (qs : Queues) (id name : String) (data : Json) : Prop :=
  ∀ region ∈ config.regionNames, (qs region).HoldsOnly id name data

/-- The job is stored under the id in a configured region, and no other one is in any. -/
def SoleJob (config : GlobalQueueConfig) (qs : Queues) (id name : String) (data : Json) : Prop :=
  NoOtherJob config qs id name data ∧
    ∃ region ∈ config.regionNames, (qs region).Holds id name data

instance (qs : Queues) (id name : String) (data : Json) :
    Decidable (NoOtherJob config qs id name data) :=
  inferInstanceAs (Decidable (∀ region ∈ config.regionNames, (qs region).HoldsOnly id name data))

theorem SoleJob.unique {qs : Queues} {id name name' : String} {data data' : Json}
    (h : SoleJob config qs id name data) (h' : NoOtherJob config qs id name' data') :
    name = name' ∧ data = data' := by
  obtain ⟨-, region, hregion, hholds⟩ := h
  exact hholds.unique (h' region hregion)

/-- What every step of a call does, and so what a waiting call may rely on. -/
structure Keeps (config : GlobalQueueConfig) (w w' : Shared Manager Queues) : Prop where
  setup : SameSetup w.memory w'.memory
  primary : PrimaryConfigured config w.memory → PrimaryConfigured config w'.memory
  sole : ∀ {id name data}, SoleJob config w.server id name data →
    SoleJob config w'.server id name data
  holds : ∀ {id name data region}, region ∈ config.regionNames →
    SoleJob config w.server id name data → (w.server region).Holds id name data →
      (w'.server region).Holds id name data

namespace Keeps

theorem refl (w : Shared Manager Queues) : Keeps config w w :=
  ⟨.refl _, id, id, fun _ _ h => h⟩

theorem trans {w₁ w₂ w₃ : Shared Manager Queues} (h : Keeps config w₁ w₂)
    (h' : Keeps config w₂ w₃) : Keeps config w₁ w₃ where
  setup := h.setup.trans h'.setup
  primary hp := h'.primary (h.primary hp)
  sole hs := h'.sole (h.sole hs)
  holds hr hs hh := h'.holds hr (h.sole hs) (h.holds hr hs hh)

end Keeps

/-! ## One addition to one queue -/

section Add

variable {qs : Queues} {region name : String} {data : Json} {opts : JobsOptions} {now : ℕ}

/-- The queues after an addition to one of them. -/
def addTo (qs : Queues) (region name : String) (data : Json) (opts : JobsOptions) (now : ℕ) :
    Queues :=
  Function.update qs region ((qs region).add name data opts now).2

@[simp] theorem addTo_self :
    addTo qs region name data opts now region = ((qs region).add name data opts now).2 :=
  Function.update_self ..

@[simp] theorem addTo_of_ne {region' : String} (h : region' ≠ region) :
    addTo qs region name data opts now region' = qs region' :=
  Function.update_of_ne h ..

/-- An id other than that of the addition leads to what it did. -/
theorem getJob_addTo_of_ne {id : String} (hid : ((qs region).add name data opts now).1.id ≠ id)
    (region' : String) :
    (addTo qs region name data opts now region').getJob id = (qs region').getJob id := by
  by_cases hr : region' = region
  · subst hr
    rw [addTo_self, Queue.getJob_add, if_neg hid]
  · rw [addTo_of_ne hr]

/-- The job that was added is stored. -/
theorem holds_addTo
    (h : (qs region).HoldsOnly ((qs region).add name data opts now).1.id name data) :
    (addTo qs region name data opts now region).Holds ((qs region).add name data opts now).1.id
      name data := by
  refine ⟨((qs region).add name data opts now).1, ?_, Queue.add_content h⟩
  rw [addTo_self, Queue.getJob_add, if_pos rfl]
  rfl

/-- If no other job has the id, no other job has it afterwards. -/
theorem noOtherJob_addTo {id : String}
    (hid : ((qs region).add name data opts now).1.id = id)
    (h : NoOtherJob config qs id name data) (hregion : region ∈ config.regionNames) :
    NoOtherJob config (addTo qs region name data opts now) id name data := by
  subst hid
  intro region' hregion' j hj
  by_cases hr : region' = region
  · subst hr
    rw [addTo_self, Queue.getJob_add, if_pos rfl] at hj
    obtain rfl := Option.some.inj hj
    exact Queue.add_content (h region' hregion')
  · rw [addTo_of_ne hr] at hj
    exact h region' hregion' j hj

/-- The job that was added is the only one under its id. -/
theorem soleJob_addTo (hregion : region ∈ config.regionNames)
    (h : NoOtherJob config qs ((qs region).add name data opts now).1.id name data) :
    SoleJob config (addTo qs region name data opts now)
      ((qs region).add name data opts now).1.id name data :=
  ⟨noOtherJob_addTo rfl h hregion, region, hregion, holds_addTo (h region hregion)⟩

/-- An addition under an id that no other job has takes nothing away. -/
theorem keeps_addTo {m : Manager} (hregion : region ∈ config.regionNames)
    (h : NoOtherJob config qs ((qs region).add name data opts now).1.id name data) :
    Keeps config ⟨m, qs⟩ ⟨m, addTo qs region name data opts now⟩ := by
  have hother : ∀ {id name' data' region'},
      ((qs region).add name data opts now).1.id ≠ id →
        ((addTo qs region name data opts now region').Holds id name' data' ↔
          (qs region').Holds id name' data') := by
    intro id name' data' region' hid
    rw [Queue.Holds, getJob_addTo_of_ne hid, Queue.Holds]
  refine ⟨.refl m, id, fun {id name' data'} hs => ?_, fun {id name' data' region'} hr hs hh => ?_⟩
  · by_cases hid : ((qs region).add name data opts now).1.id = id
    · subst hid
      obtain ⟨rfl, rfl⟩ := hs.unique h
      exact soleJob_addTo hregion h
    · obtain ⟨hno, region', hregion', hholds⟩ := hs
      refine ⟨fun region'' hregion'' => ?_, region', hregion', (hother hid).mpr hholds⟩
      rw [Queue.HoldsOnly, getJob_addTo_of_ne hid]
      exact hno region'' hregion''
  · by_cases hid : ((qs region).add name data opts now).1.id = id
    · subst hid
      obtain ⟨rfl, rfl⟩ := hs.unique h
      by_cases hr' : region' = region
      · subst hr'
        exact holds_addTo (h region' hr)
      · show (addTo qs region name' data' opts now region').Holds _ _ _
        rwa [addTo_of_ne hr']
    · exact (hother hid).mpr hh

end Add

/-! ## Runs of additions and failovers -/

/-- Calls of `addJob` and `failoverTo` only. -/
def AddsAndFailovers : PoolEvent Call Choice → Prop
  | .spawn (.addJob _ _ _) | .spawn (.failoverTo _) => True
  | .spawn (.replicateJob _ _) | .spawn (.healthCheckTick _) | .spawn (.getReplicationStatus _) =>
    False
  | .exec _ _ | .resume _ => True

/-- No call to a region fails. -/
def NoneFails : PoolEvent Call Choice → Prop
  | .exec _ v => v.answer.IsAnswered
  | .spawn _ | .resume _ => True

/-- If a command adds a job, no region stores another one under the id it gets. -/
def AddsAlone (config : GlobalQueueConfig) (c : Command) (v : Choice) (qs : Queues) : Prop :=
  match c with
  | .add region name data opts =>
    v.answer.TakesEffect →
      NoOtherJob config qs ((qs region).add name data opts v.now).1.id name data
  | .getJob _ _ | .ping _ | .pings _ | .timer _ => True

/-- The id, name and data of the job a call has added, as long as it has no other answers than those
to its addition and to its reading back. -/
def added? : Transcript Thrown Reply → Option (String × String × Json)
  | [⟨.add _ name data _, .ok job⟩] | [_, ⟨.add _ name data _, .ok job⟩] =>
    some ((job : Job).id, name, data)
  | _ => none

/-- The primary region stores the job a call has added. -/
def PrimaryHolds (heard : Transcript Thrown Reply) (w : Shared Manager Queues) : Prop :=
  ∀ added ∈ added? heard, ∃ region ∈ w.memory.primaryRegion,
    (w.server region).Holds added.1 added.2.1 added.2.2

/-- What is carried out first of a call goes under an id that no other job has. -/
def NumbersAlone (config : GlobalQueueConfig) (w : World) : PoolEvent Call Choice → Prop
  | .exec i v => ∀ t ∈ w.threads[i]?, t.heard.isEmpty → ∀ c ∈ t.stage.command?,
      AddsAlone config c v w.server
  | .spawn _ | .resume _ => True

/-- A call finds the job it added wherever it reads the primary region again. -/
def FindsAdded (w : World) : PoolEvent Call Choice → Prop
  | .resume i => ∀ t ∈ w.threads[i]?, PrimaryHolds t.heard w.toShared
  | .spawn _ | .exec _ _ => True

instance : DecidablePred AddsAndFailovers
  | .spawn (.addJob _ _ _) | .spawn (.failoverTo _) => .isTrue trivial
  | .spawn (.replicateJob _ _) | .spawn (.healthCheckTick _) | .spawn (.getReplicationStatus _) =>
    .isFalse id
  | .exec _ _ | .resume _ => .isTrue trivial

instance : DecidablePred NoneFails
  | .exec _ v => inferInstanceAs (Decidable v.answer.IsAnswered)
  | .spawn _ | .resume _ => .isTrue trivial

instance (c : Command) (v : Choice) (qs : Queues) : Decidable (AddsAlone config c v qs) :=
  match c with
  | .add region name data opts => inferInstanceAs (Decidable (v.answer.TakesEffect →
      NoOtherJob config qs ((qs region).add name data opts v.now).1.id name data))
  | .getJob _ _ | .ping _ | .pings _ | .timer _ => .isTrue trivial

instance (heard : Transcript Thrown Reply) (w : Shared Manager Queues) :
    Decidable (PrimaryHolds heard w) :=
  inferInstanceAs (Decidable (∀ added ∈ added? heard, ∃ region ∈ w.memory.primaryRegion,
    (w.server region).Holds added.1 added.2.1 added.2.2))

instance (w : World) : DecidablePred (NumbersAlone config w)
  | .exec i v => inferInstanceAs (Decidable (∀ t ∈ w.threads[i]?, t.heard.isEmpty →
      ∀ c ∈ t.stage.command?, AddsAlone config c v w.server))
  | .spawn _ | .resume _ => .isTrue trivial

instance (w : World) : DecidablePred (FindsAdded w)
  | .resume i => inferInstanceAs (Decidable (∀ t ∈ w.threads[i]?, PrimaryHolds t.heard w.toShared))
  | .spawn _ | .exec _ _ => .isTrue trivial

/-! ## The rules of a call -/

/-- The rules of a call. `lossless` stands for runs in which no call fails and none misses the job
it added. -/
def replicationRules (config : GlobalQueueConfig) (lossless : Prop) :
    Rules Thrown Manager Queues Choice Reply where
  rely _ := Keeps config
  executes heard c v w :=
    (lossless → v.answer.IsAnswered) ∧ (heard.isEmpty → AddsAlone config c v w.server)
  resumes heard w := lossless → PrimaryHolds heard w
  guarantee _ := Keeps config
  rely_refl _ := .refl
  rely_trans := .trans

/-- What a call of `addJob` has achieved: the job it added is the only one under its id, and where
nothing was lost all regions store it. -/
def Achieved (config : GlobalQueueConfig) (lossless : Prop) (id name : String) (data : Json)
    (qs : Queues) : Prop :=
  SoleJob config qs id name data ∧
    (lossless → ∀ region ∈ config.regionNames, (qs region).Holds id name data)

theorem Achieved.of_keeps {lossless : Prop} {id name : String} {data : Json}
    {w w' : Shared Manager Queues} (h : Achieved config lossless id name data w.server)
    (hw : Keeps config w w') : Achieved config lossless id name data w'.server :=
  ⟨hw.sole h.1, fun hl region hregion => hw.holds hregion h.1 (h.2 hl region hregion)⟩

section Add

variable {v : Choice} {region name : String} {data : Json} {opts : JobsOptions} {qs : Queues}

/-- An addition is answered with the job, if it is answered. -/
theorem serve_add :
    serve v (.add region name data opts) qs =
      (match v.answer with
        | .answered => .ok ((qs region).add name data opts v.now).1
        | .rejected e _ => .error e,
      if v.answer.TakesEffect then addTo qs region name data opts v.now else qs) := by
  cases hv : v.answer with
  | answered => simp [serve, Answer.TakesEffect, hv, addTo]
  | rejected e applied => cases applied <;> simp [serve, Answer.TakesEffect, hv, addTo]

/-- An addition that no other job rivals takes nothing away, whether or not it is carried out. -/
theorem keeps_serve_add {m : Manager} (hregion : region ∈ config.regionNames)
    (h : v.answer.TakesEffect →
      NoOtherJob config qs ((qs region).add name data opts v.now).1.id name data) :
    Keeps config ⟨m, qs⟩ ⟨m, (serve v (.add region name data opts) qs).2⟩ := by
  rw [serve_add]
  by_cases hv : v.answer.TakesEffect
  · rw [if_pos hv]
    exact keeps_addTo hregion (h hv)
  · rw [if_neg hv]
    exact .refl _

end Add

/-! ## `addJob` follows its rules -/

section Methods

variable {lossless : Prop} {id name : String} {data : Json}

theorem meets_failoverTo {region : String} {post : Post Thrown Manager Queues Reply Unit}
    {w : Shared Manager Queues} (hsetup : SetUp config w.memory)
    (hpost : ∀ w₀ w r, Keeps config w₀ w → post [] w₀ w r) :
    Meets serve (replicationRules config lossless) post (failoverTo region) [] w w := by
  rw [failoverTo, meets_read_bind]
  split
  · rename_i hregion
    have hregion : region ∈ config.regionNames := hsetup.1 ▸ hregion
    exact hpost _ _ _ ⟨⟨rfl, rfl, rfl⟩, fun _ => ⟨region, hregion, rfl⟩, fun h => h, fun _ _ h => h⟩
  · exact hpost _ _ _ (.refl w)

/-- A copy to a region: the job goes there, unless the call fails. -/
theorem meets_replicateJobToRegion {region : String} {mode : ReplicationMode}
    {post : Post Thrown Manager Queues Reply Unit} {heard : Transcript Thrown Reply}
    {w₀ w : Shared Manager Queues} (hheard : 2 ≤ heard.length) (hguar : Keeps config w₀ w)
    (hsetup : SetUp config w.memory) (hid : id ≠ "") (hsole : SoleJob config w.server id name data)
    (hregion : region ∈ config.regionNames)
    (hpost : ∀ heard w₀ w' r, 2 ≤ heard.length → Keeps config w₀ w' → Keeps config w w' →
      (lossless → r = .ok () ∧ (w'.server region).Holds id name data) → post heard w₀ w' r) :
    Meets serve (replicationRules config lossless) post
      (replicateJobToRegion id name data mode region) heard w₀ w := by
  rw [replicateJobToRegion, meets_read_bind, if_pos (by rwa [hsetup.1]), meets_tryCatch, meets_bind]
  refine meets_await.mpr ⟨hguar, fun w₁ hw₁ v hv => ?_⟩
  have hno : NoOtherJob config w₁.server
      ((w₁.server region).add name data { jobId := .value id } v.now).1.id name data := by
    rw [Queue.add_id_of_jobId rfl hid]
    exact (hw₁.sole hsole).1
  have hadd : Keeps config w₁ ⟨w₁.memory, _⟩ := keeps_serve_add hregion fun _ => hno
  refine ⟨hadd, fun w₂ hw₂ _ => ?_⟩
  have hkeeps : Keeps config w w₂ := (hw₁.trans hadd).trans hw₂
  have hlen : 2 ≤ heard.length + 1 := Nat.le_add_right_of_le hheard
  cases hans : v.answer with
  | rejected e applied =>
    have hfails : lossless → False := fun hl => by simpa [hans, Answer.IsAnswered] using hv.1 hl
    simp only [serve_add, hans]
    split
    · exact hpost _ _ _ _ hlen (.refl w₂) hkeeps fun hl => (hfails hl).elim
    · exact hpost _ _ _ _ hlen (.refl w₂) hkeeps fun hl => (hfails hl).elim
  | answered =>
    have hholds : (w₂.server region).Holds id name data := by
      have hstored := holds_addTo (hno region hregion)
      have hsole' := soleJob_addTo hregion hno
      rw [Queue.add_id_of_jobId rfl hid] at hstored hsole'
      refine hw₂.holds hregion ?_ ?_
      · simpa [serve_add, hans, Answer.TakesEffect] using hsole'
      · simpa [serve_add, hans, Answer.TakesEffect] using hstored
    simp only [serve_add, hans]
    split
    · rw [meets_read_bind]
      refine meets_await.mpr ⟨.refl w₂, fun w₃ hw₃ v' _ => ⟨.refl w₃, fun w₄ hw₄ _ => ?_⟩⟩
      have hkeeps' : Keeps config w₂ w₄ := hw₃.trans hw₄
      exact hpost _ _ _ _ (Nat.le_add_right_of_le hlen) (.refl w₄) (hkeeps.trans hkeeps') fun _ =>
        ⟨rfl, hkeeps'.holds hregion (hkeeps.sole hsole) hholds⟩
    · exact hpost _ _ _ _ hlen (.refl w₂) hkeeps fun _ => ⟨rfl, hholds⟩

/-- The copies of a job. Where nothing is lost, a region left out or served stores the job. -/
theorem meets_replicateTo {job : Job} {post : Post Thrown Manager Queues Reply Unit}
    {heard : Transcript Thrown Reply} {w : Shared Manager Queues} (hheard : 2 ≤ heard.length)
    (hsetup : SetUp config w.memory) (hid : id ≠ "")
    (hsole : SoleJob config w.server id job.name job.data)
    (hprimary : lossless → ∃ region ∈ w.memory.primaryRegion,
      (w.server region).Holds id job.name job.data)
    (hpost : ∀ heard w₀ w' r, Keeps config w₀ w' → Keeps config w w' →
      (lossless → r = .ok () ∧
        ∀ region ∈ config.regionNames, (w'.server region).Holds id job.name job.data) →
      post heard w₀ w' r) :
    Meets serve (replicationRules config lossless) post
      (replicateTo id job config.regionNames) heard w w := by
  rw [replicateTo, meets_read_bind]
  refine meets_forEach
    (fun rest h w₀ w' => 2 ≤ h.length ∧ rest ⊆ config.regionNames ∧ Keeps config w₀ w' ∧
      Keeps config w w' ∧ (lossless → ∀ region ∈ config.regionNames,
        region ∈ rest ∨ (w'.server region).Holds id job.name job.data)) ?_ ?_
    ⟨hheard, List.filter_subset_self _, .refl w, .refl w, fun hl region hregion => ?_⟩
  · rintro h w₀ w' ⟨-, -, hguar, hkeeps, hdone⟩
    exact hpost _ _ _ _ hguar hkeeps fun hl =>
      ⟨rfl, fun region hregion => (hdone hl region hregion).resolve_left (List.not_mem_nil)⟩
  · rintro region rest h w₀ w' ⟨hlen, hrest, hguar, hkeeps, hdone⟩
    have hregion : region ∈ config.regionNames := hrest List.mem_cons_self
    refine meets_replicateJobToRegion hlen hguar (hsetup.of_same hkeeps.setup) hid
      (hkeeps.sole hsole) hregion fun h' w₁ w₂ r hlen' hguar' hkeeps' hcopied => ?_
    cases r with
    | error e =>
      exact hpost _ _ _ _ hguar' (hkeeps.trans hkeeps') fun hl => by simpa using (hcopied hl).1
    | ok _ =>
      refine ⟨hlen', fun x hx => hrest (List.mem_cons_of_mem _ hx), hguar', hkeeps.trans hkeeps',
        fun hl region' hregion' => ?_⟩
      rcases hdone hl region' hregion' with hmem | hholds
      · rcases List.mem_cons.mp hmem with rfl | hmem
        · exact .inr (hcopied hl).2
        · exact .inl hmem
      · exact .inr (hkeeps'.holds hregion' (hkeeps.sole hsole) hholds)
  · obtain ⟨primary, hp, hholds⟩ := hprimary hl
    by_cases hr : region = primary
    · exact .inr (hr ▸ hholds)
    · refine .inl (List.mem_filter.mpr ⟨hregion, decide_eq_true fun h => hr ?_⟩)
      exact Option.some.inj (h.symm.trans hp)

/-- Reading back the job that was just added. Where nothing is lost it is found. -/
theorem meets_getPrimaryJob {job : Job} {region : String} {opts : JobsOptions}
    {post : Post Thrown Manager Queues Reply (Option Job)} {w : Shared Manager Queues}
    (hsetup : SetUp config w.memory) (hconfigured : PrimaryConfigured config w.memory)
    (hsole : SoleJob config w.server job.id name data)
    (hprimary : lossless → PrimaryHolds [⟨.add region name data opts, .ok job⟩] w)
    (hpost : ∀ heard w' r, 2 ≤ heard.length → Keeps config w w' →
      (∀ job', r = .ok (some job') → job'.name = name ∧ job'.data = data) →
      (lossless → (∃ job', r = .ok (some job')) ∧
        ∃ primary ∈ w'.memory.primaryRegion, (w'.server primary).Holds job.id name data) →
      post heard w' w' r) :
    Meets serve (replicationRules config lossless) post (getPrimaryJob job.id)
      [⟨.add region name data opts, .ok job⟩] w w := by
  obtain ⟨primary, hconf, hp⟩ := hconfigured
  have hname : w.memory.primaryRegion.getD "" = primary := by rw [hp, Option.getD_some]
  rw [getPrimaryJob, meets_read_bind]
  dsimp only [id_eq]
  rw [hname, if_pos (by rwa [hsetup.1])]
  refine meets_await.mpr ⟨.refl w, fun w₁ hw₁ v hv => ?_⟩
  have hread : (serve v (.getJob primary job.id) w₁.server).2 = w₁.server := by
    cases hans : v.answer <;> simp only [serve, hans]
  rw [Answered, hread]
  refine ⟨.refl w₁, fun w₂ hw₂ hfound => ?_⟩
  refine hpost _ w₂ _ le_rfl (hw₁.trans hw₂) (fun job' hjob' => ?_) fun hl =>
    ⟨?_, hfound hl _ rfl⟩
  · cases hans : v.answer with
    | rejected e applied =>
      simp only [serve, hans] at hjob'
      cases hjob'
    | answered =>
      simp only [serve, hans, Except.ok.injEq] at hjob'
      exact (hw₁.sole hsole).1 primary hconf job' hjob'
  · obtain ⟨primary', hp', hholds⟩ := hprimary hl _ rfl
    obtain rfl := Option.some.inj (hp.symm.trans hp')
    obtain ⟨job', hjob', -⟩ := hw₁.holds hconf hsole hholds
    have hans : v.answer = .answered := (hv.1 hl).eq
    refine ⟨job', ?_⟩
    simp only [serve, hans]
    exact congrArg Except.ok hjob'

/-- The replication of a job that was just added. -/
theorem meets_replicateJob {job : Job} {region : String} {opts : JobsOptions}
    {post : Post Thrown Manager Queues Reply Unit} {w : Shared Manager Queues}
    (henabled : lossless → w.memory.replicationEnabled = true) (hsetup : SetUp config w.memory)
    (hconfigured : PrimaryConfigured config w.memory) (hid : job.id ≠ "")
    (hsole : SoleJob config w.server job.id name data)
    (hprimary : lossless → PrimaryHolds [⟨.add region name data opts, .ok job⟩] w)
    (hpost : ∀ heard w₀ w', Keeps config w₀ w' →
      Achieved config lossless job.id name data w'.server → post heard w₀ w' (.ok ())) :
    Meets serve (replicationRules config lossless) post
      (replicateJob job.id (some config.regionNames)) [⟨.add region name data opts, .ok job⟩]
      w w := by
  have hlost : ∀ {w'}, (lossless → False) → Keeps config w w' →
      Achieved config lossless job.id name data w'.server :=
    fun hl hkeeps => ⟨hkeeps.sole hsole, fun h => (hl h).elim⟩
  rw [replicateJob, meets_tryCatch, meets_read_bind]
  split
  · rw [meets_bind]
    refine meets_getPrimaryJob hsetup hconfigured hsole hprimary
      fun heard w₁ r hlen hkeeps hjob hfound => ?_
    have hfails (hr : ∀ job', r ≠ .ok (some job')) (hl : lossless) : False := by
      obtain ⟨⟨job', hjob'⟩, -⟩ := hfound hl
      exact hr job' hjob'
    rcases r with e | _ | job'
    · exact hpost _ _ _ (.refl w₁) (hlost (hfails fun _ => nofun) hkeeps)
    · exact hpost _ _ _ (.refl w₁) (hlost (hfails fun _ => nofun) hkeeps)
    · obtain ⟨rfl, rfl⟩ := hjob job' rfl
      refine meets_replicateTo hlen (hsetup.of_same hkeeps.setup) hid (hkeeps.sole hsole)
        (fun hl => (hfound hl).2) fun h w₂ w₃ r hguar hkeeps' hcopied => ?_
      have hachieved : Achieved config lossless job.id job'.name job'.data w₃.server :=
        ⟨(hkeeps.trans hkeeps').sole hsole, fun hl => (hcopied hl).2⟩
      cases r with
      | ok _ => exact hpost _ _ _ hguar hachieved
      | error e => exact hpost _ _ _ hguar hachieved
  · rename_i htest
    obtain ⟨primary, hconf, -⟩ := hconfigured
    have hfails : lossless → False := fun hl => htest <| by
      simpa [henabled hl] using List.ne_nil_of_mem hconf
    exact hpost _ _ _ (.refl w) (hlost hfails (.refl w))

/-- An addition, which goes to the primary region first. -/
theorem meets_addJob {opts : JobsOptions} {post : Post Thrown Manager Queues Reply String}
    {w : Shared Manager Queues}
    (henabled : lossless → config.replication.any ReplicationConfig.enabled = true)
    (hsetup : SetUp config w.memory) (hconfigured : PrimaryConfigured config w.memory)
    (hpost : ∀ heard w₀ w' r, Keeps config w₀ w' →
      (∀ id ∈ r.toOption, Achieved config lossless id name data w'.server) →
      post heard w₀ w' r) :
    Meets serve (replicationRules config lossless) post (addJob name data opts) [] w w := by
  obtain ⟨primary, hconf, hp⟩ := hconfigured
  have hname : w.memory.primaryRegion.getD "" = primary := by rw [hp, Option.getD_some]
  rw [addJob, meets_read_bind]
  dsimp only [id_eq]
  rw [hname, if_pos (by rwa [hsetup.1]), meets_bind]
  refine meets_await.mpr ⟨.refl w, fun w₁ hw₁ v hv => ?_⟩
  have hno := hv.2 rfl
  have hadd : Keeps config w₁ ⟨w₁.memory, _⟩ := keeps_serve_add hconf hno
  refine ⟨hadd, fun w₂ hw₂ hfound => ?_⟩
  cases hans : v.answer with
  | rejected e applied =>
    simp only [serve_add, hans]
    exact hpost _ _ _ _ (.refl w₂) fun id hid => by simp [Except.toOption] at hid
  | answered =>
    have hsetup₂ : SetUp config w₂.memory :=
      hsetup.of_same ((hw₁.trans hadd).trans hw₂).setup
    have hconf₂ := ((hw₁.trans hadd).trans hw₂).primary ⟨primary, hconf, hp⟩
    have hsole := hw₂.sole (by
      simpa [serve_add, hans, Answer.TakesEffect] using
        soleJob_addTo hconf (hno (by simp [hans, Answer.TakesEffect])))
    have hid := Queue.add_id_ne_empty (q := w₁.server primary) name data opts v.now
    simp only [serve_add, hans] at hfound ⊢
    rw [meets_read_bind]
    dsimp only [id_eq]
    have hregions : w₂.memory.regionNames = some config.regionNames := by
      rw [Manager.regionNames, hsetup₂.2.2, Option.map_some]
    have htest : w₂.memory.replicationEnabled =
        config.replication.any ReplicationConfig.enabled := by
      rw [Manager.replicationEnabled, Manager.replication, hsetup₂.2.2, Option.bind_some]
    split
    · rw [meets_bind, hregions]
      refine meets_replicateJob (fun hl => htest.trans (henabled hl)) hsetup₂ hconf₂ hid hsole
        hfound fun h w₃ w₄ hguar hachieved => hpost _ _ _ _ hguar fun id hid => ?_
      obtain rfl := Option.some.inj hid
      exact hachieved
    · rename_i hdisabled
      refine hpost _ _ _ _ (.refl w₂) fun id hid => ?_
      obtain rfl := Option.some.inj hid
      exact ⟨hsole, fun hl => absurd (htest.trans (henabled hl)) hdisabled⟩

end Methods

/-! ## Runs -/

/-- What a call has promised when it has settled. -/
def replicationPost (config : GlobalQueueConfig) (lossless : Prop) (l : Call)
    (_ : Transcript Thrown Reply) (w : Shared Manager Queues) (r : Except Thrown Result) : Prop :=
  ∀ name data opts id, l = .addJob name data opts → r = .ok (.jobId id) →
    Achieved config lossless id name data w.server

/-- The rules of the calls fit together in runs that meet them. -/
theorem replication_agreement {lossless : Prop}
    {C : World → PoolEvent Call Choice → Prop}
    (henabled : lossless → config.replication.any ReplicationConfig.enabled = true)
    (hcalls : ∀ w e, C w e → AddsAndFailovers e ∧ NumbersAlone config w e)
    (hlossless : lossless → ∀ w e, C w e → NoneFails e ∧ FindsAdded w e) :
    Agreement serve Call.method (fun _ => replicationRules config lossless)
      (replicationPost config lossless) C
      (fun w => Ready config w.memory) where
  spawn := by
    rintro w l hC ⟨hsetup, hprimary⟩
    have hcall := (hcalls _ _ hC).1
    cases l with
    | addJob name data options =>
      refine meets_bind.mpr (meets_addJob henabled hsetup hprimary fun h w₀ w' r hguar hdone => ?_)
      cases r with
      | error e => exact ⟨hguar, fun _ _ => fun _ _ _ _ _ h => by cases h⟩
      | ok id =>
        refine ⟨hguar, fun w'' hw'' => ?_⟩
        rintro _ _ _ _ ⟨⟩ ⟨⟩
        exact (hdone id rfl).of_keeps hw''
    | failoverTo region =>
      refine meets_bind.mpr (meets_failoverTo hsetup fun w₀ w' r hguar => ?_)
      cases r with
      | error e => exact ⟨hguar, fun _ _ => fun _ _ _ _ h => by cases h⟩
      | ok _ => exact ⟨hguar, fun _ _ => fun _ _ _ _ h => by cases h⟩
    | replicateJob | healthCheckTick | getReplicationStatus => exact hcall.elim
  executes := by
    intro w i v l h c k hC hI hi
    exact ⟨fun hl => (hlossless hl _ _ hC).1, fun hnil => (hcalls _ _ hC).2 _ hi hnil c rfl⟩
  resumes hC _ hi hl := (hlossless hl _ _ hC).2 _ hi
  relied _ _ _ _ hg _ _ _ _ := hg
  keeps hI hg := ⟨hI.1.of_same hg.setup, hg.primary hI.2⟩

/-- The job that a call of `addJob` has resolved with: its id, and the name and data of the call. -/
def returned? (t : Thread Thrown Manager Reply Call Result) : Option (String × String × Json) :=
  match t.label, t.stage with
  | .addJob name data _, .settled (.ok (.jobId id)) => some (id, name, data)
  | _, _ => none

/-- A call of `addJob` with this name and this data has resolved with the id. -/
def Returned (w : World) (id name : String) (data : Json) : Prop :=
  ∃ t ∈ w.threads, returned? t = some (id, name, data)

instance (w : World) (id name : String) (data : Json) : Decidable (Returned w id name data) :=
  inferInstanceAs (Decidable (∃ t ∈ w.threads, returned? t = some (id, name, data)))

section Runs

variable {C : World → PoolEvent Call Choice → Prop} {m : Manager} {qs : Queues}
  {es : List (PoolEvent Call Choice)} {w : World}

/-- What an addition that has resolved has achieved, in a manager that is still set up. -/
theorem achieved_of_run (lossless : Prop)
    (henabled : lossless → config.replication.any ReplicationConfig.enabled = true)
    (hcalls : ∀ w e, C w e → AddsAndFailovers e ∧ NumbersAlone config w e)
    (hlossless : lossless → ∀ w e, C w e → NoneFails e ∧ FindsAdded w e)
    (hm : initializeManager config = .ok m) (hC : system.StepsMeet C (World.init m qs) es)
    (hrun : system.runFrom (World.init m qs) es = some w) :
    SetUp config w.memory ∧ ∀ {id name data}, Returned w id name data →
      Achieved config lossless id name data w.server := by
  have hfollowed := (replication_agreement henabled hcalls hlossless).invariant
    (Agreement.followed_nil (ready_initializeManager hm)) hC hrun
  refine ⟨hfollowed.1.1, ?_⟩
  rintro id name data ⟨⟨l, heard, stage⟩, ht, hreturned⟩
  obtain ⟨i, hi⟩ := List.getElem?_of_mem ht
  unfold returned? at hreturned
  split at hreturned
  · rename_i name' data' opts id' hlabel hstage
    obtain rfl : l = _ := hlabel
    obtain rfl : stage = _ := hstage
    obtain ⟨rfl, rfl, rfl⟩ := by simpa using hreturned
    exact hfollowed.post_of_settled hi _ _ _ _ rfl rfl
  · cases hreturned

/-- **Once `addJob` has resolved, every configured region stores the job under its id**, in every
run of additions and failovers in which no call fails, a job is numbered as no other job is, and a
call finds its job in the primary region each time it looks. -/
theorem holds_of_run (hm : initializeManager config = .ok m)
    (henabled : config.replication.any ReplicationConfig.enabled = true)
    (hC : system.StepsMeet
      (fun w e => (AddsAndFailovers e ∧ NoneFails e) ∧ NumbersAlone config w e ∧ FindsAdded w e)
      (World.init m qs) es)
    (hrun : system.runFrom (World.init m qs) es = some w) {id name : String} {data : Json}
    (hreturned : Returned w id name data) {region : String}
    (hregion : region ∈ config.regionNames) :
    (w.server region).Holds id name data :=
  (achieved_of_run True (fun _ => henabled) (fun _ _ h => ⟨h.1.1, h.2.1⟩)
    (fun _ _ _ h => ⟨h.1.2, h.2.2⟩) hm hC hrun).2 hreturned |>.2 trivial region hregion

end Runs

/-- Regions A and B, A primary, with replication. -/
def twoRegions : GlobalQueueConfig where
  regions := [{ region := "A" }, { region := "B" }]
  replication := some { enabled := true }

/-- The fields after `initialize` with two regions. -/
def twoRegionsManager : Manager where
  queues := ["A", "B"]
  redisClients := ["A", "B"]
  config := some twoRegions
  primaryRegion := some "A"

/-- An addition to A, its copy to B, a failover to B, and an addition there. -/
def additionFailoverAddition : List (PoolEvent Call Choice) :=
  [.spawn (.addJob "render" .null {}), .exec 0 {}, .resume 0, .exec 0 {}, .resume 0, .exec 0 {},
    .resume 0, .spawn (.failoverTo "B"), .spawn (.addJob "encode" .null {}), .exec 2 {}, .resume 2,
    .exec 2 {}, .resume 2, .exec 2 {}, .resume 2]

/-- The second job gets a number of its own, since the copy advanced the counter of B. -/
theorem holds_additionFailoverAddition :
    ∃ w ∈ system.runFrom (World.init twoRegionsManager emptyQueues) additionFailoverAddition,
      Returned w "2" "encode" .null ∧ (w.server "A").Holds "2" "encode" .null := by
  obtain ⟨w, hrun, hreturned⟩ :
      ∃ w ∈ system.runFrom (World.init twoRegionsManager emptyQueues) additionFailoverAddition,
        Returned w "2" "encode" .null := by decide +kernel
  exact ⟨w, hrun, hreturned, @holds_of_run twoRegions _ _ _ _ rfl rfl (by decide +kernel) hrun
    _ _ _ hreturned _ (by decide)⟩

/-- A failover to B between an addition to A and its reading back. -/
def failoverBeforeReadBack : List (PoolEvent Call Choice) :=
  [.spawn (.addJob "render" .null {}), .exec 0 {}, .spawn (.failoverTo "B"), .resume 0, .exec 0 {},
    .resume 0]

/-- The job is not found in B, and is never copied there. -/
theorem not_holds_failoverBeforeReadBack :
    (∀ e ∈ failoverBeforeReadBack, AddsAndFailovers e ∧ NoneFails e) ∧
      ∃ w ∈ system.runFrom (World.init twoRegionsManager emptyQueues) failoverBeforeReadBack,
        Returned w "1" "render" .null ∧ ¬ (w.server "B").Holds "1" "render" .null := by
  decide +kernel

/-! ## The replication status -/

/-- What the loop finds, when it is alone and no call fails. -/
theorem run_statusLoop {id : String} {regions : List RegionConfig} {status : StatusMap}
    {w : Solo Thrown Manager Queues Choice Reply}
    (hregions : ∀ region ∈ regions, region.region ∈ w.memory.queues)
    (hanswers : ∀ k, (w.choices k).answer.IsAnswered) :
    ∃ w', ((statusLoop id regions status).alone serve).run w =
      (.ok fun region => if region ∈ regions.map RegionConfig.region then
          some (if ((w.server region).getJob id).isSome then .replicated else .pending)
        else status region, w') := by
  induction regions generalizing status w with
  | nil => exact ⟨w, rfl⟩
  | cons region regions ih =>
    have hregion := hregions region List.mem_cons_self
    have hanswer : (w.send serve (.getJob region.region id)).1 =
        .ok ((w.server region.region).getJob id) := by
      simp [Solo.send, serve, (hanswers 0).eq]
    have hserver : (w.send serve (.getJob region.region id)).2.server = w.server := by
      simp [Solo.send, serve, (hanswers 0).eq]
    obtain ⟨w', hrun⟩ := @ih
      (Function.update status region.region
        (some (if ((w.server region.region).getJob id).isSome then .replicated else .pending)))
      (w.send serve (.getJob region.region id)).2
      (fun region' h => hregions region' (List.mem_cons_of_mem _ h)) (fun k => hanswers (k + 1))
    refine ⟨w', ?_⟩
    rw [statusLoop, Coroutine.run_alone_read_bind, if_pos hregion, Coroutine.alone_bind,
      Async.run_bind, run_alone_ask, ← Prod.mk.eta (p := w.send serve _), hanswer]
    dsimp only
    rw [hrun, hserver]
    congr 2
    funext region'
    by_cases hr : region' = region.region
    · subst hr
      simp
    · simp [hr]

/-- What `getReplicationStatus`, run alone, reports of a region. -/
def reported (w : World) (choices : ℕ → Choice) (id region : String) : Option ReplicationStatus :=
  (((getReplicationStatus id).alone serve).run ⟨w.toShared, choices, []⟩).1.toOption.bind
    fun status => status region

theorem reported_eq {w : World} {choices : ℕ → Choice} (hsetup : SetUp config w.memory)
    (hanswers : ∀ k, (choices k).answer.IsAnswered) (id : String) {region : String}
    (hregion : region ∈ config.regionNames) :
    reported w choices id region =
      some (if ((w.server region).getJob id).isSome then .replicated else .pending) := by
  have hqueues : ∀ r ∈ config.regions, r.region ∈ w.memory.queues := fun r hr => by
    rw [hsetup.1]
    exact List.mem_map_of_mem hr
  obtain ⟨w', hloop⟩ := @run_statusLoop id config.regions (fun _ => none) ⟨w.toShared, choices, []⟩
    hqueues hanswers
  rw [reported, getReplicationStatus, Coroutine.alone_tryCatch, Async.run_tryCatch,
    Coroutine.run_alone_read_bind]
  simp only [id_eq, hsetup.2.2]
  rw [hloop]
  exact if_pos hregion

/-- The status of every id that an addition has resolved with tells which regions store the job that
was added. -/
def Truthful (config : GlobalQueueConfig) (w : World) (choices : ℕ → Choice) : Prop :=
  ∀ id name data, Returned w id name data → ∀ region ∈ config.regionNames,
    (reported w choices id region = some .replicated ↔ (w.server region).Holds id name data)

/-- **`getReplicationStatus` reports the regions that store the job as those that have it, and no
others**, after every run of additions and failovers, with any failing calls, in which a job is
numbered as no other job is. -/
theorem truthful_of_run {m : Manager} {qs : Queues} {es : List (PoolEvent Call Choice)} {w : World}
    (hm : initializeManager config = .ok m)
    (hC : system.StepsMeet (fun w e => AddsAndFailovers e ∧ NumbersAlone config w e)
      (World.init m qs) es)
    (hrun : system.runFrom (World.init m qs) es = some w) {choices : ℕ → Choice}
    (hanswers : ∀ k, (choices k).answer.IsAnswered) : Truthful config w choices := by
  intro id name data hreturned region hregion
  obtain ⟨hsetup, hachieved⟩ :=
    achieved_of_run False False.elim (fun _ _ h => h) (fun h => h.elim) hm hC hrun
  obtain ⟨hsole, -⟩ := hachieved hreturned
  rw [reported_eq hsetup hanswers id hregion, ← (hsole.1 region hregion).isSome_iff]
  cases (w.server region).getJob id <;> simp

/-- A region that does not take a job. -/
def notTaken : Choice where
  answer := .rejected (.value "connect ECONNREFUSED") false

/-- An addition to A whose copy to B fails. -/
def copyFails : List (PoolEvent Call Choice) :=
  [.spawn (.addJob "render" .null {}), .exec 0 {}, .resume 0, .exec 0 {}, .resume 0,
    .exec 0 notTaken, .resume 0]

theorem truthful_copyFails :
    ∃ w ∈ system.runFrom (World.init twoRegionsManager emptyQueues) copyFails,
      Returned w "1" "render" .null ∧ Truthful twoRegions w fun _ => {} := by
  obtain ⟨w, hrun, hreturned⟩ :
      ∃ w ∈ system.runFrom (World.init twoRegionsManager emptyQueues) copyFails,
        Returned w "1" "render" .null := by decide +kernel
  exact ⟨w, hrun, hreturned,
    @truthful_of_run twoRegions _ _ _ _ rfl (by decide +kernel) hrun _ fun _ => trivial⟩

/-- The same, then a failover to B and an addition there, which B numbers as A did its own. -/
def copyFailsThenAddition : List (PoolEvent Call Choice) :=
  copyFails ++ [.spawn (.failoverTo "B"), .spawn (.addJob "encode" .null {}), .exec 2 {}, .resume 2,
    .exec 2 {}, .resume 2, .exec 2 {}, .resume 2]

/-- The second job counts as replicated to A, where the first one is stored under its id. -/
theorem not_truthful_copyFailsThenAddition :
    (∀ e ∈ copyFailsThenAddition, AddsAndFailovers e) ∧
      ∃ w ∈ system.runFrom (World.init twoRegionsManager emptyQueues) copyFailsThenAddition,
        ¬ Truthful twoRegions w fun _ => {} := by
  refine ⟨by decide +kernel, ?_⟩
  obtain ⟨w, hrun, hreturned, hreported, hholds⟩ :
      ∃ w ∈ system.runFrom (World.init twoRegionsManager emptyQueues) copyFailsThenAddition,
        Returned w "1" "encode" .null ∧
          reported w (fun _ => {}) "1" "A" = some .replicated ∧
          ¬ (w.server "A").Holds "1" "encode" .null := by decide +kernel
  exact ⟨w, hrun, fun htruthful =>
    hholds ((htruthful "1" "encode" .null hreturned "A" (by decide)).mp hreported)⟩

end KitiumJobQueue.GlobalQueue
