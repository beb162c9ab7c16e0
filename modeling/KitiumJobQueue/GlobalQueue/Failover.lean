import KitiumJobQueue.Foundations.RelyGuarantee
import KitiumJobQueue.GlobalQueue.Manager

/-!
# Automatic failover

A health-check tick that finds its region unhealthy and primary pings all regions and moves the
primary to the best healthy one. Between the test of the primary and the move it waits for the
pings, and a tick that overtakes it there can move the primary first. The move then goes on from a
region nobody found unhealthy. `movesRightly_of_step` is the statement for the runs in which a
failover is carried out only while no other tick waits for the pings of its own (`FailsOverAlone`).

The proof is by rely and guarantee: while a tick waits for the pings of its failover it relies on
the primary not moving, which the condition makes true; at any other time it relies on nothing but
the fields that never change.
-/

namespace KitiumJobQueue.GlobalQueue

open Effects JavaScript

/-! ## What a tick found out -/

/-- A region was pinged and did not answer. -/
def FoundUnhealthy (heard : Transcript Thrown Reply) (region : String) : Prop :=
  ∃ e, ⟨.ping region, .error e⟩ ∈ heard

/-- All regions were pinged and this one answered. -/
def FoundHealthy (heard : Transcript Thrown Reply) (region : String) : Prop :=
  ∃ (regions : List String) (answers : List Bool),
    ⟨.pings regions, .ok answers⟩ ∈ heard ∧ (region, true) ∈ regions.zip answers

/-- The move of the primary that a step makes, if it makes one, is one of a tick of the old primary
that found it unhealthy, to a region it found healthy. -/
def MovesRightly (t : Thread Thrown Manager Reply Call Result) (m m' : Manager) : Prop :=
  m'.primaryRegion ≠ m.primaryRegion →
    ∃ old new, t.label = .healthCheckTick old ∧ m.primaryRegion = some old ∧
      FoundUnhealthy t.heard old ∧ m'.primaryRegion = some new ∧ FoundHealthy t.heard new

/-! ## Ticks and their failovers -/

/-- The regions that answered, if the newest answer is that to the pings of a failover. -/
def answeredRegions (heard : Transcript Thrown Reply) : List String :=
  match heard.head? with
  | some ⟨.pings regions, .ok answers⟩ => ((regions.zip answers).filter Prod.snd).map Prod.fst
  | _ => []

/-- The tick waits for the pings of its failover. -/
def failingOver (t : Thread Thrown Manager Reply Call Result) : Bool :=
  match t.stage.command? with
  | some (.pings _) => true
  | _ => false

/-- Ticks are the only calls, one region each of the configured ones. -/
def TicksOnly (config : GlobalQueueConfig) : PoolEvent Call Choice → Prop
  | .spawn l => ∃ region ∈ config.regionNames, l = .healthCheckTick region
  | .exec _ _ | .resume _ => True

/-- A tick whose failover has found a healthy region besides the primary is the only one in a
failover. -/
def FailsOverAlone (w : World) : PoolEvent Call Choice → Prop
  | .resume i =>
    (∃ t ∈ w.threads[i]?, ∃ region ∈ answeredRegions t.heard,
        w.memory.primaryRegion ≠ some region) →
      ∀ j < w.threads.length, j ≠ i → ∀ t ∈ w.threads[j]?, failingOver t = false
  | .spawn _ | .exec _ _ => True

instance (config : GlobalQueueConfig) : DecidablePred (TicksOnly config)
  | .spawn l =>
    inferInstanceAs (Decidable (∃ region ∈ config.regionNames, l = .healthCheckTick region))
  | .exec _ _ | .resume _ => .isTrue trivial

instance (w : World) : DecidablePred (FailsOverAlone w)
  | .resume i => inferInstanceAs (Decidable
      ((∃ t ∈ w.threads[i]?, ∃ region ∈ answeredRegions t.heard,
        w.memory.primaryRegion ≠ some region) →
      ∀ j < w.threads.length, j ≠ i → ∀ t ∈ w.threads[j]?, failingOver t = false))
  | .spawn _ | .exec _ _ => .isTrue trivial

/-! ## The rules of a tick -/

/-- What a tick may rely on: the setup never changes, and the primary does not move while the tick
waits for the pings of its failover. -/
def failoverRely (c : Option Command) (w w' : Shared Manager Queues) : Prop :=
  SameSetup w.memory w'.memory ∧
    ∀ regions, c = some (.pings regions) → w'.memory.primaryRegion = w.memory.primaryRegion

/-- What the step of a call does: the setup stays, and the primary moves only where the call is a
tick that has the answer to the pings of its failover, from the region it found unhealthy to one it
found healthy. -/
def failoverGuarantee (l : Call) (heard : Transcript Thrown Reply)
    (w w' : Shared Manager Queues) : Prop :=
  SameSetup w.memory w'.memory ∧
    (w'.memory.primaryRegion = w.memory.primaryRegion ∨
      ∃ region new, l = .healthCheckTick region ∧ w.memory.primaryRegion = some region ∧
        FoundUnhealthy heard region ∧ new ∈ answeredRegions heard ∧
        w'.memory.primaryRegion = some new ∧ region ≠ new)

/-- The rules of a call. -/
def failoverRules (l : Call) : Rules Thrown Manager Queues Choice Reply where
  rely := failoverRely
  executes _ _ _ _ := True
  resumes _ _ := True
  guarantee := failoverGuarantee l
  rely_refl _ w := ⟨.refl w.memory, fun _ _ => rfl⟩
  rely_trans h h' := ⟨h.1.trans h'.1, fun regions hc => (h'.2 regions hc).trans (h.2 regions hc)⟩

/-- A step that leaves the fields alone keeps the guarantee. -/
theorem failoverGuarantee_of_eq {l : Call} {heard : Transcript Thrown Reply}
    {w w' : Shared Manager Queues} (h : w'.memory = w.memory) :
    failoverGuarantee l heard w w' := by
  rw [failoverGuarantee, h]
  exact ⟨.refl _, .inl rfl⟩

/-! ## A tick follows its rules -/

theorem newPrimary_eq_some {healths : List RegionHealth} {primaryRegion : Option String}
    {r : RegionHealth} (h : newPrimary healths primaryRegion = some r) :
    r ∈ healths ∧ r.healthy = true ∧ primaryRegion ≠ some r.region := by
  have hmem := List.mem_of_head? h
  rw [List.mem_insertionSort, List.mem_filter] at hmem
  simpa using hmem

theorem meets_isRegionHealthy {region : String} {post : Post Thrown Manager Queues Reply Bool}
    {heard : Transcript Thrown Reply} {w₀ w : Shared Manager Queues}
    (hguar : failoverGuarantee (.healthCheckTick region) heard w₀ w)
    (hclient : region ∈ w.memory.redisClients)
    (hpost : ∀ w' r, SameSetup w.memory w'.memory →
      post (⟨.ping region, r⟩ :: heard) w' w' (.ok (match r with
        | .ok _ => true
        | .error _ => false))) :
    Meets serve (failoverRules (.healthCheckTick region)) post (isRegionHealthy region) heard
      w₀ w := by
  unfold isRegionHealthy
  rw [meets_tryCatch, meets_read_bind, if_pos hclient, meets_bind]
  refine meets_await.mpr ⟨hguar, fun w₁ hw₁ v _ =>
    ⟨failoverGuarantee_of_eq rfl, fun w₂ hw₂ _ => ?_⟩⟩
  have hsame : SameSetup w.memory w₂.memory := hw₁.1.trans hw₂.1
  have := hpost w₂ (serve v (.ping region) w₁.server).1 hsame
  cases hr : (serve v (.ping region) w₁.server).1 with
  | ok r => simpa [hr] using this
  | error e => simpa [hr] using this

/-- A region reported healthy is one whose ping was answered. -/
theorem mem_answered_of_healthy {redisClients : List String} {regions : List RegionConfig}
    {answers : List Bool} {r : RegionHealth}
    (h : r ∈ regions.zipWith
      (fun region answer =>
        { region := region.region
          priority := region.priority.getD 999
          healthy := region.region ∈ redisClients && answer })
      answers) (hr : r.healthy = true) :
    (r.region, true) ∈ (regions.map RegionConfig.region).zip answers := by
  induction regions generalizing answers with
  | nil => simp at h
  | cons region regions ih =>
    cases answers with
    | nil => simp at h
    | cons answer answers =>
      rw [List.zipWith_cons_cons, List.mem_cons] at h
      rcases h with rfl | h
      · have : answer = true := by simp at hr; exact hr.2
        simp [this]
      · exact List.mem_cons_of_mem _ (ih h)

/-- A failover begun by a tick that found its region unhealthy and primary. -/
theorem meets_handleFailover {config : GlobalQueueConfig} {region : String}
    {post : Post Thrown Manager Queues Reply Unit} {heard : Transcript Thrown Reply}
    {w : Shared Manager Queues} (hsetup : SetUp config w.memory)
    (hprimary : w.memory.primaryRegion = some region) (hfound : FoundUnhealthy heard region)
    (hpost : ∀ heard w₀ w, failoverGuarantee (.healthCheckTick region) heard w₀ w →
      post heard w₀ w (.ok ())) :
    Meets serve (failoverRules (.healthCheckTick region)) post handleFailover heard w w := by
  unfold handleFailover
  rw [meets_tryCatch, meets_read_bind]
  simp only [id_eq, hsetup.2.2]
  rw [meets_bind, regionHealths, meets_read_bind, meets_bind]
  refine meets_await.mpr ⟨failoverGuarantee_of_eq rfl, fun w₁ hw₁ v _ =>
    ⟨failoverGuarantee_of_eq rfl, fun w₂ hw₂ _ => ?_⟩⟩
  have hprimary₂ : w₂.memory.primaryRegion = some region :=
    ((hw₂.2 _ rfl).trans (hw₁.2 _ rfl)).trans hprimary
  obtain ⟨answers, hanswers⟩ : ∃ answers, (serve v
      (.pings (config.regions.map RegionConfig.region)) w₁.server).1 = .ok answers := ⟨_, rfl⟩
  rw [hanswers]
  simp only [meets_pure]
  rw [meets_read_bind, hprimary₂]
  cases hnew : newPrimary (config.regions.zipWith (fun region answer =>
      { region := region.region
        priority := region.priority.getD 999
        healthy := region.region ∈ w.memory.redisClients && answer }) answers) (some region) with
  | none => exact hpost _ _ _ (failoverGuarantee_of_eq rfl)
  | some r =>
    obtain ⟨hmem, hhealthy, hne⟩ := newPrimary_eq_some hnew
    dsimp only
    rw [failoverTo, meets_read_bind]
    split
    · refine hpost _ _ _ ⟨⟨rfl, rfl, rfl⟩,
        .inr ⟨region, r.region, rfl, hprimary₂, ?_, ?_, rfl, ?_⟩⟩
      · obtain ⟨e, he⟩ := hfound
        exact ⟨e, List.mem_cons_of_mem _ he⟩
      · have := mem_answered_of_healthy hmem hhealthy
        simp only [answeredRegions, List.head?_cons, List.mem_map, List.mem_filter]
        exact ⟨_, ⟨this, rfl⟩, rfl⟩
      · simpa using hne
    · exact hpost _ _ _ (failoverGuarantee_of_eq rfl)

theorem meets_healthCheckTick {config : GlobalQueueConfig} {region : String}
    {post : Post Thrown Manager Queues Reply Unit} {w : Shared Manager Queues}
    (hsetup : SetUp config w.memory) (hregion : region ∈ config.regionNames)
    (hpost : ∀ heard w₀ w, failoverGuarantee (.healthCheckTick region) heard w₀ w →
      post heard w₀ w (.ok ())) :
    Meets serve (failoverRules (.healthCheckTick region)) post (healthCheckTick region) [] w w := by
  unfold healthCheckTick
  rw [meets_bind]
  refine meets_isRegionHealthy (failoverGuarantee_of_eq rfl) (by rwa [hsetup.2.1])
    fun w' r hsame => ?_
  have hsetup' : SetUp config w'.memory := hsetup.of_same hsame
  cases r with
  | ok r => exact hpost _ _ _ (failoverGuarantee_of_eq rfl)
  | error e =>
    dsimp only
    rw [if_neg (by simp), meets_read_bind]
    split
    · rename_i htest
      simp only [id_eq, Bool.and_eq_true, decide_eq_true_eq] at htest
      exact meets_handleFailover hsetup' htest.2 ⟨e, List.mem_cons_self⟩ hpost
    · exact hpost _ _ _ (failoverGuarantee_of_eq rfl)

/-! ## Runs -/

theorem mem_answeredRegions {heard : Transcript Thrown Reply} {region : String}
    (h : region ∈ answeredRegions heard) : FoundHealthy heard region := by
  unfold answeredRegions at h
  split at h
  · rename_i regions answers hhead
    obtain ⟨⟨region', ok⟩, hmem, rfl⟩ := List.mem_map.mp h
    obtain ⟨hzip, hok⟩ := List.mem_filter.mp hmem
    obtain rfl : ok = true := hok
    exact ⟨regions, answers, List.mem_of_head? hhead, hzip⟩
  · simp at h

/-- The rules of the ticks fit together where failovers are carried out alone. -/
theorem failover_agreement (config : GlobalQueueConfig) :
    Agreement serve Call.method failoverRules (fun _ _ _ _ => True)
      (fun w e => TicksOnly config e ∧ FailsOverAlone w e) (fun w => SetUp config w.memory) where
  spawn := by
    rintro w l ⟨⟨region, hregion, rfl⟩, -⟩ hsetup
    exact meets_bind.mpr (meets_healthCheckTick hsetup hregion
      fun _ _ _ hg => ⟨hg, fun _ _ => trivial⟩)
  executes _ _ _ := trivial
  resumes _ _ _ := trivial
  keeps hI hg := hI.of_same hg.1
  relied := by
    rintro w e w' t ⟨-, halone⟩ hsetup hstep ht ⟨hsame, hmove⟩ j t' hj ht'
    refine ⟨hsame, fun regions hwaits => ?_⟩
    rcases hmove with hstays | ⟨region, new, -, hprimary, -, hnew, hmoved, hne⟩
    · exact hstays
    · cases e with
      | spawn l =>
        obtain rfl := Option.some.inj hstep
        simp [PoolEvent.actor, Pool.spawn] at ht
        subst ht
        simp [answeredRegions] at hnew
      | exec i v =>
        obtain ⟨l, heard, c, k, -, rfl⟩ := Pool.exec_eq_some hstep
        rfl
      | resume i =>
        obtain ⟨l, heard, c, r, k, hi, rfl⟩ := Pool.resume_eq_some hstep
        have hlt : i < w.threads.length := (List.getElem?_eq_some_iff.mp hi).1
        simp [PoolEvent.actor, hlt] at ht
        subst ht
        have hother := halone ⟨_, hi, new, hnew, by simpa [hprimary] using hne⟩ j
          (List.getElem?_eq_some_iff.mp ht').1 hj t' ht'
        simp [failingOver, hwaits] at hother

/-- **The primary moves only from a region that the tick moving it found unhealthy, while it is
still the primary, to one it found healthy**, in every run of ticks in which a failover is carried
out only while no other tick is in one. -/
theorem movesRightly_of_step {config : GlobalQueueConfig} {m : Manager} {qs : Queues}
    {es : List (PoolEvent Call Choice)} {e : PoolEvent Call Choice} {w w' : World}
    (hm : initializeManager config = .ok m)
    (hC : system.StepsMeet (fun w e => TicksOnly config e ∧ FailsOverAlone w e)
      (World.init m qs) (es ++ [e]))
    (hrun : system.runFrom (World.init m qs) es = some w) (hstep : system.step w e = some w') :
    ∃ t, w'.threads[e.actor w]? = some t ∧ MovesRightly t w.memory w'.memory := by
  have hsetup : SetUp config (World.init m qs).memory := setUp_initializeManager hm
  obtain ⟨t, ht, -, hmove⟩ := (failover_agreement config).guarantee
    (Agreement.followed_nil hsetup) hC hrun hstep
  refine ⟨t, ht, fun hmoved => ?_⟩
  rcases hmove with hstays | ⟨region, new, hlabel, hprimary, hfound, hnew, hmoved, -⟩
  · exact absurd hstays hmoved
  · exact ⟨region, new, hlabel, hprimary, hfound, hmoved, mem_answeredRegions hnew⟩

/-- Regions A, B and C, A primary, with automatic failover. -/
def threeRegions : GlobalQueueConfig where
  regions := [{ region := "A" }, { region := "B" }, { region := "C" }]
  failover := some { enabled := true }

/-- A region that does not answer. -/
def noAnswer : Choice where
  answer := .rejected (.value "connect ECONNREFUSED") false
  healthy k := k ≠ 0

/-- The fields after `initialize` with three regions. -/
def threeRegionsManager : Manager where
  queues := ["A", "B", "C"]
  redisClients := ["A", "B", "C"]
  config := some threeRegions
  primaryRegion := some "A"

/-- One tick of A, up to the answer to the pings of its failover. -/
def oneTick : List (PoolEvent Call Choice) :=
  [.spawn (.healthCheckTick "A"), .exec 0 noAnswer, .resume 0, .exec 0 noAnswer]

/-- One tick moves the primary from A, which does not answer, to B, which does. -/
theorem movesRightly_oneTick :
    ∃ w ∈ system.runFrom (World.init threeRegionsManager emptyQueues) oneTick,
      ∃ w' ∈ system.step w (.resume 0), w'.memory.primaryRegion = some "B" ∧
        ∃ t, w'.threads[0]? = some t ∧ MovesRightly t w.memory w'.memory := by
  obtain ⟨w, hrun, w', hstep, hprimary⟩ :
      ∃ w ∈ system.runFrom (World.init threeRegionsManager emptyQueues) oneTick,
        ∃ w' ∈ system.step w (.resume 0), w'.memory.primaryRegion = some "B" := by decide +kernel
  exact ⟨w, hrun, w', hstep, hprimary,
    @movesRightly_of_step threeRegions _ _ _ _ _ _ rfl (by decide +kernel) hrun hstep⟩

/-- Two ticks of A, up to the answers to the pings of their failovers, and the move of the first. -/
def twoTicks : List (PoolEvent Call Choice) :=
  [.spawn (.healthCheckTick "A"), .spawn (.healthCheckTick "A"), .exec 0 noAnswer, .exec 1 noAnswer,
    .resume 0, .resume 1, .exec 0 noAnswer, .exec 1 noAnswer, .resume 0]

/-- The second tick of A moves the primary on from B, which answers, to C. -/
theorem not_movesRightly_twoTicks :
    ∃ w ∈ system.runFrom (World.init threeRegionsManager emptyQueues) twoTicks,
      ∃ w' ∈ system.step w (.resume 1), w.memory.primaryRegion = some "B" ∧
        w'.memory.primaryRegion = some "C" ∧
        ¬ ∃ t, w'.threads[1]? = some t ∧ MovesRightly t w.memory w'.memory := by
  obtain ⟨w, hrun, w', hstep, hB, hC, hticks⟩ :
      ∃ w ∈ system.runFrom (World.init threeRegionsManager emptyQueues) twoTicks,
        ∃ w' ∈ system.step w (.resume 1), w.memory.primaryRegion = some "B" ∧
          w'.memory.primaryRegion = some "C" ∧
          ∀ t ∈ w'.threads, t.label = .healthCheckTick "A" := by decide +kernel
  refine ⟨w, hrun, w', hstep, hB, hC, fun ⟨t, ht, hmoves⟩ => ?_⟩
  obtain ⟨old, new, hlabel, hold, -⟩ := hmoves (by simp [hB, hC])
  have hA := hticks t (List.mem_of_getElem? ht)
  rw [hlabel] at hA
  rw [hB] at hold
  cases hA
  simp at hold

end KitiumJobQueue.GlobalQueue
