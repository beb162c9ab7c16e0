import KitiumJobQueue.GlobalQueue.Regions

/-!
# Failing copies

What an addition does when calls to the regions fail. In 'async' mode the error of a copy is
swallowed and the loop goes on to the next region. In 'sync' mode it is thrown again, which ends the
loop, and then caught in `replicateJob`, so `addJob` resolves all the same. Either way the caller of
`addJob` learns nothing of it (`run_replicateJob`), and in 'sync' mode the regions after the failing
one get no copy. `reliable_iff` says for which failures a call keeps what the mode promises.
-/

namespace KitiumJobQueue.GlobalQueue

open Bull Effects JavaScript

variable {config : GlobalQueueConfig}

/-! ## The copies of a call -/

/-- The region a command adds a job to, and whether it took the job. -/
def addition? : (Σ c, Except Thrown (Reply c)) → Option (String × Bool)
  | ⟨.add region _ _ _, r⟩ => some (region, r.isOk)
  | ⟨.getJob _ _, _⟩ | ⟨.ping _, _⟩ | ⟨.pings _, _⟩ | ⟨.timer _, _⟩ => none

/-- The additions a call has asked for, in their order. -/
def additions (heard : Transcript Thrown Reply) : List (String × Bool) :=
  (heard.filterMap addition?).reverse

@[simp] theorem additions_nil : additions [] = [] := rfl

theorem additions_cons (x : Σ c, Except Thrown (Reply c)) (heard : Transcript Thrown Reply) :
    additions (x :: heard) = additions heard ++ (addition? x).toList := by
  cases h : addition? x <;> simp [additions, h]

/-- The copies a call of `addJob` has asked for: its first addition is that of the job itself. -/
def copies (heard : Transcript Thrown Reply) : List (String × Bool) := (additions heard).tail

/-- The regions that are to get a copy. -/
def otherRegions (m : Manager) : List String :=
  (m.regionNames.getD []).filter fun region => m.primaryRegion ≠ some region

/-- What the modes promise of an addition. In 'sync' mode it resolves only if every other region has
taken its copy. In both modes all copies are asked for, also when one of them is not taken. -/
def Reliable (m : Manager) (result : Except Thrown String) (copies : List (String × Bool)) : Prop :=
  (m.replicationMode = .sync →
    copies = (otherRegions m).map (·, true) ∨ ∃ e, result = .error e) ∧
  ((∃ copy ∈ copies, copy.2 = false) → copies.map Prod.fst = otherRegions m)

/-! ## One copy -/

section Copy

variable {w : Solo Thrown Manager Queues Choice Reply} {id name region : String} {data : Json}
  {opts : JobsOptions}

theorem send_add_of_answered (h : (w.choices 0).answer.IsAnswered) :
    ∃ w', w.send serve (.add region name data opts) =
        (.ok ((w.server region).add name data opts (w.choices 0).now).1, w') ∧
      w'.memory = w.memory ∧
      w'.server = Function.update w.server region
        ((w.server region).add name data opts (w.choices 0).now).2 ∧
      w'.choices = (fun k => w.choices (k + 1)) ∧
      additions w'.heard = additions w.heard ++ [(region, true)] := by
  refine ⟨(w.send serve (.add region name data opts)).2, Prod.ext ?_ rfl, rfl, ?_, rfl, ?_⟩
  · simp [Solo.send, serve, h.eq]
  · simp [Solo.send, serve, h.eq]
  · simp [Solo.send, serve, h.eq, additions_cons, addition?, Except.isOk, Except.toBool]

theorem send_add_of_rejected (h : ¬ (w.choices 0).answer.IsAnswered) :
    ∃ e w', w.send serve (.add region name data opts) = (.error e, w') ∧
      w'.memory = w.memory ∧ w'.choices = (fun k => w.choices (k + 1)) ∧
      additions w'.heard = additions w.heard ++ [(region, false)] := by
  cases ha : (w.choices 0).answer with
  | answered => exact absurd (ha ▸ trivial) h
  | rejected e applied =>
    refine ⟨e, (w.send serve (.add region name data opts)).2, Prod.ext ?_ rfl, rfl, rfl, ?_⟩
    · simp [Solo.send, serve, ha]
    · simp [Solo.send, serve, ha, additions_cons, addition?, Except.isOk, Except.toBool]

/-- In 'async' mode a copy never rejects. -/
theorem run_copy_async (hregion : region ∈ w.memory.queues) :
    ∃ w' taken, ((replicateJobToRegion id name data .async region).alone serve).run w =
        (.ok (), w') ∧
      w'.memory = w.memory ∧ additions w'.heard = additions w.heard ++ [(region, taken)] := by
  rw [replicateJobToRegion, Coroutine.run_alone_read_bind, if_pos hregion,
    Coroutine.alone_tryCatch, Coroutine.alone_bind]
  by_cases h : (w.choices 0).answer.IsAnswered
  · obtain ⟨w', hsend, hmemory, -, -, hadditions⟩ := send_add_of_answered h
    refine ⟨w', true, Async.run_tryCatch_of_ok ?_, hmemory, hadditions⟩
    exact Async.run_bind_of_ok ((run_alone_ask _ w).trans hsend)
  · obtain ⟨e, w', hsend, hmemory, -, hadditions⟩ := send_add_of_rejected h
    refine ⟨w', false, ?_, hmemory, hadditions⟩
    exact Async.run_tryCatch_of_error
      (Async.run_bind_of_error ((run_alone_ask _ w).trans hsend))

/-- In 'sync' mode a copy that is taken waits, and one that is not rejects. -/
theorem run_copy_sync (hregion : region ∈ w.memory.queues) :
    ∃ r w', ((replicateJobToRegion id name data .sync region).alone serve).run w = (r, w') ∧
      w'.memory = w.memory ∧
      if (w.choices 0).answer.IsAnswered then
        r = .ok () ∧ w'.choices = (fun k => w.choices (k + 2)) ∧
          additions w'.heard = additions w.heard ++ [(region, true)]
      else
        (∃ e, r = .error e) ∧ additions w'.heard = additions w.heard ++ [(region, false)] := by
  rw [replicateJobToRegion, Coroutine.run_alone_read_bind, if_pos hregion,
    Coroutine.alone_tryCatch, Coroutine.alone_bind]
  by_cases h : (w.choices 0).answer.IsAnswered
  · obtain ⟨w', hsend, hmemory, -, hchoices, hadditions⟩ := send_add_of_answered h
    have hwait := (run_alone_ask (.timer w'.memory.syncTimeoutMs) w')
    refine ⟨.ok (), (w'.send serve (.timer w'.memory.syncTimeoutMs)).2,
      Async.run_tryCatch_of_ok ?_, hmemory, ?_⟩
    · rw [Async.run_bind_of_ok ((run_alone_ask _ w).trans hsend), if_pos rfl,
        Coroutine.run_alone_read_bind, hwait]
      rfl
    · rw [if_pos h]
      refine ⟨rfl, ?_, ?_⟩
      · simp only [Solo.send, hchoices]
      · rw [← hadditions]
        simp [Solo.send, additions_cons, addition?]
  · obtain ⟨e, w', hsend, hmemory, -, hadditions⟩ := send_add_of_rejected h
    refine ⟨.error e, w', ?_, hmemory, ?_⟩
    · rw [Async.run_tryCatch_of_error
        (Async.run_bind_of_error ((run_alone_ask _ w).trans hsend)), if_pos rfl]
      rfl
    · rw [if_neg h]
      exact ⟨⟨e, rfl⟩, hadditions⟩

end Copy

/-! ## The loop -/

section Loop

variable {id name : String} {data : Json} {targets : List String}
  {w : Solo Thrown Manager Queues Choice Reply}

/-- In 'async' mode all copies are asked for. -/
theorem run_copies_async (hqueues : ∀ region ∈ targets, region ∈ w.memory.queues) :
    ∃ w' made, ((Coroutine.forEach (replicateJobToRegion id name data .async) targets).alone
        serve).run w = (.ok (), w') ∧
      additions w'.heard = additions w.heard ++ made ∧ made.map Prod.fst = targets := by
  induction targets generalizing w with
  | nil => exact ⟨w, [], rfl, (List.append_nil _).symm, rfl⟩
  | cons region targets ih =>
    obtain ⟨w₁, taken, hcopy, hmemory, hadditions⟩ :=
      @run_copy_async w id name region data (hqueues region List.mem_cons_self)
    obtain ⟨w', made, hloop, hmade, hall⟩ := @ih w₁ fun region' h => by
      rw [hmemory]
      exact hqueues region' (List.mem_cons_of_mem _ h)
    refine ⟨w', (region, taken) :: made, ?_, ?_, ?_⟩
    · rw [Coroutine.forEach, Coroutine.alone_bind, Async.run_bind_of_ok hcopy, hloop]
    · rw [hmade, hadditions, List.append_assoc, List.singleton_append]
    · rw [List.map_cons, hall]

/-- In 'sync' mode all copies are taken exactly if every other call of the loop's is answered: after
each copy it waits. -/
theorem run_copies_sync (hqueues : ∀ region ∈ targets, region ∈ w.memory.queues) :
    ∃ r w' made, ((Coroutine.forEach (replicateJobToRegion id name data .sync) targets).alone
        serve).run w = (r, w') ∧
      additions w'.heard = additions w.heard ++ made ∧
      (made = targets.map (·, true) ↔
        ∀ i < targets.length, (w.choices (2 * i)).answer.IsAnswered) := by
  induction targets generalizing w with
  | nil => exact ⟨.ok (), w, [], rfl, (List.append_nil _).symm, by simp⟩
  | cons region targets ih =>
    obtain ⟨r, w₁, hcopy, hmemory, hresult⟩ :=
      @run_copy_sync w id name region data (hqueues region List.mem_cons_self)
    rw [Coroutine.forEach, Coroutine.alone_bind]
    by_cases h : (w.choices 0).answer.IsAnswered
    · rw [if_pos h] at hresult
      obtain ⟨rfl, hchoices, hadditions⟩ := hresult
      obtain ⟨r', w', made, hloop, hmade, hall⟩ := @ih w₁ fun region' h => by
        rw [hmemory]
        exact hqueues region' (List.mem_cons_of_mem _ h)
      refine ⟨r', w', (region, true) :: made, ?_, ?_, ?_⟩
      · rw [Async.run_bind_of_ok hcopy, hloop]
      · rw [hmade, hadditions, List.append_assoc, List.singleton_append]
      · rw [List.map_cons, List.cons_eq_cons, hall, hchoices, List.length_cons]
        refine ⟨fun hrest i hi => ?_, fun hrest => ⟨rfl, fun i hi => hrest (i + 1) (by omega)⟩⟩
        cases i with
        | zero => exact h
        | succ i => exact hrest.2 i (by omega)
    · rw [if_neg h] at hresult
      obtain ⟨⟨e, rfl⟩, hadditions⟩ := hresult
      refine ⟨.error e, w₁, [(region, false)], Async.run_bind_of_error hcopy, hadditions, ?_⟩
      simp only [List.map_cons, List.cons_eq_cons, Prod.mk.injEq]
      exact ⟨fun hfalse => by simp at hfalse, fun hrest => absurd (hrest 0 (by simp)) h⟩

end Loop

/-! ## The addition -/

section Addition

variable {w : Solo Thrown Manager Queues Choice Reply} {id name : String} {data : Json}
  {opts : JobsOptions}

/-- What the copies `made` come to, when the choices are about the loop's calls: in 'async' mode all
are asked for, in 'sync' mode all are taken exactly if every other call is answered. -/
def Made (m : Manager) (choices : ℕ → Choice) (made : List (String × Bool)) : Prop :=
  match m.replicationMode with
  | .async => made.map Prod.fst = otherRegions m
  | .sync => made = (otherRegions m).map (·, true) ↔
      ∀ i < (otherRegions m).length, (choices (2 * i)).answer.IsAnswered

theorem otherRegions_eq (hready : Ready config w.memory) :
    otherRegions w.memory =
      config.regionNames.filter fun region => w.memory.primaryRegion ≠ some region := by
  rw [otherRegions, Manager.regionNames, hready.1.2.2, Option.map_some, Option.getD_some]

theorem run_replicateTo (hready : Ready config w.memory) (job : Job) :
    ∃ r w' made, ((replicateTo id job config.regionNames).alone serve).run w = (r, w') ∧
      additions w'.heard = additions w.heard ++ made ∧ Made w.memory w.choices made := by
  have hqueues : ∀ region ∈ otherRegions w.memory, region ∈ w.memory.queues := by
    rw [otherRegions_eq hready, hready.1.1]
    exact fun region h => (List.mem_filter.mp h).1
  rw [replicateTo, Coroutine.run_alone_read_bind]
  dsimp only [id_eq]
  rw [← otherRegions_eq hready]
  cases hmode : w.memory.replicationMode with
  | async =>
    obtain ⟨w', made, hloop, hmade, hall⟩ := run_copies_async hqueues
    exact ⟨_, w', made, hloop, hmade, by simpa only [Made, hmode] using hall⟩
  | sync =>
    obtain ⟨r, w', made, hloop, hmade, hall⟩ := run_copies_sync hqueues
    exact ⟨r, w', made, hloop, hmade, by simpa only [Made, hmode] using hall⟩

/-- The replication of a job that the primary region stores resolves, whatever fails. -/
theorem run_replicateJob (hready : Ready config w.memory)
    (henabled : w.memory.replicationEnabled = true)
    (hjob : ∀ region ∈ w.memory.primaryRegion, ((w.server region).getJob id).isSome) :
    ∃ w' made, ((replicateJob id (some config.regionNames)).alone serve).run w = (.ok (), w') ∧
      additions w'.heard = additions w.heard ++ made ∧
      if (w.choices 0).answer.IsAnswered then Made w.memory (fun k => w.choices (k + 1)) made
      else made = [] := by
  obtain ⟨primary, hconf, hp⟩ := hready.2
  have hname : w.memory.primaryRegion.getD "" = primary := by rw [hp, Option.getD_some]
  have htest : (w.memory.replicationEnabled && decide (config.regionNames ≠ [])) = true := by
    simpa [henabled] using List.ne_nil_of_mem hconf
  obtain ⟨job, hjob⟩ := Option.isSome_iff_exists.mp (hjob primary hp)
  rw [replicateJob, Coroutine.alone_tryCatch, Async.run_tryCatch, Coroutine.run_alone_read_bind]
  dsimp only [id_eq, Option.getD_some]
  rw [if_pos htest, Coroutine.alone_bind, Async.run_bind, getPrimaryJob,
    Coroutine.run_alone_read_bind]
  dsimp only [id_eq]
  rw [hname, if_pos (by rwa [hready.1.1]), run_alone_ask]
  cases hans : (w.choices 0).answer with
  | answered =>
    have hsend : w.send serve (.getJob primary id) = (.ok (some job), _) :=
      Prod.ext (by simp [Solo.send, serve, hans, hjob]) rfl
    obtain ⟨r, w', made, hrun, hmade, hall⟩ :=
      @run_replicateTo config (w.send serve (.getJob primary id)).2 id hready job
    rw [hsend]
    dsimp only
    rw [hrun]
    refine ⟨w', made, ?_, ?_, ?_⟩
    · cases r <;> rfl
    · rw [hmade]
      simp [Solo.send, additions_cons, addition?]
    · rwa [if_pos (show (Answer.answered (ε := Thrown)).IsAnswered from trivial)]
  | rejected e applied =>
    have hsend : w.send serve (.getJob primary id) = (.error e, _) :=
      Prod.ext (by simp [Solo.send, serve, hans]) rfl
    rw [hsend]
    refine ⟨_, [], rfl, ?_, ?_⟩
    · simp [Solo.send, additions_cons, addition?]
    · rw [if_neg (show ¬ (Answer.rejected e applied).IsAnswered from fun h => h)]

/-- An addition rejects exactly if the primary region does not answer, and asks for copies
otherwise. -/
theorem run_addJob (hready : Ready config w.memory) (hheard : w.heard = [])
    (henabled : w.memory.replicationEnabled = true) :
    ∃ r w', ((addJob name data opts).alone serve).run w = (r, w') ∧
      if (w.choices 0).answer.IsAnswered then
        (∃ id, r = .ok id) ∧
          if (w.choices 1).answer.IsAnswered then
            Made w.memory (fun k => w.choices (k + 2)) (copies w'.heard)
          else copies w'.heard = []
      else (∃ e, r = .error e) ∧ copies w'.heard = [] := by
  obtain ⟨primary, hconf, hp⟩ := hready.2
  have hname : w.memory.primaryRegion.getD "" = primary := by rw [hp, Option.getD_some]
  rw [addJob, Coroutine.run_alone_read_bind]
  dsimp only [id_eq]
  rw [hname, if_pos (by rwa [hready.1.1]), Coroutine.alone_bind]
  by_cases h : (w.choices 0).answer.IsAnswered
  · obtain ⟨w₁, hsend, hmemory, hserver, hchoices, hadditions⟩ :=
      @send_add_of_answered w name primary data opts h
    rw [Async.run_bind_of_ok ((run_alone_ask _ w).trans hsend), Coroutine.run_alone_read_bind]
    dsimp only [id_eq]
    have hregions : w₁.memory.regionNames = some config.regionNames := by
      rw [hmemory, Manager.regionNames, hready.1.2.2, Option.map_some]
    have hjob : ∀ region ∈ w₁.memory.primaryRegion, ((w₁.server region).getJob
        ((w.server primary).add name data opts (w.choices 0).now).1.id).isSome := by
      intro region hregion
      rw [hmemory, hp] at hregion
      obtain rfl := Option.some.inj hregion
      rw [hserver, Function.update_self, Queue.getJob_add, if_pos rfl]
      rfl
    obtain ⟨w', made, hrun, hmade, hall⟩ :=
      @run_replicateJob config w₁ _ (hmemory ▸ hready) (hmemory ▸ henabled) hjob
    rw [if_pos (hmemory ▸ henabled), Coroutine.alone_bind, hregions,
      Async.run_bind_of_ok hrun]
    have hcopies : copies w'.heard = made := by
      rw [copies, hmade, hadditions, hheard]
      rfl
    refine ⟨_, _, rfl, ?_⟩
    rw [if_pos h]
    refine ⟨⟨_, rfl⟩, ?_⟩
    rw [hmemory, hchoices] at hall
    show if _ then Made _ _ (copies w'.heard) else copies w'.heard = []
    rw [hcopies]
    exact hall
  · obtain ⟨e, w₁, hsend, -, -, hadditions⟩ := @send_add_of_rejected w name primary data opts h
    refine ⟨_, _, Async.run_bind_of_error ((run_alone_ask _ w).trans hsend), ?_⟩
    rw [if_neg h]
    refine ⟨⟨e, rfl⟩, ?_⟩
    rw [copies, hadditions, hheard]
    rfl

end Addition

/-- Every other call after the first two is answered, as many times as there are other regions. -/
def EveryCopyAnswered (m : Manager) (choices : ℕ → Choice) : Prop :=
  (choices 1).answer.IsAnswered ∧
    ∀ i < (otherRegions m).length, (choices (2 * i + 2)).answer.IsAnswered

theorem reliable_ok_sync {m : Manager} (hmode : m.replicationMode = .sync) (id : String)
    (made : List (String × Bool)) :
    Reliable m (.ok id) made ↔ made = (otherRegions m).map (·, true) := by
  constructor
  · rintro ⟨htaken, -⟩
    rcases htaken hmode with h | ⟨e, h⟩
    · exact h
    · cases h
  · rintro rfl
    refine ⟨fun _ => .inl rfl, fun ⟨copy, hmem, hfalse⟩ => ?_⟩
    obtain ⟨region, -, rfl⟩ := List.mem_map.mp hmem
    cases hfalse

theorem reliable_of_async {m : Manager} (hmode : m.replicationMode = .async)
    (result : Except Thrown String) {made : List (String × Bool)}
    (h : made = [] ∨ made.map Prod.fst = otherRegions m) : Reliable m result made := by
  refine ⟨fun hsync => by simp [hmode] at hsync, fun ⟨copy, hmem, _⟩ => ?_⟩
  rcases h with rfl | h
  · exact absurd hmem List.not_mem_nil
  · exact h

/-- A call of `addJob` that no other interrupts. -/
def addAlone (w : World) (choices : ℕ → Choice) (name : String) (data : Json) (opts : JobsOptions) :
    Except Thrown String × Solo Thrown Manager Queues Choice Reply :=
  ((addJob name data opts).alone serve).run ⟨w.toShared, choices, []⟩

/-- It is a run of the manager. -/
theorem exists_run_addAlone (w : World) (choices : ℕ → Choice) (name : String) (data : Json)
    (opts : JobsOptions) :
    ∃ es, system.runFrom w (.spawn (.addJob name data opts) :: es) =
      some ⟨(addAlone w choices name data opts).2.toShared, w.threads ++
        [⟨.addJob name data opts, (addAlone w choices name data opts).2.heard,
          .settled ((addAlone w choices name data opts).1.map Result.jobId)⟩]⟩ := by
  obtain ⟨es, hrun⟩ := Pool.exists_run_alone serve Call.method w (.addJob name data opts) choices
  have hmap : ((Call.addJob name data opts).method.alone serve).run ⟨w.toShared, choices, []⟩ =
      ((addAlone w choices name data opts).1.map Result.jobId,
        (addAlone w choices name data opts).2) := by
    rw [Call.method, Coroutine.alone_bind]
    exact Async.run_bind_pure _ Result.jobId _
  rw [hmap] at hrun
  exact ⟨es, hrun⟩

/-- **An addition keeps what the mode promises exactly if the mode is 'async', or the primary region
does not take the job, or there is no other region, or the reading back and all copies are
answered**, in every state that a run of the manager can reach. -/
theorem reliable_iff {m : Manager} {qs : Queues} {es : List (PoolEvent Call Choice)} {w : World}
    (hm : initializeManager config = .ok m)
    (henabled : config.replication.any ReplicationConfig.enabled = true)
    (hrun : system.runFrom (World.init m qs) es = some w) (choices : ℕ → Choice) (name : String)
    (data : Json) (opts : JobsOptions) :
    Reliable w.memory (addAlone w choices name data opts).1
        (copies (addAlone w choices name data opts).2.heard) ↔
      w.memory.replicationMode = .async ∨ ¬ (choices 0).answer.IsAnswered ∨
        otherRegions w.memory = [] ∨ EveryCopyAnswered w.memory choices := by
  have hready := ready_of_run (ready_initializeManager hm) hrun
  have htest : w.memory.replicationEnabled = true := by
    rw [Manager.replicationEnabled, Manager.replication, hready.1.2.2, Option.bind_some, henabled]
  obtain ⟨result, w', haddJob, hcopies⟩ :=
    @run_addJob config ⟨w.toShared, choices, []⟩ name data opts hready rfl htest
  have hout : addAlone w choices name data opts = (result, w') := haddJob
  rw [hout]
  dsimp only at hcopies ⊢
  generalize copies w'.heard = made at hcopies
  by_cases h₀ : (choices 0).answer.IsAnswered
  · rw [if_pos h₀] at hcopies
    obtain ⟨⟨id, rfl⟩, hmade⟩ := hcopies
    cases hmode : w.memory.replicationMode with
    | async =>
      refine iff_of_true (reliable_of_async hmode _ ?_) (.inl rfl)
      split at hmade
      · rw [Made, hmode] at hmade
        exact .inr hmade
      · exact .inl hmade
    | sync =>
      rw [reliable_ok_sync hmode, EveryCopyAnswered]
      by_cases h₁ : (choices 1).answer.IsAnswered
      · have hall : made = (otherRegions w.memory).map (·, true) ↔
            ∀ i < (otherRegions w.memory).length, (choices (2 * i + 2)).answer.IsAnswered := by
          rw [if_pos h₁, Made, hmode] at hmade
          exact hmade
        have hnone : otherRegions w.memory = [] →
            ∀ i < (otherRegions w.memory).length, (choices (2 * i + 2)).answer.IsAnswered := by
          intro hnil i hi
          simp [hnil] at hi
        simp only [h₀, h₁, not_true_eq_false, reduceCtorEq, false_or, true_and]
        rw [hall]
        exact ⟨.inr, fun h => h.elim hnone fun h => h⟩
      · rw [if_neg h₁] at hmade
        subst hmade
        simp only [h₀, h₁, not_true_eq_false, reduceCtorEq, false_or, false_and, or_false]
        rw [eq_comm, List.map_eq_nil_iff]
  · rw [if_neg h₀] at hcopies
    obtain ⟨⟨e, rfl⟩, rfl⟩ := hcopies
    refine iff_of_true ⟨fun _ => .inr ⟨e, rfl⟩, fun ⟨_, h, _⟩ => ?_⟩ (.inr (.inl h₀))
    exact absurd h List.not_mem_nil

/-- Regions A, B and C, A primary, with replication in 'sync' mode. -/
def syncRegions : GlobalQueueConfig where
  regions := [{ region := "A" }, { region := "B" }, { region := "C" }]
  replication := some { enabled := true, mode := some .sync }

/-- The fields after `initialize` with these regions. -/
def syncManager : Manager where
  queues := ["A", "B", "C"]
  redisClients := ["A", "B", "C"]
  config := some syncRegions
  primaryRegion := some "A"

/-- An addition to a new queue. -/
def renderAlone (choices : ℕ → Choice) :
    Except Thrown String × Solo Thrown Manager Queues Choice Reply :=
  addAlone (World.init syncManager emptyQueues) choices "render" .null {}

/-- Every call is answered. -/
theorem reliable_renderAlone :
    Reliable syncManager (renderAlone fun _ => {}).1 (copies (renderAlone fun _ => {}).2.heard) :=
  (@reliable_iff syncRegions syncManager emptyQueues [] _ rfl rfl rfl _ _ _ _).mpr
    (.inr (.inr (.inr ⟨trivial, fun _ _ => trivial⟩)))

/-- B does not take its copy. -/
def bFails (k : ℕ) : Choice :=
  if k = 2 then { answer := .rejected (.value "connect ECONNREFUSED") false } else {}

/-- The addition resolves, and C is not asked. -/
theorem not_reliable_bFails :
    (renderAlone bFails).1 = .ok "1" ∧ copies (renderAlone bFails).2.heard = [("B", false)] ∧
      ¬ Reliable syncManager (renderAlone bFails).1 (copies (renderAlone bFails).2.heard) := by
  have hresult : (renderAlone bFails).1 = .ok "1" := by rfl
  have hcopies : copies (renderAlone bFails).2.heard = [("B", false)] := by rfl
  refine ⟨hresult, hcopies, ?_⟩
  rw [hresult, hcopies, reliable_ok_sync rfl]
  decide

end KitiumJobQueue.GlobalQueue
