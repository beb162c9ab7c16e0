import KitiumJobQueue.Bull.Lifecycle

/-!
# What the steps of jobs leave alone

Whatever BullMQ does to stored jobs, short of adding one: it changes their states, their attempts
and their options, or drops them, but no job gets another name or other data, and none is made
(`Retains`). So their number does not grow, and an addition of a job without an id of its own adds
one to it (`length_add`).
-/

namespace KitiumJobQueue.Bull.Queue

/-- The jobs of `p'` are jobs of `p`, at most their state, their attempts and their options being
others, and the next job gets the same number and the same defaults. -/
structure Retains (p p' : Queue) : Prop where
  contents : ∀ job ∈ p'.jobs,
    ∃ job' ∈ p.jobs, job'.id = job.id ∧ job'.name = job.name ∧ job'.data = job.data
  counter : p'.counter = p.counter
  defaults : p'.defaultJobOptions = p.defaultJobOptions

namespace Retains

variable {p p' p'' : Queue}

theorem refl (p : Queue) : Retains p p := ⟨fun job hjob => ⟨job, hjob, rfl, rfl, rfl⟩, rfl, rfl⟩

theorem trans (h : Retains p p') (h' : Retains p' p'') : Retains p p'' where
  contents job hjob := by
    obtain ⟨job', hjob', hid, hname, hdata⟩ := h'.contents job hjob
    obtain ⟨job'', hjob'', hid', hname', hdata'⟩ := h.contents job' hjob'
    exact ⟨job'', hjob'', hid'.trans hid, hname'.trans hname, hdata'.trans hdata⟩
  counter := h'.counter.trans h.counter
  defaults := h'.defaults.trans h.defaults

/-- A queue that stores no id twice stays well formed. -/
theorem wellFormed (h : Retains p p') (hp : p.WellFormed) (hnodup : p'.ids.Nodup) :
    p'.WellFormed where
  nodup := hnodup
  fresh n hn hmem := by
    obtain ⟨job, hjob, hid⟩ := mem_ids.mp hmem
    obtain ⟨job', hjob', hid', -⟩ := h.contents job hjob
    exact hp.fresh n (h.counter ▸ hn) (mem_ids.mpr ⟨job', hjob', hid'.trans hid⟩)

end Retains

theorem retains_filter (p : Queue) (f : Job → Bool) :
    Retains p { p with jobs := p.jobs.filter f } :=
  ⟨fun job hjob => ⟨job, (List.mem_filter.mp hjob).1, rfl, rfl, rfl⟩, rfl, rfl⟩

theorem retains_remove (p : Queue) (jobId : String) : Retains p (p.remove jobId) :=
  retains_filter p _

theorem retains_put {p : Queue} {job job' : Job} (hjob : job ∈ p.jobs) (hid : job.id = job'.id)
    (hname : job.name = job'.name) (hdata : job.data = job'.data) : Retains p (p.put job') := by
  refine ⟨fun j hj => ?_, rfl, rfl⟩
  rcases List.mem_cons.mp hj with rfl | hj
  · exact ⟨job, hjob, hid, hname, hdata⟩
  · exact (retains_remove p _).contents j hj

section

variable {p p' : Queue} {jobId : String}

theorem retains_moveToWait (h : p.moveToWait jobId = some p') : Retains p p' := by
  obtain ⟨job, hjob, -, -, h⟩ := step_eq_some h
  obtain rfl := Option.some.inj h
  exact retains_put hjob rfl rfl rfl

theorem retains_start (h : p.start jobId = some p') : Retains p p' := by
  obtain ⟨job, hjob, -, -, h⟩ := step_eq_some h
  obtain rfl := Option.some.inj h
  exact retains_put hjob rfl rfl rfl

theorem retains_promote (h : p.promote jobId = some p') : Retains p p' := by
  obtain ⟨job, hjob, -, -, h⟩ := step_eq_some h
  obtain rfl := Option.some.inj h
  exact retains_put hjob rfl rfl rfl

theorem retains_removeUnlocked (h : p.removeUnlocked jobId = some p') : Retains p p' := by
  obtain ⟨job, -, -, -, h⟩ := step_eq_some h
  obtain rfl := Option.some.inj h
  exact retains_remove p jobId

theorem retains_complete (h : p.complete jobId = some p') : Retains p p' := by
  obtain ⟨job, hjob, -, -, h⟩ := step_eq_some h
  have hput : Retains p (p.put { job with state := .completed }) := retains_put hjob rfl rfl rfl
  split at h
  · obtain rfl := Option.some.inj h
    exact retains_remove p jobId
  · obtain rfl := Option.some.inj h
    exact hput.trans (retains_filter _ _)
  · obtain rfl := Option.some.inj h
    exact hput
  · obtain rfl := Option.some.inj h
    exact hput

theorem retains_fail {isDelayed : Bool} (h : p.fail jobId isDelayed = some p') : Retains p p' := by
  obtain ⟨job, hjob, -, -, h⟩ := step_eq_some h
  split at h
  · obtain rfl := Option.some.inj h
    exact retains_put hjob rfl rfl rfl
  · split at h
    · obtain rfl := Option.some.inj h
      exact retains_remove p jobId
    · obtain rfl := Option.some.inj h
      exact retains_put hjob rfl rfl rfl

theorem retains_clean (p : Queue) (rule : CleanRule) (limit : ℕ) (st : JobState) :
    Retains p (p.clean rule limit st) := by
  unfold clean
  generalize (if limit = 0 then (p.inState st).length else limit) = n
  induction n generalizing p with
  | zero => exact .refl p
  | succ n ih =>
    refine Retains.trans ?_ (ih (p.cleanOne rule st))
    unfold cleanOne
    split
    · exact retains_remove p _
    · exact .refl p

/-- A step that is made or not. -/
theorem retains_getD {step : Option Queue} (h : ∀ p', step = some p' → Retains p p') :
    Retains p (step.getD p) := by
  cases step with
  | none => exact .refl p
  | some p' => exact h p' rfl

end

/-! ## The number of jobs -/

section

variable {p p' : Queue}

theorem Narrows.length_le (h : p.Narrows p') : p'.jobs.length ≤ p.jobs.length := by
  have hids : p'.ids.length ≤ p.ids.length := (List.subperm_of_subset h.nodup h.subset).length_le
  rwa [ids, List.length_map, ids, List.length_map] at hids

theorem narrows_getD {step : Option Queue} (hp : p.ids.Nodup)
    (h : ∀ p', step = some p' → p.Narrows p') : p.Narrows (step.getD p) := by
  cases step with
  | none => exact .refl hp
  | some p' => exact h p' rfl

/-- At most one job goes. -/
theorem length_le_cleanOne (hp : p.ids.Nodup) (rule : CleanRule) (st : JobState) :
    p.jobs.length ≤ (p.cleanOne rule st).jobs.length + 1 := by
  unfold cleanOne
  split
  · next j hpick =>
    exact (jobs_perm hp (mem_inState.mp (rule.pick_mem hpick)).1).length_eq.le
  · exact Nat.le_succ _

/-- A job without an id of its own is stored beside the others. -/
theorem length_add (hp : p.WellFormed) (opts : JobsOptions)
    (hcustom : (p.defaultJobOptions.spread opts).customId = none) (name : String) (data : Json)
    (now : ℕ) : (p.add name data opts now).2.jobs.length = p.jobs.length + 1 := by
  have hdup : p.duplicate opts = none := by rw [duplicate, hcustom, Option.bind_none]
  rw [add_of_duplicate_eq_none hdup (newJob_id_not_mem hp.fresh hdup name data now)]
  rfl

end

end KitiumJobQueue.Bull.Queue
