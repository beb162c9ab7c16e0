import KitiumJobQueue.Bull.Queue
import Mathlib.Data.List.Perm.Basic

/-!
# The life of a job

What BullMQ does to a stored job: a worker starts it, a delayed job is promoted, an attempt
completes or fails, and a job that no worker holds may be removed. A completed job is kept or
removed as its options say, a failed one waits for its next attempt as long as it has any.

`openCount` counts the jobs that may still be run.
-/

namespace KitiumJobQueue.Bull

/-- A job in this state may still be run. -/
def JobState.isOpen : JobState → Bool
  | .completed | .failed => false
  | .waiting | .delayed | .prioritized | .active | .paused | .waitingChildren => true

/-- After this attempt at the job another one is allowed. -/
def Job.hasNextAttempt (j : Job) : Prop := j.attemptsMade + 1 < j.opts.attempts.getD 0

instance : DecidablePred Job.hasNextAttempt := fun j => Nat.decLt (j.attemptsMade + 1) _

/-- The job after another failed attempt. -/
def Job.failedAttempt (j : Job) (st : JobState) : Job :=
  { j with attemptsMade := j.attemptsMade + 1, state := st }

namespace Queue

variable (q : Queue) (id : String)

/-- The state of a job that is ready to be run. -/
def readyState (j : Job) : JobState :=
  if 0 < j.opts.priority.getD 0 then .prioritized else .waiting

/-- A worker takes a job. -/
def start : Option Queue :=
  (q.getJob id).bind fun j =>
    if j.state = .waiting ∨ j.state = .prioritized then some (q.put { j with state := .active })
    else none

/-- The delay of a job has passed. -/
def promote : Option Queue :=
  (q.getJob id).bind fun j =>
    if j.state = .delayed then some (q.put { j with state := readyState j }) else none

/-- Keep only the newest `count` jobs of a state. -/
def keepNewest (st : JobState) (count : ℕ) : Queue :=
  { q with jobs := q.jobs.filter fun j => j.state ≠ st ∨ j ∈ (q.inState st).take count }

/-- An attempt succeeds. -/
def complete : Option Queue :=
  (q.getJob id).bind fun j =>
    if j.state = .active then
      match j.opts.removeOnComplete.toOption with
      | some (.remove true) => some (q.remove id)
      | some (.keep count) =>
        some ((q.put { j with state := .completed }).keepNewest .completed count)
      | some (.remove false) | none => some (q.put { j with state := .completed })
    else none

/-- An attempt fails; the backoff strategy says whether the next one is delayed. -/
def fail (isDelayed : Bool) : Option Queue :=
  (q.getJob id).bind fun j =>
    if j.state = .active then
      if j.hasNextAttempt then
        some (q.put (j.failedAttempt (if isDelayed then .delayed else readyState j)))
      else if j.opts.removeOnFail.getD false then some (q.remove id)
      else some (q.put (j.failedAttempt .failed))
    else none

/-- Remove a job that no worker holds. -/
def removeUnlocked : Option Queue :=
  (q.getJob id).bind fun j => if j.state ≠ .active then some (q.remove id) else none

/-- `Job.moveToWait`, which takes a job back from a worker. It fails for a job that no worker holds,
and for one that is not stored any more; locks are not modelled. -/
def moveToWait : Option Queue :=
  (q.getJob id).bind fun j =>
    if j.state = .active then some (q.put { j with state := readyState j }) else none

/-- `Queue.drain`: the jobs that are ready to be run go. -/
def drain : Queue :=
  { q with jobs := q.jobs.filter fun j => j.state ∉ [.waiting, .paused, .prioritized] }

/-! ## Counting the jobs that may still be run -/

/-- The number of stored jobs that may still be run, among those whose id is in `f`. -/
def openCount (f : String → Bool) : ℕ := q.jobs.countP fun j => j.state.isOpen && f j.id

variable {q id} {f : String → Bool}

theorem getJob_eq_some {j : Job} (h : q.getJob id = some j) : j ∈ q.jobs ∧ j.id = id :=
  ⟨List.mem_of_find?_eq_some h, by simpa using List.find?_some h⟩

/-- A stored job and the others. -/
theorem jobs_perm (h : q.ids.Nodup) {j : Job} (hj : j ∈ q.jobs) :
    q.jobs.Perm (j :: (q.remove j.id).jobs) := by
  have hnot : j ∉ (q.remove j.id).jobs := fun hmem => by simp [remove] at hmem
  have hrest : (q.remove j.id).jobs.Nodup := (h.of_map Job.id).sublist List.filter_sublist
  apply (List.perm_ext_iff_of_nodup (h.of_map Job.id) (List.nodup_cons.mpr ⟨hnot, hrest⟩)).mpr
  intro i
  rw [List.mem_cons, remove, List.mem_filter, decide_eq_true_eq]
  constructor
  · intro hi
    by_cases hid : i.id = j.id
    · exact .inl (eq_of_id_eq h hi hj hid)
    · exact .inr ⟨hi, hid⟩
  · rintro (rfl | ⟨hi, -⟩)
    · exact hj
    · exact hi

theorem openCount_congr {f' : String → Bool} (h : ∀ id ∈ q.ids, f id = f' id) :
    q.openCount f = q.openCount f' := by
  apply List.countP_congr
  intro j hj
  rw [h j.id (mem_ids.mpr ⟨j, hj, rfl⟩)]

theorem openCount_put (j : Job) :
    (q.put j).openCount f =
      (q.remove j.id).openCount f + if j.state.isOpen && f j.id then 1 else 0 :=
  List.countP_cons

theorem openCount_put_closed {j : Job} (hj : j.state.isOpen = false) :
    (q.put j).openCount f = (q.remove j.id).openCount f := by
  rw [openCount_put, hj]
  rfl

theorem openCount_eq (h : q.ids.Nodup) {j : Job} (hj : j ∈ q.jobs) :
    q.openCount f = (q.remove j.id).openCount f + if j.state.isOpen && f j.id then 1 else 0 :=
  ((jobs_perm h hj).countP_eq _).trans List.countP_cons

theorem openCount_eq_of_isOpen (h : q.ids.Nodup) {j : Job} (hj : j ∈ q.jobs)
    (hopen : j.state.isOpen = true) :
    q.openCount f = (q.remove j.id).openCount f + if f j.id then 1 else 0 := by
  rw [openCount_eq h hj, hopen, Bool.true_and]

theorem openCount_remove_le : (q.remove id).openCount f ≤ q.openCount f :=
  List.filter_sublist.countP_le

/-! ## What becomes of the stored jobs -/

/-- `q'` stores no id that `q` does not store, each of them once, and opens no job. -/
structure Narrows (q q' : Queue) : Prop where
  nodup : q'.ids.Nodup
  subset : q'.ids ⊆ q.ids
  openCount_le : ∀ f, q'.openCount f ≤ q.openCount f

theorem Narrows.refl (h : q.ids.Nodup) : q.Narrows q := ⟨h, fun _ => id, fun _ => le_rfl⟩

theorem Narrows.trans {q' q'' : Queue} (h : q.Narrows q') (h' : q'.Narrows q'') :
    q.Narrows q'' where
  nodup := h'.nodup
  subset _ hid := h.subset (h'.subset hid)
  openCount_le f := (h'.openCount_le f).trans (h.openCount_le f)

/-- Dropping jobs. -/
theorem narrows_filter (h : q.ids.Nodup) (p : Job → Bool) :
    q.Narrows { q with jobs := q.jobs.filter p } where
  nodup := h.sublist (List.filter_sublist.map Job.id)
  subset := (List.filter_sublist.map Job.id).subset
  openCount_le _ := List.filter_sublist.countP_le

theorem narrows_remove (h : q.ids.Nodup) (id : String) : q.Narrows (q.remove id) :=
  narrows_filter h _

theorem nodup_put (h : q.ids.Nodup) (j : Job) : (q.put j).ids.Nodup :=
  List.nodup_cons.mpr ⟨fun hmem => (mem_ids_remove.mp hmem).2 rfl, nodup_remove h _⟩

theorem mem_ids_put {j : Job} : id ∈ (q.put j).ids ↔ id = j.id ∨ (id ∈ q.ids ∧ id ≠ j.id) := by
  rw [← mem_ids_remove]
  exact List.mem_cons

/-- Moving a job to another state, and to an open one only from an open one. -/
theorem narrows_put (h : q.ids.Nodup) {j j' : Job} (hj : j ∈ q.jobs) (hid : j'.id = j.id)
    (hst : j'.state.isOpen → j.state.isOpen) : q.Narrows (q.put j') where
  nodup := nodup_put h j'
  subset id hmem := by
    rcases mem_ids_put.mp hmem with rfl | ⟨hmem, -⟩
    · exact mem_ids.mpr ⟨j, hj, hid.symm⟩
    · exact hmem
  openCount_le f := by
    rw [openCount_put, openCount_eq h hj, hid]
    apply Nat.add_le_add_left
    cases hopen : j'.state.isOpen with
    | false => exact Nat.zero_le _
    | true => rw [hst hopen]

/-! ## The steps of a job -/

section Steps

variable {q' : Queue}

/-- A step of a stored job under a condition on the job. -/
theorem step_eq_some {guard : Job → Prop} [DecidablePred guard] {next : Job → Option Queue}
    (hs : ((q.getJob id).bind fun j => if guard j then next j else none) = some q') :
    ∃ j ∈ q.jobs, j.id = id ∧ guard j ∧ next j = some q' := by
  obtain ⟨j, hj, hs⟩ := Option.bind_eq_some_iff.mp hs
  obtain ⟨hmem, hid⟩ := getJob_eq_some hj
  obtain ⟨hguard, hs⟩ := Option.ite_none_right_eq_some.mp hs
  exact ⟨j, hmem, hid, hguard, hs⟩

theorem narrows_start (h : q.ids.Nodup) (hs : q.start id = some q') : q.Narrows q' := by
  obtain ⟨j, hj, rfl, hst, hs⟩ := step_eq_some hs
  obtain rfl := Option.some.inj hs
  refine narrows_put h hj rfl fun _ => ?_
  rcases hst with hst | hst
  · rw [hst]
    rfl
  · rw [hst]
    rfl

theorem narrows_promote (h : q.ids.Nodup) (hs : q.promote id = some q') : q.Narrows q' := by
  obtain ⟨j, hj, rfl, hst, hs⟩ := step_eq_some hs
  obtain rfl := Option.some.inj hs
  refine narrows_put h hj rfl fun _ => ?_
  rw [hst]
  rfl

theorem narrows_removeUnlocked (h : q.ids.Nodup) (hs : q.removeUnlocked id = some q') :
    q.Narrows q' := by
  obtain ⟨j, -, -, -, hs⟩ := step_eq_some hs
  obtain rfl := Option.some.inj hs
  exact narrows_remove h id

/-- A job is closed: it is not counted any more, and nothing is opened. -/
structure Closes (q : Queue) (id : String) (q' : Queue) : Prop where
  narrows : q.Narrows q'
  openCount_add_le : ∀ f, (q'.openCount f + if f id then 1 else 0) ≤ q.openCount f

theorem Closes.trans (h : q.Closes id q') {q'' : Queue} (h' : q'.Narrows q'') :
    q.Closes id q'' where
  narrows := h.narrows.trans h'
  openCount_add_le f := (Nat.add_le_add_right (h'.openCount_le f) _).trans (h.openCount_add_le f)

theorem closes_remove (h : q.ids.Nodup) {j : Job} (hj : j ∈ q.jobs) (hopen : j.state.isOpen) :
    q.Closes j.id (q.remove j.id) where
  narrows := narrows_remove h _
  openCount_add_le _ := (openCount_eq_of_isOpen h hj hopen).ge

theorem closes_put (h : q.ids.Nodup) {j j' : Job} (hj : j ∈ q.jobs) (hid : j'.id = j.id)
    (hopen : j.state.isOpen) (hclosed : j'.state.isOpen = false) : q.Closes j.id (q.put j') where
  narrows := narrows_put h hj hid fun _ => hopen
  openCount_add_le f := by
    rw [openCount_put_closed hclosed, hid]
    exact (openCount_eq_of_isOpen h hj hopen).ge

/-- A completed job is closed, whether it is kept or not. -/
theorem closes_complete (h : q.ids.Nodup) (hs : q.complete id = some q') : q.Closes id q' := by
  obtain ⟨j, hj, rfl, hst, hs⟩ := step_eq_some hs
  have hopen : j.state.isOpen := by
    rw [hst]
    rfl
  have hput : q.Closes j.id (q.put { j with state := .completed }) := closes_put h hj rfl hopen rfl
  split at hs
  · obtain rfl := Option.some.inj hs
    exact closes_remove h hj hopen
  · obtain rfl := Option.some.inj hs
    exact hput.trans (narrows_filter hput.narrows.nodup _)
  · obtain rfl := Option.some.inj hs
    exact hput
  · obtain rfl := Option.some.inj hs
    exact hput

/-- A failed attempt opens nothing, and closes the job if it was the last one. -/
theorem closes_or_narrows_fail {isDelayed : Bool} (h : q.ids.Nodup)
    (hs : q.fail id isDelayed = some q') :
    q.Closes id q' ∨ (q.Narrows q' ∧ ∃ j ∈ q.getJob id, j.hasNextAttempt) := by
  obtain ⟨j, hj, rfl, hst, hs⟩ := step_eq_some hs
  have hopen : j.state.isOpen := by
    rw [hst]
    rfl
  split at hs
  · next hnext =>
    obtain rfl := Option.some.inj hs
    exact .inr ⟨narrows_put h hj rfl fun _ => hopen, j, getJob_of_mem h hj, hnext⟩
  · left
    split at hs
    · obtain rfl := Option.some.inj hs
      exact closes_remove h hj hopen
    · obtain rfl := Option.some.inj hs
      exact closes_put h hj rfl hopen rfl

theorem narrows_fail {isDelayed : Bool} (h : q.ids.Nodup) (hs : q.fail id isDelayed = some q') :
    q.Narrows q' := by
  rcases closes_or_narrows_fail h hs with hcloses | ⟨hnarrows, -⟩
  · exact hcloses.narrows
  · exact hnarrows

/-- A job that is put back stays stored, and so do the others. -/
theorem mem_ids_moveToWait (hs : q.moveToWait id = some q') {id' : String} :
    id' ∈ q'.ids ↔ id' ∈ q.ids := by
  obtain ⟨j, hmem, -, -, hs⟩ := step_eq_some hs
  obtain rfl := Option.some.inj hs
  rw [mem_ids_put]
  constructor
  · rintro (rfl | ⟨hid, -⟩)
    · exact mem_ids.mpr ⟨j, hmem, rfl⟩
    · exact hid
  · intro hid
    by_cases heq : id' = j.id
    · exact .inl heq
    · exact .inr ⟨hid, heq⟩

/-! ## Removing many jobs at once -/

theorem narrows_cleanOne (h : q.ids.Nodup) (rule : CleanRule) (st : JobState) :
    q.Narrows (q.cleanOne rule st) := by
  unfold cleanOne
  split
  · exact narrows_remove h _
  · exact .refl h

theorem narrows_clean (h : q.ids.Nodup) (rule : CleanRule) (limit : ℕ) (st : JobState) :
    q.Narrows (q.clean rule limit st) := by
  unfold clean
  generalize (if limit = 0 then (q.inState st).length else limit) = n
  induction n generalizing q with
  | zero => exact .refl h
  | succ n ih =>
    have hone := narrows_cleanOne h rule st
    exact hone.trans (ih hone.nodup)

theorem narrows_drain (h : q.ids.Nodup) : q.Narrows q.drain := narrows_filter h _

end Steps

end Queue

end KitiumJobQueue.Bull
