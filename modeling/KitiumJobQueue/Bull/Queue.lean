import KitiumJobQueue.Bull.Options
import Mathlib.Data.List.Flatten
import Mathlib.Data.List.Nodup
import Mathlib.Logic.Function.Iterate

/-!
# BullMQ queues

What the code relies on of a BullMQ queue. A queue stores jobs under their ids and numbers the
jobs that come without an id from a counter of its own, which every `add` advances. Adding under
an id that is still stored creates nothing and returns the stored job. The list `jobs` is in the
order in which `getJobs` pages over a state: a job moves to the front when it enters a state, so
the newest comes first.

Which jobs `clean` removes is BullMQ's own choice, hence a parameter (`CleanRule`);
`CleanRule.oldest` is the rule it has.
-/

namespace KitiumJobQueue.Bull

/-- The states of a job, named after the sets BullMQ keeps. -/
inductive JobState
  | waiting
  | delayed
  | prioritized
  | active
  | completed
  | failed
  | paused
  | waitingChildren
  deriving DecidableEq, Repr

/-- A stored job. -/
structure Job where
  id : String
  name : String
  data : Json
  opts : JobsOptions
  attemptsMade : ℕ
  timestamp : ℕ
  state : JobState
  deriving DecidableEq

/-- A queue: its jobs, newest first, and its id counter. -/
structure Queue where
  jobs : List Job
  counter : ℕ
  defaultJobOptions : JobsOptions
  deriving DecidableEq

/-- How `clean` chooses among the jobs of a state. -/
structure CleanRule where
  pick : List Job → Option Job
  pick_mem : ∀ {l j}, pick l = some j → j ∈ l
  pick_of_ne_nil : ∀ {l}, l ≠ [] → ∃ j, pick l = some j

/-- BullMQ's rule: the oldest job. -/
def CleanRule.oldest : CleanRule where
  pick l := l.getLast?
  pick_mem h := List.mem_of_getLast? h
  pick_of_ne_nil h := ⟨_, List.getLast?_eq_some_getLast h⟩

/-- The elements at positions `start..stop` inclusive, a negative `stop` counting from the tail. -/
def range {α : Type} (l : List α) (start : ℕ) (stop : ℤ) : List α :=
  (l.take ((if stop < 0 then l.length + stop else stop) + 1).toNat).drop start

theorem range_sublist {α : Type} (l : List α) (start : ℕ) (stop : ℤ) :
    (range l start stop).Sublist l :=
  (List.drop_sublist _ _).trans (List.take_sublist _ _)

/-- The first `limit` elements. -/
theorem range_zero {α : Type} (l : List α) {limit : ℕ} (h : 1 ≤ limit) :
    range l 0 ((limit : ℤ) - 1) = l.take limit := by
  have hstop : ¬ (limit : ℤ) - 1 < 0 := by omega
  have hcount : ((limit : ℤ) - 1 + 1).toNat = limit := by omega
  rw [range, if_neg hstop, hcount, List.drop_zero]

/-- Up to the last element. -/
theorem range_zero_neg_one {α : Type} (l : List α) : range l 0 (-1) = l := by
  have hcount : ((l.length : ℤ) + -1 + 1).toNat = l.length := by omega
  rw [range, if_pos (by decide), hcount, List.take_length, List.drop_zero]

/-- For the limit `0` the last position is `-1`, and all elements are there. -/
theorem length_range_le_iff {α : Type} (l : List α) (limit : ℕ) :
    (range l 0 ((limit : ℤ) - 1)).length ≤ limit ↔ 1 ≤ limit ∨ l = [] := by
  cases limit with
  | zero =>
    change (range l 0 (-1)).length ≤ 0 ↔ _
    rw [range_zero_neg_one]
    simp
  | succ n =>
    have hlimit : 1 ≤ n + 1 := by omega
    rw [range_zero l hlimit, List.length_take]
    exact iff_of_true (Nat.min_le_left _ _) (.inl hlimit)

namespace Queue

variable (q : Queue)

/-- `Queue.getJob` -/
def getJob (id : String) : Option Job := q.jobs.find? (·.id = id)

/-- The jobs in a state. -/
def inState (st : JobState) : List Job := q.jobs.filter (·.state = st)

/-- `Queue.getJobs` for one state. -/
def getJobs (st : JobState) (start : ℕ) (stop : ℤ) : List Job := range (q.inState st) start stop

/-- The states `getJobs` looks for: who asks for the waiting jobs is given the paused ones too. -/
def sanitizeJobTypes (types : List JobState) : List JobState :=
  (if .waiting ∈ types then types ++ [.paused] else types).eraseDups

/-- Only the waiting jobs have others with them. -/
theorem sanitizeJobTypes_of_ne_waiting {st : JobState} (h : st ≠ .waiting) :
    sanitizeJobTypes [st] = [st] := by
  cases st with
  | waiting => exact absurd rfl h
  | delayed | prioritized | active | completed | failed | paused | waitingChildren => rfl

/-- `Queue.getJobs`: the ranges of the states, one after another. -/
def getJobsOf (types : List JobState) (start : ℕ) (stop : ℤ) : List Job :=
  (sanitizeJobTypes types).flatMap fun st => q.getJobs st start stop

/-- `Queue.getJobCountByTypes` -/
def getJobCountByTypes (types : List JobState) : ℕ :=
  ((sanitizeJobTypes types).flatMap q.inState).length

/-- The ids in use. -/
def ids : List String := q.jobs.map Job.id

/-- `Job.remove` -/
def remove (id : String) : Queue := { q with jobs := q.jobs.filter (·.id ≠ id) }

/-- Store a job at the front, in place of any job with its id. -/
def put (j : Job) : Queue := { q with jobs := j :: (q.remove j.id).jobs }

/-- The state a new job starts in. -/
def initialState (opts : JobsOptions) : JobState :=
  if 0 < opts.delay.getD 0 then .delayed
  else if 0 < opts.priority.getD 0 then .prioritized
  else .waiting

/-- The job an `add` stores when nothing is stored under its id. -/
def newJob (name : String) (data : Json) (opts : JobsOptions) (now : ℕ) : Job :=
  let opts := q.defaultJobOptions.spread opts
  { id := opts.customId.getD (toString (q.counter + 1))
    name := name
    data := data
    opts := opts
    attemptsMade := 0
    timestamp := now
    state := initialState opts }

/-- The job already stored under the custom id of an `add`, if there is one. -/
def duplicate (opts : JobsOptions) : Option Job :=
  (q.defaultJobOptions.spread opts).customId.bind q.getJob

/-- `Queue.add`, with the returned job. Any id is taken; BullMQ itself refuses a custom id that
reads as an integer or has a colon in it. -/
def add (name : String) (data : Json) (opts : JobsOptions) (now : ℕ) : Job × Queue :=
  match q.duplicate opts with
  | some j => (j, { q with counter := q.counter + 1 })
  | none =>
    let j := q.newJob name data opts now
    (j, { q.put j with counter := q.counter + 1 })

/-- One removal of `clean`. -/
def cleanOne (rule : CleanRule) (st : JobState) : Queue :=
  match rule.pick (q.inState st) with
  | some j => q.remove j.id
  | none => q

/-- `Queue.clean` with no grace period: up to `limit` jobs of a state go, all of them for `0`. -/
def clean (rule : CleanRule) (limit : ℕ) (st : JobState) : Queue :=
  (fun q => cleanOne q rule st)^[if limit = 0 then (q.inState st).length else limit] q

/-! ## Ids -/

/-- The ids are distinct, and none of them is a number the counter has still to reach. -/
structure WellFormed : Prop where
  nodup : q.ids.Nodup
  fresh : ∀ n, q.counter < n → toString n ∉ q.ids

variable {q}

theorem toString_injective : Function.Injective (toString : ℕ → String) := by
  intro m n h
  have h : Nat.toDigits 10 m = Nat.toDigits 10 n := by
    simpa only [Nat.toString_eq_ofList_toDigits, String.ofList_inj] using h
  rw [← Nat.ofDigitChars_toDigits (n := m) (b := 10) (by omega) (by omega), h,
    Nat.ofDigitChars_toDigits (by omega) (by omega)]

theorem toString_ne_empty (n : ℕ) : toString n ≠ "" := by
  rw [Nat.toString_eq_ofList_toDigits]
  intro h
  exact Nat.toDigits_ne_nil (String.ofList_inj.mp h)

@[simp] theorem mem_ids {id : String} : id ∈ q.ids ↔ ∃ j ∈ q.jobs, j.id = id := List.mem_map

theorem getJob_eq_none {id : String} : q.getJob id = none ↔ id ∉ q.ids := by
  simp [getJob]

theorem getJob_of_mem (h : q.ids.Nodup) {j : Job} (hj : j ∈ q.jobs) : q.getJob j.id = some j := by
  unfold getJob
  generalize hl : q.jobs = l at hj
  have hn : (l.map Job.id).Nodup := hl ▸ h
  clear hl h
  induction l with
  | nil => simp at hj
  | cons a l ih =>
    rw [List.map_cons, List.nodup_cons] at hn
    rcases List.mem_cons.mp hj with rfl | hj
    · simp
    · have hne : a.id ≠ j.id := fun e => hn.1 (e ▸ List.mem_map_of_mem hj)
      rw [List.find?_cons_of_neg (by simpa using hne)]
      exact ih hj hn.2

/-! ## Adding and removing -/

theorem jobs_remove_of_not_mem {id : String} (h : id ∉ q.ids) : (q.remove id).jobs = q.jobs := by
  refine List.filter_eq_self.mpr fun j hj => decide_eq_true ?_
  rintro rfl
  exact h (mem_ids.mpr ⟨j, hj, rfl⟩)

@[simp] theorem mem_ids_remove {id id' : String} :
    id ∈ (q.remove id').ids ↔ id ∈ q.ids ∧ id ≠ id' := by
  simp only [mem_ids, remove, List.mem_filter, decide_eq_true_eq]
  refine ⟨fun ⟨j, ⟨hj, hne⟩, hid⟩ => ⟨⟨j, hj, hid⟩, hid ▸ hne⟩, fun ⟨⟨j, hj, hid⟩, hne⟩ => ?_⟩
  exact ⟨j, ⟨hj, hid ▸ hne⟩, hid⟩

theorem inState_remove (id : String) (st : JobState) :
    (q.remove id).inState st = (q.inState st).filter (·.id ≠ id) := by
  simp only [inState, remove, List.filter_filter, Bool.and_comm]

theorem nodup_remove (h : q.ids.Nodup) (id : String) : (q.remove id).ids.Nodup :=
  h.sublist (List.filter_sublist.map Job.id)

theorem mem_inState {st : JobState} {j : Job} : j ∈ q.inState st ↔ j ∈ q.jobs ∧ j.state = st := by
  simp only [inState, List.mem_filter, decide_eq_true_eq]

/-- Jobs with the same id are the same job. -/
theorem eq_of_id_eq (h : q.ids.Nodup) {i j : Job} (hi : i ∈ q.jobs) (hj : j ∈ q.jobs)
    (hid : i.id = j.id) : i = j :=
  List.inj_on_of_nodup_map h hi hj hid

/-- The jobs of different states have different ids. -/
theorem nodup_ids_flatMap_inState (h : q.ids.Nodup) {states : List JobState}
    (hstates : states.Nodup) : ((states.flatMap q.inState).map Job.id).Nodup := by
  refine List.Nodup.map_on (fun i hi j hj => ?_) (List.nodup_flatMap.mpr ⟨fun st _ => ?_, ?_⟩)
  · obtain ⟨st, -, hi⟩ := List.mem_flatMap.mp hi
    obtain ⟨st', -, hj⟩ := List.mem_flatMap.mp hj
    exact eq_of_id_eq h (mem_inState.mp hi).1 (mem_inState.mp hj).1
  · exact (h.of_map Job.id).filter _
  · refine hstates.imp fun hne j hj hj' => hne ?_
    exact (mem_inState.mp hj).2.symm.trans (mem_inState.mp hj').2

/-- `getJobs` returns stored jobs. -/
theorem mem_jobs_of_mem_getJobsOf {types : List JobState} {start : ℕ} {stop : ℤ} {j : Job}
    (h : j ∈ q.getJobsOf types start stop) : j ∈ q.jobs := by
  obtain ⟨st, -, hj⟩ := List.mem_flatMap.mp h
  exact (mem_inState.mp ((range_sublist _ _ _).subset hj)).1

/-- `getJobs` returns each job once. -/
theorem nodup_ids_getJobsOf (h : q.ids.Nodup) {types : List JobState}
    (htypes : (sanitizeJobTypes types).Nodup) (start : ℕ) (stop : ℤ) :
    ((q.getJobsOf types start stop).map Job.id).Nodup := by
  have hsublist : (q.getJobsOf types start stop).Sublist
      ((sanitizeJobTypes types).flatMap q.inState) :=
    List.Sublist.flatMap_right _ fun st _ => range_sublist (q.inState st) start stop
  exact (nodup_ids_flatMap_inState h htypes).sublist (hsublist.map Job.id)

/-- Removing a job of one state leaves the jobs of another as they are. -/
theorem inState_remove_of_state_ne (h : q.ids.Nodup) {x : Job} (hx : x ∈ q.jobs) {st : JobState}
    (hst : x.state ≠ st) : (q.remove x.id).inState st = q.inState st := by
  rw [inState_remove]
  refine List.filter_eq_self.mpr fun j hj => decide_eq_true fun hid => hst ?_
  obtain ⟨hj, hjst⟩ := mem_inState.mp hj
  rw [eq_of_id_eq h hx hj hid.symm, hjst]

theorem newJob_id_of_none {opts : JobsOptions}
    (hc : (q.defaultJobOptions.spread opts).customId = none) (name : String) (data : Json)
    (now : ℕ) : (q.newJob name data opts now).id = toString (q.counter + 1) := by
  simp only [newJob, hc, Option.getD_none]

theorem newJob_id_of_some {opts : JobsOptions} {id : String}
    (hc : (q.defaultJobOptions.spread opts).customId = some id) (name : String) (data : Json)
    (now : ℕ) : (q.newJob name data opts now).id = id := by
  simp only [newJob, hc, Option.getD_some]

theorem newJob_id_not_mem (hfresh : ∀ n, q.counter < n → toString n ∉ q.ids) {opts : JobsOptions}
    (h : q.duplicate opts = none) (name : String) (data : Json) (now : ℕ) :
    (q.newJob name data opts now).id ∉ q.ids := by
  unfold duplicate at h
  cases hc : (q.defaultJobOptions.spread opts).customId with
  | none =>
    rw [newJob_id_of_none hc]
    exact hfresh _ (Nat.lt_succ_self _)
  | some id =>
    rw [newJob_id_of_some hc]
    rw [hc] at h
    exact getJob_eq_none.mp h

/-- An `add` that finds no duplicate stores the new job. -/
theorem add_eq_put {name : String} {data : Json} {opts : JobsOptions} {now : ℕ}
    (h : q.duplicate opts = none) :
    q.add name data opts now =
      (q.newJob name data opts now,
        { q.put (q.newJob name data opts now) with counter := q.counter + 1 }) := by
  simp only [add, h]

/-- An `add` under an id that is not stored puts the new job in front. -/
theorem add_of_duplicate_eq_none {name : String} {data : Json} {opts : JobsOptions} {now : ℕ}
    (h : q.duplicate opts = none) (hid : (q.newJob name data opts now).id ∉ q.ids) :
    q.add name data opts now =
      (q.newJob name data opts now,
        { q with jobs := q.newJob name data opts now :: q.jobs, counter := q.counter + 1 }) := by
  rw [add_eq_put h, put, jobs_remove_of_not_mem hid]

/-- An `add` under an id that is stored changes the counter only. -/
theorem add_of_duplicate_eq_some {name : String} {data : Json} {opts : JobsOptions} {now : ℕ}
    {j : Job} (h : q.duplicate opts = some j) :
    q.add name data opts now = (j, { q with counter := q.counter + 1 }) := by
  simp only [add, h]

/-- An `add` adds at most the new job. -/
theorem mem_jobs_add {name : String} {data : Json} {opts : JobsOptions} {now : ℕ} {j : Job}
    (h : j ∈ (q.add name data opts now).2.jobs) :
    j ∈ q.jobs ∨ j = q.newJob name data opts now := by
  unfold add at h
  split at h
  · exact .inl h
  · rcases List.mem_cons.mp h with rfl | h
    · exact .inr rfl
    · exact .inl (List.mem_filter.mp h).1

@[simp] theorem defaultJobOptions_add (name : String) (data : Json) (opts : JobsOptions)
    (now : ℕ) : (q.add name data opts now).2.defaultJobOptions = q.defaultJobOptions := by
  unfold add
  split
  · rfl
  · rfl

/-- What is stored after an `add` was stored before, or is the job it returns. -/
theorem mem_jobs_or_returned {name : String} {data : Json} {opts : JobsOptions} {now : ℕ} {j : Job}
    (h : j ∈ (q.add name data opts now).2.jobs) :
    j ∈ q.jobs ∨ j = (q.add name data opts now).1 := by
  cases hdup : q.duplicate opts with
  | some i =>
    rw [add_of_duplicate_eq_some hdup] at h
    exact .inl h
  | none =>
    rw [add_eq_put hdup]
    exact mem_jobs_add h

/-- The job an `add` returns was stored before under a custom id, or is what was asked for. -/
theorem add_cases (name : String) (data : Json) (opts : JobsOptions) (now : ℕ) :
    (q.add name data opts now).1 ∈ q.jobs ∧ (q.defaultJobOptions.spread opts).customId ≠ none ∨
      (q.add name data opts now).1.name = name ∧ (q.add name data opts now).1.data = data := by
  cases hdup : q.duplicate opts with
  | some j =>
    rw [add_of_duplicate_eq_some hdup]
    obtain ⟨custom, hcustom, hj⟩ := Option.bind_eq_some_iff.mp hdup
    exact .inl ⟨List.mem_of_find?_eq_some hj, by simp [hcustom]⟩
  | none =>
    rw [add_eq_put hdup]
    exact .inr ⟨rfl, rfl⟩

theorem WellFormed.remove (h : q.WellFormed) (id : String) : (q.remove id).WellFormed where
  nodup := nodup_remove h.nodup id
  fresh n hn hmem := h.fresh n hn (mem_ids_remove.mp hmem).1

/-- A well-formed queue stays so when a job without an id of its own is added. -/
theorem WellFormed.add (h : q.WellFormed) {name : String} {data : Json} {opts : JobsOptions}
    {now : ℕ} (hc : (q.defaultJobOptions.spread opts).customId = none) :
    (q.add name data opts now).2.WellFormed := by
  have hdup : q.duplicate opts = none := by rw [duplicate, hc, Option.bind_none]
  have hnew := newJob_id_not_mem h.fresh hdup name data now
  rw [add_of_duplicate_eq_none hdup hnew]
  refine ⟨List.nodup_cons.mpr ⟨hnew, h.nodup⟩, fun n hn hmem => ?_⟩
  have hn : q.counter + 1 < n := hn
  rcases List.mem_cons.mp hmem with heq | hmem
  · have := toString_injective (heq.trans (newJob_id_of_none hc name data now))
    omega
  · exact h.fresh n (by omega) hmem

/-! ## What is stored under an id -/

/-- The job stored under the id has this name and this data. -/
def Holds (q : Queue) (id name : String) (data : Json) : Prop :=
  ∃ j ∈ q.getJob id, j.name = name ∧ j.data = data

/-- No job with another name or other data is stored under the id. -/
def HoldsOnly (q : Queue) (id name : String) (data : Json) : Prop :=
  ∀ j ∈ q.getJob id, j.name = name ∧ j.data = data

instance (id name : String) (data : Json) : Decidable (q.Holds id name data) :=
  inferInstanceAs (Decidable (∃ j ∈ q.getJob id, j.name = name ∧ j.data = data))

instance (id name : String) (data : Json) : Decidable (q.HoldsOnly id name data) :=
  inferInstanceAs (Decidable (∀ j ∈ q.getJob id, j.name = name ∧ j.data = data))

theorem Holds.unique {id name name' : String} {data data' : Json} (h : q.Holds id name data)
    (h' : q.HoldsOnly id name' data') : name = name' ∧ data = data' := by
  obtain ⟨j, hj, rfl, rfl⟩ := h
  exact h' j hj

/-- Where no other job is stored, being stored is being stored as such. -/
theorem HoldsOnly.isSome_iff {id name : String} {data : Json} (h : q.HoldsOnly id name data) :
    (q.getJob id).isSome ↔ q.Holds id name data := by
  rw [Option.isSome_iff_exists]
  exact ⟨fun ⟨j, hj⟩ => ⟨j, hj, h j hj⟩, fun ⟨j, hj, _⟩ => ⟨j, hj⟩⟩

theorem getJob_id {id : String} {j : Job} (h : q.getJob id = some j) : j.id = id := by
  simpa using List.find?_some h

/-- After an `add` its id leads to the job it returned, and the other ids to what they did. -/
theorem getJob_add (name : String) (data : Json) (opts : JobsOptions) (now : ℕ) (id : String) :
    (q.add name data opts now).2.getJob id =
      if (q.add name data opts now).1.id = id then some (q.add name data opts now).1
      else q.getJob id := by
  cases hdup : q.duplicate opts with
  | some j =>
    rw [add_of_duplicate_eq_some hdup]
    obtain ⟨custom, -, hj⟩ := Option.bind_eq_some_iff.mp hdup
    split
    · rename_i hid
      rwa [← hid, getJob_id hj]
    · rfl
  | none =>
    rw [add_eq_put hdup]
    generalize q.newJob name data opts now = j
    simp only [getJob, put, remove]
    by_cases hid : j.id = id
    · simp [hid]
    · rw [if_neg hid, List.find?_cons_of_neg (by simpa using hid), List.find?_filter]
      congr 1
      funext i
      by_cases hi : i.id = id
      · simp [hi, Ne.symm hid]
      · simp [hi]

/-- The job an `add` returns is the one it was asked for, unless another one has its id. -/
theorem add_content {name : String} {data : Json} {opts : JobsOptions} {now : ℕ}
    (h : q.HoldsOnly (q.add name data opts now).1.id name data) :
    (q.add name data opts now).1.name = name ∧ (q.add name data opts now).1.data = data := by
  cases hdup : q.duplicate opts with
  | some j =>
    rw [add_of_duplicate_eq_some hdup] at h ⊢
    obtain ⟨custom, -, hj⟩ := Option.bind_eq_some_iff.mp hdup
    exact h j (by rwa [getJob_id hj])
  | none =>
    rw [add_eq_put hdup]
    exact ⟨rfl, rfl⟩

theorem add_id_of_customId {opts : JobsOptions} {id : String}
    (hc : (q.defaultJobOptions.spread opts).customId = some id) (name : String) (data : Json)
    (now : ℕ) : (q.add name data opts now).1.id = id := by
  cases hdup : q.duplicate opts with
  | some j =>
    rw [add_of_duplicate_eq_some hdup]
    rw [duplicate, hc] at hdup
    exact getJob_id hdup
  | none => rw [add_eq_put hdup, newJob_id_of_some hc]

/-- An `add` never returns the empty id. -/
theorem add_id_ne_empty (name : String) (data : Json) (opts : JobsOptions) (now : ℕ) :
    (q.add name data opts now).1.id ≠ "" := by
  cases hc : (q.defaultJobOptions.spread opts).customId with
  | none =>
    have hdup : q.duplicate opts = none := by rw [duplicate, hc, Option.bind_none]
    rw [add_eq_put hdup, newJob_id_of_none hc]
    exact toString_ne_empty _
  | some id =>
    rw [add_id_of_customId hc]
    simpa using (Option.filter_eq_some_iff.mp hc).2

/-- An `add` with an id of the job's own goes under that id. -/
theorem add_id_of_jobId {opts : JobsOptions} {id : String} (h : opts.jobId = .value id)
    (hid : id ≠ "") (name : String) (data : Json) (now : ℕ) :
    (q.add name data opts now).1.id = id :=
  add_id_of_customId (JobsOptions.customId_spread h hid) name data now

end Queue

end KitiumJobQueue.Bull
