import KitiumJobQueue.Bull.Lifecycle

/-!
# What becomes of the jobs under an id

The steps of a job, looked at from outside: which ids lead to a job that may still be run
(`HasOpen`), and in which states jobs come to be. A step of one job leaves those under all other ids
open (`KeepsOpen`), and the steps that end no attempt leave open the one it is about, too. In
`Moves` the jobs that are stored after a step were stored before, but for one.
-/

namespace KitiumJobQueue.Bull.Queue

/-- A job that may still be run is stored under the id. -/
def HasOpen (q : Queue) (id : String) : Prop := ∃ job ∈ q.jobs, job.id = id ∧ job.state.isOpen

instance (q : Queue) (id : String) : Decidable (q.HasOpen id) :=
  inferInstanceAs (Decidable (∃ job ∈ q.jobs, job.id = id ∧ job.state.isOpen))

/-- The ids that led to an open job still do, those in `closed` apart. -/
def KeepsOpen (q q' : Queue) (closed : String → Prop) : Prop :=
  ∀ id, q.HasOpen id → q'.HasOpen id ∨ closed id

/-- The jobs of `q'` are those of `q`, but for some meeting `moved`. -/
def Moves (q q' : Queue) (moved : Job → Prop) : Prop := ∀ job ∈ q'.jobs, job ∈ q.jobs ∨ moved job

variable {q q' : Queue} {jobId : String} {closed : String → Prop} {moved : Job → Prop}

theorem KeepsOpen.refl (q : Queue) : q.KeepsOpen q closed := fun _ => .inl

theorem KeepsOpen.mono {closed' : String → Prop} (h : q.KeepsOpen q' closed)
    (hclosed : ∀ id, closed id → closed' id) : q.KeepsOpen q' closed' :=
  fun id hid => (h id hid).imp_right (hclosed id)

theorem KeepsOpen.trans {q'' : Queue} (h : q.KeepsOpen q' closed) (h' : q'.KeepsOpen q'' closed) :
    q.KeepsOpen q'' closed :=
  fun id hid => (h id hid).elim (h' id) .inr

theorem Moves.mono {moved' : Job → Prop} (h : q.Moves q' moved)
    (hmoved : ∀ job, moved job → moved' job) : q.Moves q' moved' :=
  fun job hjob => (h job hjob).imp_right (hmoved job)

/-! ## Storing and dropping -/

theorem keepsOpen_filter {f : Job → Bool} (hf : ∀ job ∈ q.jobs, job.state.isOpen → f job) :
    q.KeepsOpen { q with jobs := q.jobs.filter f } closed := by
  rintro id ⟨job, hjob, hid, hopen⟩
  exact .inl ⟨job, List.mem_filter.mpr ⟨hjob, hf job hjob hopen⟩, hid, hopen⟩

/-- Finished jobs that are not among the newest go. -/
theorem keepsOpen_keepNewest (q : Queue) {st : JobState} (hst : st.isOpen = false) (count : ℕ) :
    q.KeepsOpen (q.keepNewest st count) closed := by
  refine keepsOpen_filter fun job _ hopen => decide_eq_true (.inl ?_)
  rintro rfl
  exact Bool.false_ne_true (hst.symm.trans hopen)

theorem moves_filter (q : Queue) (f : Job → Bool) :
    q.Moves { q with jobs := q.jobs.filter f } moved :=
  fun _ hjob => .inl (List.mem_filter.mp hjob).1

theorem keepsOpen_remove (q : Queue) (jobId : String) :
    q.KeepsOpen (q.remove jobId) fun id => id = jobId := by
  rintro id ⟨job, hjob, hid, hopen⟩
  by_cases heq : id = jobId
  · exact .inr heq
  · exact .inl ⟨job, List.mem_filter.mpr ⟨hjob, decide_eq_true (hid.trans_ne heq)⟩, hid, hopen⟩

theorem keepsOpen_put (q : Queue) (job : Job) : q.KeepsOpen (q.put job) fun id => id = job.id := by
  intro id hid
  rcases keepsOpen_remove q job.id id hid with ⟨job', hjob', hid', hopen⟩ | heq
  · exact .inl ⟨job', List.mem_cons_of_mem _ hjob', hid', hopen⟩
  · exact .inr heq

/-- An open job is stored. -/
theorem keepsOpen_put_of_isOpen {job : Job} (hjob : job.state.isOpen) :
    q.KeepsOpen (q.put job) closed := by
  intro id hid
  rcases keepsOpen_put q job id hid with hopen | rfl
  · exact .inl hopen
  · exact .inl ⟨job, List.mem_cons_self, rfl, hjob⟩

theorem moves_put (q : Queue) (job : Job) : q.Moves (q.put job) fun job' => job' = job := by
  intro job' hjob'
  rcases List.mem_cons.mp hjob' with rfl | hjob'
  · exact .inr rfl
  · exact .inl (List.mem_filter.mp hjob').1

/-! ## Additions -/

theorem isOpen_initialState (opts : JobsOptions) : (initialState opts).isOpen := by
  unfold initialState
  split
  · rfl
  · split
    · rfl
    · rfl

theorem keepsOpen_add (q : Queue) (name : String) (data : Json) (opts : JobsOptions) (now : ℕ) :
    q.KeepsOpen (q.add name data opts now).2 closed := by
  cases hdup : q.duplicate opts with
  | some job =>
    rw [add_of_duplicate_eq_some hdup]
    exact .refl q
  | none =>
    rw [add_eq_put hdup]
    have hopen : (q.newJob name data opts now).state.isOpen := isOpen_initialState _
    exact keepsOpen_put_of_isOpen hopen

/-- A new job is in the state it starts in. -/
theorem moves_add (q : Queue) (name : String) (data : Json) (opts : JobsOptions) (now : ℕ) :
    q.Moves (q.add name data opts now).2 fun job => ∃ opts, job.state = initialState opts := by
  intro job hjob
  exact (mem_jobs_add hjob).imp_right fun hnew => ⟨_, congrArg Job.state hnew⟩

/-! ## The steps of a job -/

theorem isOpen_readyState (job : Job) : (readyState job).isOpen := by
  unfold readyState
  split
  · rfl
  · rfl

section Steps

theorem keepsOpen_start (h : q.start jobId = some q') : q.KeepsOpen q' closed := by
  obtain ⟨job, -, -, -, h⟩ := step_eq_some h
  obtain rfl := Option.some.inj h
  exact keepsOpen_put_of_isOpen rfl

theorem moves_start (h : q.start jobId = some q') :
    q.Moves q' fun job => job.id = jobId ∧ job.state = .active := by
  obtain ⟨job, -, rfl, -, h⟩ := step_eq_some h
  obtain rfl := Option.some.inj h
  exact (moves_put q _).mono fun _ heq => heq ▸ ⟨rfl, rfl⟩

theorem keepsOpen_promote (h : q.promote jobId = some q') : q.KeepsOpen q' closed := by
  obtain ⟨job, -, -, -, h⟩ := step_eq_some h
  obtain rfl := Option.some.inj h
  exact keepsOpen_put_of_isOpen (isOpen_readyState job)

theorem moves_promote (h : q.promote jobId = some q') :
    q.Moves q' fun job => ∃ job', job.state = readyState job' := by
  obtain ⟨job, -, -, -, h⟩ := step_eq_some h
  obtain rfl := Option.some.inj h
  exact (moves_put q _).mono fun _ heq => ⟨job, congrArg Job.state heq⟩

theorem keepsOpen_moveToWait (h : q.moveToWait jobId = some q') : q.KeepsOpen q' closed := by
  obtain ⟨job, -, -, -, h⟩ := step_eq_some h
  obtain rfl := Option.some.inj h
  exact keepsOpen_put_of_isOpen (isOpen_readyState job)

theorem moves_moveToWait (h : q.moveToWait jobId = some q') :
    q.Moves q' fun job => ∃ job', job.state = readyState job' := by
  obtain ⟨job, -, -, -, h⟩ := step_eq_some h
  obtain rfl := Option.some.inj h
  exact (moves_put q _).mono fun _ heq => ⟨job, congrArg Job.state heq⟩

theorem keepsOpen_removeUnlocked (h : q.removeUnlocked jobId = some q') :
    q.KeepsOpen q' fun id => id = jobId := by
  obtain ⟨job, -, -, -, h⟩ := step_eq_some h
  obtain rfl := Option.some.inj h
  exact keepsOpen_remove q jobId

theorem moves_removeUnlocked (h : q.removeUnlocked jobId = some q') : q.Moves q' moved := by
  obtain ⟨job, -, -, -, h⟩ := step_eq_some h
  obtain rfl := Option.some.inj h
  exact moves_filter q _

theorem keepsOpen_complete (h : q.complete jobId = some q') :
    q.KeepsOpen q' fun id => id = jobId := by
  obtain ⟨job, -, rfl, -, h⟩ := step_eq_some h
  have hput : q.KeepsOpen (q.put { job with state := .completed }) fun id => id = job.id :=
    keepsOpen_put q _
  split at h
  · obtain rfl := Option.some.inj h
    exact keepsOpen_remove q job.id
  · obtain rfl := Option.some.inj h
    exact hput.trans (keepsOpen_keepNewest _ rfl _)
  · obtain rfl := Option.some.inj h
    exact hput
  · obtain rfl := Option.some.inj h
    exact hput

theorem moves_complete (h : q.complete jobId = some q') :
    q.Moves q' fun job => job.id = jobId ∧ job.state = .completed := by
  obtain ⟨job, -, rfl, -, h⟩ := step_eq_some h
  have hput : q.Moves (q.put { job with state := .completed }) fun job' =>
      job'.id = job.id ∧ job'.state = .completed :=
    (moves_put q _).mono fun _ heq => heq ▸ ⟨rfl, rfl⟩
  split at h
  · obtain rfl := Option.some.inj h
    exact moves_filter q _
  · obtain rfl := Option.some.inj h
    exact fun job' hjob' => hput job' (List.mem_filter.mp hjob').1
  · obtain rfl := Option.some.inj h
    exact hput
  · obtain rfl := Option.some.inj h
    exact hput

theorem keepsOpen_fail {isDelayed : Bool} (h : q.fail jobId isDelayed = some q') :
    q.KeepsOpen q' fun id => id = jobId := by
  obtain ⟨job, -, rfl, -, h⟩ := step_eq_some h
  split at h
  · obtain rfl := Option.some.inj h
    exact keepsOpen_put q _
  · split at h
    · obtain rfl := Option.some.inj h
      exact keepsOpen_remove q job.id
    · obtain rfl := Option.some.inj h
      exact keepsOpen_put q _

/-- A job that has failed waits for the next attempt, with a delay or without, or for none. -/
theorem moves_fail {isDelayed : Bool} (h : q.fail jobId isDelayed = some q') :
    q.Moves q' fun job => job.id = jobId ∧ (job.state = .failed ∨ job.state = .delayed ∨
      ∃ job', job.state = readyState job') := by
  obtain ⟨job, -, rfl, -, h⟩ := step_eq_some h
  split at h
  · obtain rfl := Option.some.inj h
    refine (moves_put q _).mono fun _ heq => heq ▸ ⟨rfl, .inr ?_⟩
    cases isDelayed with
    | true => exact .inl rfl
    | false => exact .inr ⟨job, rfl⟩
  · split at h
    · obtain rfl := Option.some.inj h
      exact moves_filter q _
    · obtain rfl := Option.some.inj h
      exact (moves_put q _).mono fun _ heq => heq ▸ ⟨rfl, .inl rfl⟩

end Steps

/-! ## Removing many jobs at once -/

theorem keepsOpen_cleanOne (hq : q.ids.Nodup) (rule : CleanRule) {st : JobState}
    (hst : st.isOpen = false) : q.KeepsOpen (q.cleanOne rule st) closed := by
  unfold cleanOne
  split
  · next picked hpick =>
    obtain ⟨hpicked, hpickedst⟩ := mem_inState.mp (rule.pick_mem hpick)
    refine keepsOpen_filter fun job hjob hopen => ?_
    have hne : job.id ≠ picked.id := by
      intro heq
      rw [eq_of_id_eq hq hjob hpicked heq, hpickedst, hst] at hopen
      exact Bool.false_ne_true hopen
    exact decide_eq_true hne
  · exact .refl q

/-- Finished jobs go, and no other. -/
theorem keepsOpen_clean (hq : q.ids.Nodup) (rule : CleanRule) (limit : ℕ) {st : JobState}
    (hst : st.isOpen = false) : q.KeepsOpen (q.clean rule limit st) closed := by
  unfold clean
  generalize (if limit = 0 then (q.inState st).length else limit) = n
  induction n generalizing q with
  | zero => exact .refl q
  | succ n ih =>
    exact (keepsOpen_cleanOne hq rule hst).trans (ih (narrows_cleanOne hq rule st).nodup)

theorem moves_clean (q : Queue) (rule : CleanRule) (limit : ℕ) (st : JobState) :
    q.Moves (q.clean rule limit st) moved := by
  unfold clean
  generalize (if limit = 0 then (q.inState st).length else limit) = n
  induction n generalizing q with
  | zero => exact fun _ => .inl
  | succ n ih =>
    intro job hjob
    refine (ih (q.cleanOne rule st) job hjob).imp_left fun hmem => ?_
    unfold cleanOne at hmem
    split at hmem
    · exact (List.mem_filter.mp hmem).1
    · exact hmem

/-! ## Steps that are made or not -/

theorem keepsOpen_getD {step : Option Queue} (h : ∀ q', step = some q' → q.KeepsOpen q' closed) :
    q.KeepsOpen (step.getD q) closed := by
  cases step with
  | none => exact .refl q
  | some q' => exact h q' rfl

theorem moves_getD {step : Option Queue} (h : ∀ q', step = some q' → q.Moves q' moved) :
    q.Moves (step.getD q) moved := by
  cases step with
  | none => exact fun _ => .inl
  | some q' => exact h q' rfl

end KitiumJobQueue.Bull.Queue
