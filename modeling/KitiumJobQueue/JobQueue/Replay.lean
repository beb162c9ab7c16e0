import KitiumJobQueue.Foundations.Systems
import KitiumJobQueue.JobQueue.DeadLetter

/-!
# Replaying without losing a job

`replayDLQ` adds a job to the main queue under the id it has in the dead letter queue, and then
removes it there. The two queues number their jobs independently: if the main queue stores another
job under that id the `add` creates nothing, and the job is lost with the removal. The same
mechanism protects a replay that was cut short after its `add`, as long as the job it created is
still stored.

`Consistent` says that neither happens: the main queue stores a job under the id exactly if a replay
has created it. In every run whose calls remove jobs in such states only, each removed job has been
created once, before its removal (`safe_of_calls`).
-/

namespace KitiumJobQueue.JobQueue

open Effects JavaScript Bull

/-! ## The log of replays -/

/-- What a replay does to a job. -/
inductive Entry
  | created (jobId : String)
  | removed (jobId : String)
  deriving DecidableEq

/-- The entry an effect makes in the log. -/
def Effect.entry? : Effect → Option Entry
  | .created jobId => some (.created jobId)
  | .removed jobId => some (.removed jobId)
  | _ => none

/-- The log of all replays, the latest entry first. -/
def State.log (s : State) : List Entry := s.trace.filterMap Effect.entry?

/-- How many jobs have been created for a job of the dead letter queue. -/
def creations (log : List Entry) (jobId : String) : ℕ := log.count (.created jobId)

/-- A job is removed after exactly one job has been created for it, and none is created later. -/
def Orderly : List Entry → Prop
  | [] => True
  | .created jobId :: log => .removed jobId ∉ log ∧ Orderly log
  | .removed jobId :: log => creations log jobId = 1 ∧ Orderly log

theorem creations_created_self (log : List Entry) (jobId : String) :
    creations (.created jobId :: log) jobId = creations log jobId + 1 := List.count_cons_self

theorem creations_created_of_ne {id id' : String} (h : id ≠ id') (log : List Entry) :
    creations (.created id :: log) id' = creations log id' :=
  List.count_cons_of_ne (fun heq => h (Entry.created.inj heq))

theorem creations_removed (log : List Entry) (id id' : String) :
    creations (.removed id :: log) id' = creations log id' := by
  have hne : Entry.removed id ≠ .created id' := nofun
  exact List.count_cons_of_ne hne

/-- For a removed job one job has been created, whatever has happened since. -/
theorem Orderly.creations_eq_one {log : List Entry} (h : Orderly log) {jobId : String}
    (hmem : .removed jobId ∈ log) : creations log jobId = 1 := by
  induction log with
  | nil => exact absurd hmem List.not_mem_nil
  | cons entry log ih =>
    cases entry with
    | created id =>
      have hmem := (List.mem_cons.mp hmem).resolve_left nofun
      have hne : id ≠ jobId := fun heq => h.1 (heq ▸ hmem)
      rw [creations_created_of_ne hne]
      exact ih h.2 hmem
    | removed id =>
      rw [creations_removed]
      rcases List.mem_cons.mp hmem with heq | hmem
      · rw [Entry.removed.inj heq]
        exact h.1
      · exact ih h.2 hmem

/-! ## What the calls do to the log -/

section Calls

variable {config : QueueConfig} {s : State} {job : Job}

theorem duplicate_replayOptions (q : Queue) (hid : job.id ≠ "") :
    q.duplicate (replayOptions config job) = q.getJob job.id := by
  rw [Queue.duplicate, JobsOptions.customId_spread rfl hid, Option.bind_some]

/-- An `add` under an id that is stored creates nothing. -/
theorem afterAdd_of_mem (config : QueueConfig) (now : ℕ) (hid : job.id ≠ "")
    (h : job.id ∈ s.queue.ids) :
    (s.afterAdd config now job).log = s.log ∧
      (s.afterAdd config now job).dlqQueue = s.dlqQueue ∧
      (s.afterAdd config now job).queue.ids = s.queue.ids := by
  obtain ⟨j, hj⟩ : ∃ j, s.queue.getJob job.id = some j :=
    Option.ne_none_iff_exists'.mp fun hnone => Queue.getJob_eq_none.mp hnone h
  have hdup : s.queue.duplicate (replayOptions config job) = some j :=
    (duplicate_replayOptions s.queue hid).trans hj
  unfold State.afterAdd State.add
  rw [Queue.add_of_duplicate_eq_some hdup, hdup]
  exact ⟨rfl, rfl, rfl⟩

/-- An `add` under an id that is not stored creates a job, and is logged. -/
theorem afterAdd_of_not_mem (config : QueueConfig) (now : ℕ) (hid : job.id ≠ "")
    (h : job.id ∉ s.queue.ids) :
    (s.afterAdd config now job).log = .created job.id :: s.log ∧
      (s.afterAdd config now job).dlqQueue = s.dlqQueue ∧
      (s.afterAdd config now job).queue.ids = job.id :: s.queue.ids := by
  have hdup : s.queue.duplicate (replayOptions config job) = none :=
    (duplicate_replayOptions s.queue hid).trans (Queue.getJob_eq_none.mpr h)
  have hnew : (s.queue.newJob job.name job.data (replayOptions config job) now).id = job.id :=
    Queue.newJob_id_of_some (JobsOptions.customId_spread rfl hid) _ _ _
  unfold State.afterAdd State.add
  rw [Queue.add_of_duplicate_eq_none hdup (hnew ▸ h), hdup]
  refine ⟨?_, rfl, ?_⟩
  · show Entry.created _ :: _ = _
    rw [hnew]
    rfl
  · show _ :: _ = _
    rw [hnew]
    rfl

/-- Removing a stored job of the dead letter queue is logged. -/
theorem removeDlqJob_of_mem {q : Queue} (hq : s.dlqQueue = some q) {jobId : String}
    (h : jobId ∈ q.ids) :
    (s.removeDlqJob jobId).log = .removed jobId :: s.log ∧
      (s.removeDlqJob jobId).dlqQueue = some (q.remove jobId) ∧
      (s.removeDlqJob jobId).queue = s.queue := by
  unfold State.removeDlqJob
  rw [hq]
  simp only [if_pos h]
  exact ⟨rfl, rfl, rfl⟩

end Calls

/-! ## The invariant -/

/-- The main queue stores a job under the id exactly if a replay has created one for it. -/
def Consistent (s : State) (jobId : String) : Prop :=
  (jobId ∈ s.queue.ids ∧ creations s.log jobId = 1) ∨
    (jobId ∉ s.queue.ids ∧ creations s.log jobId = 0)

/-- The dead letter queue numbers its jobs, and the jobs removed by replays do not come back. -/
structure Numbered (q : Queue) (log : List Entry) : Prop where
  wellFormed : q.WellFormed
  nonempty : "" ∉ q.ids
  defaults : q.defaultJobOptions = dlqJobOptions
  gone : ∀ id, .removed id ∈ log → id ∉ q.ids ∧ ∀ n, q.counter < n → id ≠ toString n

theorem Numbered.created {q : Queue} {log : List Entry} (h : Numbered q log) (jobId : String) :
    Numbered q (.created jobId :: log) where
  wellFormed := h.wellFormed
  nonempty := h.nonempty
  defaults := h.defaults
  gone id hmem := h.gone id ((List.mem_cons.mp hmem).resolve_left nofun)

theorem Numbered.removed {q : Queue} {log : List Entry} (h : Numbered q log) {jobId : String}
    (hmem : jobId ∈ q.ids) : Numbered (q.remove jobId) (.removed jobId :: log) where
  wellFormed := h.wellFormed.remove jobId
  nonempty hempty := h.nonempty (Queue.mem_ids_remove.mp hempty).1
  defaults := h.defaults
  gone id hid := by
    rcases List.mem_cons.mp hid with heq | hid
    · obtain rfl := Entry.removed.inj heq
      exact ⟨fun hid => (Queue.mem_ids_remove.mp hid).2 rfl,
        fun n hn heq => h.wellFormed.fresh n hn (heq ▸ hmem)⟩
    · obtain ⟨hid, hfuture⟩ := h.gone id hid
      exact ⟨fun hmem => hid (Queue.mem_ids_remove.mp hmem).1, hfuture⟩

/-- The dead letter queue is there and goes with the log. -/
def State.Keeps (s : State) (q : Queue) : Prop := s.dlqQueue = some q ∧ Numbered q s.log

section Round

variable (config : QueueConfig) (answers : ℕ → Answer Thrown) (now : ℕ) {s : State} {q : Queue}
  {job : Job}

/-- The `add` of a replay: the log stays orderly or not, one job has been created afterwards exactly
if the state was consistent, and other jobs are not concerned. -/
theorem afterAdd_spec (h : s.Keeps q) (hjob : job.id ∈ q.ids) :
    (s.afterAdd config now job).Keeps q ∧
      (Orderly (s.afterAdd config now job).log ↔ Orderly s.log) ∧
      (creations (s.afterAdd config now job).log job.id = 1 ↔ Consistent s job.id) ∧
      ∀ id, id ≠ job.id → (Consistent (s.afterAdd config now job) id ↔ Consistent s id) := by
  obtain ⟨hdlq, hnum⟩ := h
  have hid : job.id ≠ "" := fun heq => hnum.nonempty (heq ▸ hjob)
  have hnotgone : .removed job.id ∉ s.log := fun hmem => (hnum.gone _ hmem).1 hjob
  unfold State.Keeps Consistent
  by_cases hmem : job.id ∈ s.queue.ids
  · obtain ⟨hlog, hdlq', hids⟩ := afterAdd_of_mem config now hid hmem
    rw [hlog, hdlq', hids]
    refine ⟨⟨hdlq, hnum⟩, Iff.rfl, ?_, fun _ _ => Iff.rfl⟩
    simp only [hmem, not_true_eq_false, false_and, or_false, true_and]
  · obtain ⟨hlog, hdlq', hids⟩ := afterAdd_of_not_mem config now hid hmem
    rw [hlog, hdlq', hids, creations_created_self]
    refine ⟨⟨hdlq, hnum.created _⟩, and_iff_right hnotgone, ?_, fun id hne => ?_⟩
    · simp only [hmem, not_false_eq_true, false_and, false_or, true_and]
      omega
    · rw [creations_created_of_ne hne.symm, List.mem_cons, or_iff_right hne]

/-- The removal of a replay: the log stays orderly if one job has been created. -/
theorem removeDlqJob_spec (h : s.Keeps q) (hjob : job.id ∈ q.ids) :
    (s.removeDlqJob job.id).Keeps (q.remove job.id) ∧
      (Orderly (s.removeDlqJob job.id).log ↔ creations s.log job.id = 1 ∧ Orderly s.log) ∧
      ∀ id, Consistent (s.removeDlqJob job.id) id ↔ Consistent s id := by
  obtain ⟨hdlq, hnum⟩ := h
  obtain ⟨hlog, hdlq', hqueue⟩ := removeDlqJob_of_mem hdlq hjob
  unfold State.Keeps Consistent
  rw [hlog, hdlq', hqueue]
  refine ⟨⟨rfl, hnum.removed hjob⟩, Iff.rfl, fun id => ?_⟩
  rw [creations_removed]

/-- A round of the loop. -/
theorem afterRound_spec (h : s.Keeps q) (hjob : job.id ∈ q.ids) (k : ℕ) :
    ∃ q', (s.afterRound config answers now k job).Keeps q' ∧
      (∀ id ≠ job.id, id ∈ q.ids → id ∈ q'.ids) ∧
      (Orderly (s.afterRound config answers now k job).log ↔
        ((answers k).IsAnswered ∧ (answers (k + 1)).TakesEffect → Consistent s job.id) ∧
          Orderly s.log) ∧
      ∀ id ≠ job.id, (Consistent (s.afterRound config answers now k job) id ↔ Consistent s id) := by
  obtain ⟨hadd, horderly, hone, hothers⟩ := afterAdd_spec config now h hjob
  have hnot : ∀ {p : Prop}, ¬ p → ((p → Consistent s job.id) ∧ Orderly s.log ↔ Orderly s.log) :=
    fun hp => and_iff_right fun h => absurd h hp
  unfold State.afterRound
  cases hk : answers k with
  | answered =>
    by_cases heffect : (answers (k + 1)).TakesEffect
    · obtain ⟨hremove, horderly', hothers'⟩ := removeDlqJob_spec hadd hjob
      simp only [if_pos heffect]
      refine ⟨_, hremove, fun id hne hid => Queue.mem_ids_remove.mpr ⟨hid, hne⟩, ?_,
        fun id hne => (hothers' id).trans (hothers id hne)⟩
      rw [horderly', hone, horderly]
      exact and_congr_left fun _ => ⟨fun h _ => h, fun h => h ⟨trivial, heffect⟩⟩
    · simp only [if_neg heffect]
      exact ⟨q, hadd, fun _ _ hid => hid, horderly.trans (hnot fun h => heffect h.2).symm, hothers⟩
  | rejected e applied =>
    cases applied with
    | true => exact ⟨q, hadd, fun _ _ hid => hid, horderly.trans (hnot fun h => h.1).symm, hothers⟩
    | false => exact ⟨q, h, fun _ _ hid => hid, (hnot fun h => h.1).symm, fun _ _ => Iff.rfl⟩

end Round

/-! ## A call -/

/-- The removal of the `i`-th job takes effect in a loop whose calls are numbered from `k`: all
calls before it are answered. -/
def Removes (answers : ℕ → Answer Thrown) (k i : ℕ) : Prop :=
  (∀ m < 2 * i + 1, (answers (k + m)).IsAnswered) ∧ (answers (k + (2 * i + 1))).TakesEffect

theorem removes_zero {answers : ℕ → Answer Thrown} {k : ℕ} :
    Removes answers k 0 ↔ (answers k).IsAnswered ∧ (answers (k + 1)).TakesEffect := by
  unfold Removes
  refine and_congr_left fun _ => ⟨fun h => h 0 (by omega), fun h m hm => ?_⟩
  obtain rfl : m = 0 := by omega
  exact h

theorem removes_succ {answers : ℕ → Answer Thrown} {k i : ℕ} :
    Removes answers k (i + 1) ↔
      ((answers k).IsAnswered ∧ (answers (k + 1)).IsAnswered) ∧ Removes answers (k + 2) i := by
  have hshift : ∀ m, k + 2 + m = k + (m + 2) := fun m => by omega
  unfold Removes
  simp only [hshift]
  constructor
  · intro ⟨hbefore, heffect⟩
    exact ⟨⟨hbefore 0 (by omega), hbefore 1 (by omega)⟩, fun m hm => hbefore (m + 2) (by omega),
      heffect⟩
  · intro ⟨⟨h₀, h₁⟩, hbefore, heffect⟩
    refine ⟨fun m hm => ?_, heffect⟩
    match m with
    | 0 => exact h₀
    | 1 => exact h₁
    | m + 2 => exact hbefore m (by omega)

/-- The jobs a loop removes: the first one, and if it goes on those the rest of it removes. -/
theorem forall_removes_cons {answers : ℕ → Answer Thrown} {k : ℕ} {job : Job} {jobs : List Job}
    {P : Job → Prop} :
    (∀ i job', (job :: jobs)[i]? = some job' → Removes answers k i → P job') ↔
      ((answers k).IsAnswered ∧ (answers (k + 1)).TakesEffect → P job) ∧
        ((answers k).IsAnswered ∧ (answers (k + 1)).IsAnswered →
          ∀ i job', jobs[i]? = some job' → Removes answers (k + 2) i → P job') := by
  constructor
  · intro hall
    exact ⟨fun hfirst => hall 0 job rfl (removes_zero.mpr hfirst),
      fun hgoes i job' hi hremoves => hall (i + 1) job' hi (removes_succ.mpr ⟨hgoes, hremoves⟩)⟩
  · intro ⟨hfirst, hrest⟩ i job' hi hremoves
    cases i with
    | zero =>
      obtain rfl := Option.some.inj hi
      exact hfirst (removes_zero.mp hremoves)
    | succ i =>
      obtain ⟨hgoes, hremoves⟩ := removes_succ.mp hremoves
      exact hrest hgoes i job' hi hremoves

section Loop

variable {config : QueueConfig} {answers : ℕ → Answer Thrown} {now : ℕ} {q : Queue}

/-- The loop leaves the log orderly exactly if each job is removed in a consistent state. -/
theorem replayJobs_spec (config : QueueConfig) (answers : ℕ → Answer Thrown) (now : ℕ)
    {jobs : List Job} (hnodup : (jobs.map Job.id).Nodup)
    (hjobs : ∀ job ∈ jobs, job.id ∈ q.ids) (moved : ℕ) {r : Remote State}
    (h : r.server.Keeps q) :
    (∃ q', ((replayJobs config answers now jobs moved).run r).2.server.Keeps q') ∧
      (Orderly ((replayJobs config answers now jobs moved).run r).2.server.log ↔
        (∀ i job, jobs[i]? = some job → Removes answers r.calls i →
          Consistent r.server job.id) ∧ Orderly r.server.log) := by
  induction jobs generalizing q moved r with
  | nil => exact ⟨⟨q, h⟩, (and_iff_right fun i job hi => nomatch hi).symm⟩
  | cons job jobs ih =>
    rw [List.map_cons, List.nodup_cons] at hnodup
    have hne : ∀ job' ∈ jobs, job'.id ≠ job.id := fun job' hmem heq =>
      hnodup.1 (heq ▸ List.mem_map_of_mem hmem)
    obtain ⟨q', hkeeps, hstill, horderly, hothers⟩ :=
      afterRound_spec config answers now h (hjobs job List.mem_cons_self) r.calls
    rcases run_replayJobs_cons config answers now job jobs moved r with
      ⟨h₀, h₁, hrun⟩ | ⟨hcut, e, calls, hrun⟩
    · obtain ⟨hkeeps', horderly'⟩ := ih hnodup.2
        (fun job' hmem => hstill _ (hne job' hmem) (hjobs job' (List.mem_cons_of_mem _ hmem)))
        (moved + 1) (r := ⟨r.server.afterRound config answers now r.calls job, r.calls + 2⟩) hkeeps
      -- the round has not changed what is true of the other jobs
      have hsame : (∀ i job', jobs[i]? = some job' → Removes answers (r.calls + 2) i →
            Consistent (r.server.afterRound config answers now r.calls job) job'.id) ↔
          ∀ i job', jobs[i]? = some job' → Removes answers (r.calls + 2) i →
            Consistent r.server job'.id :=
        forall_congr' fun i => forall_congr' fun job' => forall_congr' fun hi =>
          imp_congr_right fun _ => hothers _ (hne job' (List.mem_of_getElem? hi))
      have hgoes : (answers r.calls).IsAnswered ∧ (answers (r.calls + 1)).IsAnswered := ⟨h₀, h₁⟩
      rw [hrun, forall_removes_cons, imp_iff_right hgoes]
      refine ⟨hkeeps', horderly'.trans ?_⟩
      rw [horderly, hsame, and_left_comm, and_assoc]
    · rw [hrun, forall_removes_cons, and_iff_left fun hgoes => absurd hgoes hcut]
      exact ⟨⟨q', hkeeps⟩, horderly⟩

theorem dlqQueue_afterAdd (config : QueueConfig) (now : ℕ) (s : State) (job : Job) :
    (s.afterAdd config now job).dlqQueue = s.dlqQueue := by
  unfold State.afterAdd State.add
  dsimp only
  split
  · rfl
  · rfl

/-- Nothing is taken out of the log. -/
theorem mem_log_afterRound {s : State} {entry : Entry} (k : ℕ) (job : Job) (h : entry ∈ s.log) :
    entry ∈ (s.afterRound config answers now k job).log := by
  apply State.afterRound_invariant config answers now (I := fun s => entry ∈ s.log) h
  · unfold State.afterAdd State.add
    dsimp only
    split
    · exact List.mem_cons_of_mem _ h
    · exact h
  · intro hadd
    unfold State.removeDlqJob
    split
    · exact hadd
    · split
      · exact List.mem_cons_of_mem _ hadd
      · exact hadd

/-- A loop that comes to its end has removed the jobs it was given, and no others. -/
theorem replayJobs_ok {jobs : List Job} (hnodup : (jobs.map Job.id).Nodup)
    (hjobs : ∀ job ∈ jobs, job.id ∈ q.ids) {moved n : ℕ} {r r' : Remote State}
    (hdlq : r.server.dlqQueue = some q)
    (hok : (replayJobs config answers now jobs moved).run r = (.ok n, r')) :
    n = moved + jobs.length ∧ (∀ id ∈ jobs.map Job.id, .removed id ∈ r'.server.log) ∧
      ∃ q', r'.server.dlqQueue = some q' ∧
        ∀ id, id ∈ q'.ids ↔ id ∈ q.ids ∧ id ∉ jobs.map Job.id := by
  induction jobs generalizing q moved r with
  | nil =>
    obtain ⟨hn, rfl⟩ := Prod.mk.inj hok
    refine ⟨(Except.ok.inj hn).symm, fun id hid => absurd hid List.not_mem_nil, q, hdlq, ?_⟩
    exact fun id => (and_iff_left List.not_mem_nil).symm
  | cons job jobs ih =>
    rw [List.map_cons, List.nodup_cons] at hnodup
    rcases run_replayJobs_cons config answers now job jobs moved r with
      ⟨h₀, h₁, hrun⟩ | ⟨-, e, calls, hrun⟩
    · have hround : r.server.afterRound config answers now r.calls job =
          (r.server.afterAdd config now job).removeDlqJob job.id := by
        unfold State.afterRound
        rw [h₀.eq, h₁.eq]
        rfl
      obtain ⟨hlog, hdlq', -⟩ := removeDlqJob_of_mem
        ((dlqQueue_afterAdd config now r.server job).trans hdlq)
        (hjobs job List.mem_cons_self)
      rw [← hround] at hlog hdlq'
      rw [hrun] at hok
      have hstill : ∀ job' ∈ jobs, job'.id ∈ (q.remove job.id).ids := fun job' hmem =>
        Queue.mem_ids_remove.mpr ⟨hjobs job' (List.mem_cons_of_mem _ hmem),
          fun heq => hnodup.1 (heq ▸ List.mem_map_of_mem hmem)⟩
      obtain ⟨hn, hremoved, q', hq', hids⟩ := ih hnodup.2 hstill (r := ⟨_, _⟩) hdlq' hok
      refine ⟨?_, fun id hid => ?_, q', hq', fun id => ?_⟩
      · rw [hn, List.length_cons]
        omega
      · rcases List.mem_cons.mp hid with rfl | hid
        · have hfirst : Entry.removed job.id ∈
              (r.server.afterRound config answers now r.calls job).log := hlog ▸ List.mem_cons_self
          have hkept : Entry.removed job.id ∈ ((replayJobs config answers now jobs (moved + 1)).run
              ⟨r.server.afterRound config answers now r.calls job, r.calls + 2⟩).2.server.log :=
            replayJobs_invariant config answers now (I := fun s => Entry.removed job.id ∈ s.log)
              (fun s k job' _ => mem_log_afterRound k job') (moved + 1) hfirst
          rw [hok] at hkept
          exact hkept
        · exact hremoved id hid
      · rw [hids, Queue.mem_ids_remove, List.map_cons, List.mem_cons, not_or, and_assoc]
    · rw [hrun] at hok
      exact nomatch (Prod.mk.inj hok).1

end Loop

/-- The jobs of the dead letter queue that have gone. -/
def goneIds (before after : State) : List String :=
  match before.dlqQueue, after.dlqQueue with
  | some q, some q' => q.ids.filter (· ∉ q'.ids)
  | _, _ => []

/-- In a call every job is removed in a consistent state. The listing has the number `0`. -/
def CallConsistent (s : State) (limit : ℕ) (answers : ℕ → Answer Thrown) : Prop :=
  (answers 0).IsAnswered → ∀ i job, (s.dlqJobs limit)[i]? = some job → Removes answers 1 i →
    Consistent s job.id

section Call

variable (config : QueueConfig) (answers : ℕ → Answer Thrown) (now limit : ℕ)
  {s : State} {q : Queue}

theorem ids_dlqJobs_sublist (hq : s.dlqQueue = some q) :
    ((s.dlqJobs limit).map Job.id).Sublist q.ids := by
  unfold State.dlqJobs
  rw [hq]
  exact (((List.drop_sublist _ _).trans (List.take_sublist _ _)).trans List.filter_sublist).map _

theorem mem_log_replayDLQ (hq : s.dlqQueue = some q) {entry : Entry} (h : entry ∈ s.log) :
    entry ∈ ((replayDLQ config answers now limit).run ⟨s, 0⟩).2.server.log := by
  rcases run_replayDLQ config answers now (r := ⟨s, 0⟩) limit (by rw [hq]; rfl) with
    ⟨-, hrun⟩ | ⟨-, e, hrun⟩
  · rw [hrun]
    exact replayJobs_invariant config answers now (I := fun s => entry ∈ s.log)
      (fun s k job _ => mem_log_afterRound k job) 0 (r := ⟨s, 0 + 1⟩) h
  · rw [hrun]
    exact h

/-- **One call.** It leaves the log orderly exactly if it removes jobs in consistent states only,
and the number it returns is that of the jobs it has removed. -/
theorem replayDLQ_spec (h : s.Keeps q) {out : Except Thrown ℕ × Remote State}
    (hout : (replayDLQ config answers now limit).run ⟨s, 0⟩ = out) :
    (∃ q', out.2.server.Keeps q') ∧
      (Orderly out.2.server.log ↔ CallConsistent s limit answers ∧ Orderly s.log) ∧
      ∀ n, out.1 = .ok n → n = (goneIds s out.2.server).length ∧
        ∀ id ∈ goneIds s out.2.server, .removed id ∈ out.2.server.log := by
  have hsublist := ids_dlqJobs_sublist limit h.1
  have hnodup := h.2.wellFormed.nodup.sublist hsublist
  have hjobs : ∀ job ∈ s.dlqJobs limit, job.id ∈ q.ids := fun job hmem =>
    hsublist.subset (List.mem_map_of_mem hmem)
  rcases run_replayDLQ config answers now (r := ⟨s, 0⟩) limit (by rw [h.1]; rfl) with
    ⟨hlist, hrun⟩ | ⟨hlist, e, hrun⟩
  · rw [hout] at hrun
    obtain ⟨hkeeps, horderly⟩ :=
      replayJobs_spec config answers now hnodup hjobs 0
        (r := ⟨s, 0 + 1⟩) h
    rw [← hrun] at hkeeps horderly
    refine ⟨hkeeps, horderly.trans (and_congr_left fun _ => ⟨fun h _ => h, fun h => h hlist⟩), ?_⟩
    intro n hn
    have hok : (replayJobs config answers now (s.dlqJobs limit) 0).run ⟨s, 0 + 1⟩ =
        (.ok n, out.2) := by rw [← hrun, ← hn]
    obtain ⟨hcount, hremoved, q', hq', hids⟩ := replayJobs_ok hnodup hjobs h.1 hok
    have hperm : (goneIds s out.2.server).Perm ((s.dlqJobs limit).map Job.id) := by
      unfold goneIds
      rw [h.1, hq']
      refine (List.perm_ext_iff_of_nodup (h.2.wellFormed.nodup.filter _) hnodup).mpr fun id => ?_
      rw [List.mem_filter, decide_eq_true_eq, hids]
      constructor
      · intro ⟨hid, hnot⟩
        by_contra hmem
        exact hnot ⟨hid, hmem⟩
      · exact fun hmem => ⟨hsublist.subset hmem, fun h => h.2 hmem⟩
    refine ⟨?_, fun id hid => hremoved id (hperm.mem_iff.mp hid)⟩
    rw [hperm.length_eq, List.length_map, hcount, Nat.zero_add]
  · rw [hout] at hrun
    subst hrun
    exact ⟨⟨q, h⟩, (and_iff_right fun h => absurd h hlist).symm, fun n hn => nomatch hn⟩

end Call

/-! ## Successive calls -/

/-- A run: the state, and for each call that has resolved what it returned and which jobs of the
dead letter queue it removed. -/
structure World where
  state : State
  returns : List (ℕ × List String) := []

/-- What happens to a `JobQueue`. Between two calls another job may be moved to the dead letter
queue, and workers and producers may do anything to the main queue. -/
inductive Event
  | replayDLQ (limit : ℕ) (answers : ℕ → Answer Thrown) (now : ℕ)
  | moveJobToDLQ (dlqAdd notification : Answer Thrown) (now : ℕ) (timestamp : String) (job : Job)
    (error : JsError)
  | mainQueue (queue : Queue)

/-- The world after a call of `replayDLQ` has ended. -/
def World.replayed (w : World) (out : Except Thrown ℕ × Remote State) : World where
  state := out.2.server
  returns :=
    match out.1 with
    | .ok n => (n, goneIds w.state out.2.server) :: w.returns
    | .error _ => w.returns

/-- Every event can happen at any time. -/
def system (config : QueueConfig) : System World Event where
  step w
    | .replayDLQ limit answers now =>
      some (w.replayed ((replayDLQ config answers now limit).run ⟨w.state, 0⟩))
    | .moveJobToDLQ dlqAdd notification now timestamp job error =>
      some { w with
        state := ((moveJobToDLQ config dlqAdd notification now timestamp job error).run
          w.state).2 }
    | .mainQueue queue => some { w with state := { w.state with queue := queue } }

/-- The two queues at the beginning. -/
def World.init (queue dlqQueue : Queue) : World where
  state := { queue := queue, dlqQueue := some dlqQueue }

/-- No job is lost or doubled, and the numbers returned are right. -/
structure Safe (w : World) : Prop where
  orderly : Orderly w.state.log
  returned : ∀ r ∈ w.returns, r.1 = (r.2.map (creations w.state.log)).sum

/-- The condition: jobs are removed in consistent states only. -/
def Meets (w : World) : Event → Prop
  | .replayDLQ limit answers _ => CallConsistent w.state limit answers
  | .moveJobToDLQ .. | .mainQueue _ => True

/-- The invariant of all runs. -/
structure Inv (w : World) : Prop where
  keeps : ∃ q, w.state.Keeps q
  returned : ∀ r ∈ w.returns, r.1 = r.2.length ∧ ∀ id ∈ r.2, .removed id ∈ w.state.log

theorem Inv.safe {w : World} (h : Inv w) (horderly : Orderly w.state.log) : Safe w where
  orderly := horderly
  returned r hr := by
    obtain ⟨hlength, hremoved⟩ := h.returned r hr
    have hone : r.2.map (creations w.state.log) = r.2.map fun _ => 1 :=
      List.map_congr_left fun id hid => horderly.creations_eq_one (hremoved id hid)
    rw [hone, hlength, List.map_const', List.sum_replicate_nat, Nat.mul_one]

/-- Another envelope in the dead letter queue gets a number that no job has had. -/
theorem Numbered.add {q : Queue} {log : List Entry} (h : Numbered q log) (name : String)
    (data : Json) (now : ℕ) : Numbered (q.add name data dlqJobOptions now).2 log := by
  have hcustom : (q.defaultJobOptions.spread dlqJobOptions).customId = none := by
    rw [h.defaults]
    rfl
  have hdup : q.duplicate dlqJobOptions = none := by rw [Queue.duplicate, hcustom, Option.bind_none]
  have hid := Queue.newJob_id_of_none hcustom name data now
  have hadd := Queue.add_of_duplicate_eq_none hdup
    (Queue.newJob_id_not_mem h.wellFormed.fresh hdup name data now)
  refine ⟨h.wellFormed.add hcustom, fun hempty => ?_, ?_, fun id hgone => ?_⟩
  · rw [hadd] at hempty
    rcases List.mem_cons.mp hempty with heq | hempty
    · exact Nat.repr_ne_empty (heq.trans hid).symm
    · exact h.nonempty hempty
  · rw [hadd]
    exact h.defaults
  · obtain ⟨hnotmem, hfuture⟩ := h.gone id hgone
    rw [hadd]
    refine ⟨fun hmem => ?_, fun n hn => hfuture n (Nat.lt_of_succ_lt hn)⟩
    rcases List.mem_cons.mp hmem with heq | hmem
    · exact hfuture _ (Nat.lt_succ_self _) (heq.trans hid)
    · exact hnotmem hmem

section Run

variable {config : QueueConfig} {w w' : World}

/-- One step: the invariant is kept, and the log stays orderly exactly under the condition. -/
theorem step_spec {e : Event} (h : Inv w) (hs : (system config).step w e = some w') :
    Inv w' ∧ (Orderly w'.state.log ↔ Meets w e ∧ Orderly w.state.log) := by
  obtain ⟨q, hkeeps⟩ := h.keeps
  cases e with
  | mainQueue queue =>
    obtain rfl := Option.some.inj hs
    exact ⟨⟨⟨q, hkeeps⟩, h.returned⟩, (and_iff_right trivial).symm⟩
  | moveJobToDLQ dlqAdd notification now timestamp job error =>
    obtain rfl := Option.some.inj hs
    have hlog := keeps_moveJobToDLQ (f := State.log) (fun _ _ => rfl) (fun _ _ => rfl) config dlqAdd
      notification now timestamp job error w.state
    have hdlq := dlqQueue_moveJobToDLQ config dlqAdd notification now timestamp job error hkeeps.1
    refine ⟨⟨⟨_, hdlq, ?_⟩, ?_⟩, ?_⟩
    · rw [hlog]
      split
      · exact hkeeps.2.add _ _ _
      · exact hkeeps.2
    · rw [hlog]
      exact h.returned
    · rw [hlog]
      exact (and_iff_right trivial).symm
  | replayDLQ limit answers now =>
    obtain rfl := Option.some.inj hs
    obtain ⟨hkeeps', horderly, hreturned⟩ := replayDLQ_spec config answers now limit hkeeps rfl
    have hbefore : ∀ r ∈ w.returns, r.1 = r.2.length ∧ ∀ id ∈ r.2, .removed id ∈
        ((replayDLQ config answers now limit).run ⟨w.state, 0⟩).2.server.log := fun r hr =>
      ⟨(h.returned r hr).1, fun id hid =>
        mem_log_replayDLQ config answers now limit hkeeps.1 ((h.returned r hr).2 id hid)⟩
    refine ⟨⟨hkeeps', ?_⟩, horderly⟩
    unfold World.replayed
    cases hresult : ((replayDLQ config answers now limit).run ⟨w.state, 0⟩).1 with
    | error e => exact hbefore
    | ok n => exact List.forall_mem_cons.mpr ⟨hreturned n hresult, hbefore⟩

/-- **Replays move jobs as long as the states are consistent.** In every run of successive calls,
with any call cut short anywhere and any changes in between, in which jobs are removed from the
dead letter queue in consistent states only: each removed job was removed after exactly one job had
been created for it, and every call returns the number of jobs created for those it removed. -/
theorem safe_of_calls {queue dlqQueue : Queue} (hdlq : dlqQueue.WellFormed)
    (hempty : "" ∉ dlqQueue.ids) (hdefaults : dlqQueue.defaultJobOptions = dlqJobOptions)
    {es : List Event}
    (hmeets : (system config).StepsMeet Meets (.init queue dlqQueue) es)
    (hw : (system config).runFrom (.init queue dlqQueue) es = some w) : Safe w := by
  have hinit : Inv (.init queue dlqQueue) := by
    refine ⟨⟨dlqQueue, rfl, hdlq, hempty, hdefaults, fun id hid => ?_⟩, fun r hr => ?_⟩
    · exact absurd hid List.not_mem_nil
    · exact absurd hr List.not_mem_nil
  obtain ⟨hinv, horderly⟩ := System.invariant_of_stepsMeet
    (I := fun w => Inv w ∧ Orderly w.state.log) (fun w e w' hI hC hs => by
      obtain ⟨hinv, horderly⟩ := step_spec hI.1 hs
      exact ⟨hinv, horderly.mpr ⟨hC, hI.2⟩⟩) ⟨hinit, trivial⟩ hmeets hw
  exact hinv.safe horderly

end Run

/-! ## Two jobs of one id -/

/-- A job of the dead letter queue. -/
def deadMail : Job where
  id := "1"
  name := "send"
  data := .obj [("originalJobId", .str "1")]
  opts := dlqJobOptions
  attemptsMade := 0
  timestamp := 0
  state := .waiting

/-- The dead letter queue that stores it. -/
def deadMails : Queue where
  jobs := [deadMail]
  counter := 1
  defaultJobOptions := dlqJobOptions

/-- A main queue that has numbered one job and stores none. -/
def noMails : Queue where
  jobs := []
  counter := 1
  defaultJobOptions := buildDefaultJobOptions none

/-- A main queue that has kept its first job, which failed. -/
def keptMails : Queue where
  jobs := [{ deadMail with data := .obj [("to", .str "a")], state := .failed }]
  counter := 1
  defaultJobOptions := buildDefaultJobOptions none

/-- The removal of a first replay times out; a second replay finishes the work. -/
def cutShort : List Event :=
  [.replayDLQ 10 (fun k => if k = 2 then .rejected (.value "timeout") false else .answered) 0,
    .replayDLQ 10 (fun _ => .answered) 1]

theorem wellFormed_deadMails : deadMails.WellFormed where
  nodup := List.nodup_singleton _
  fresh n hn hmem := by
    have heq : toString n = toString 1 := List.mem_singleton.mp hmem
    have hn : 1 < n := hn
    have := Queue.toString_injective heq
    omega

theorem safe_of_cutShort :
    ∃ w, (system { name := "mail" }).runFrom (.init noMails deadMails) cutShort = some w ∧
      Safe w := by
  have hmeets : (system { name := "mail" }).StepsMeet Meets (.init noMails deadMails) cutShort := by
    refine ⟨fun _ i job hi hremoves => ?_,
      fun w₁ h₁ => ⟨fun _ i job hi _ => ?_, fun _ _ => trivial⟩⟩
    · cases i with
      | zero => exact absurd hremoves.2 (by decide)
      | succ i => exact absurd (hremoves.1 1 (by omega)) (by decide)
    · -- the job created by the first replay is stored
      obtain rfl := Option.some.inj h₁
      cases i with
      | zero =>
        obtain rfl := Option.some.inj hi
        exact .inl (by decide)
      | succ i => exact nomatch hi
  exact ⟨_, rfl, safe_of_calls wellFormed_deadMails (by decide) rfl hmeets rfl⟩

/-- **A job is lost.** The main queue stores a job under the id of the dead letter job: the replay
creates nothing, removes the dead letter job and answers that it has moved one. -/
theorem not_safe_of_keptMails :
    ∃ w, (system { name := "mail" }).runFrom (.init keptMails deadMails)
        [.replayDLQ 10 (fun _ => .answered) 0] = some w ∧
      w.state.queue.ids = ["1"] ∧ w.state.log = [.removed "1"] ∧ w.returns = [(1, ["1"])] ∧
      ¬ Safe w := by
  refine ⟨_, rfl, by decide, by decide, by decide, fun h => ?_⟩
  exact absurd h.orderly.1 (by decide)

end KitiumJobQueue.JobQueue
