import KitiumJobQueue.JobQueue.DeadLetter
import KitiumJobQueue.Status.Query

/-!
# Listing jobs and retrying them

`getJobsByStatus` lists jobs of the main queue, and for the status `dlq` jobs of the dead letter
queue. `bulkRetry` takes the ids of such a listing and looks each of them up in the main queue, puts
the job back that it finds there, and gives up at the first id it does not find.

While a method runs others may remove jobs: before each call the environment takes away what it
likes. The jobs that BullMQ is asked to put back are kept account of, a job being known by its queue
and its id. What BullMQ does then is a parameter (`Requeue`).
-/

namespace KitiumJobQueue.JobQueue

open Effects JavaScript Bull
open Status (JobStatus JobStatusInfo Records jobNotFound stateName toProgress)

/-! ## Two queues among others -/

/-- The two queues. -/
inductive QueueName
  | main
  | dlq
  deriving DecidableEq

/-- What a job is known by. -/
structure Address where
  queue : QueueName
  id : String
  deriving DecidableEq

/-- The two queues, and the account of the jobs that BullMQ was asked to put back, the latest
first. -/
structure Account extends State where
  retries : List Address := []

/-- What BullMQ makes of a queue when it puts a stored job of it back. It neither drops a job nor
makes one; where it does not put the job back, because no worker holds it or the lock of one is
missing, the call is rejected. -/
structure Requeue where
  apply : Queue → String → Queue
  mem_ids_apply : ∀ {q : Queue} {jobId id : String}, id ∈ (apply q jobId).ids ↔ id ∈ q.ids

/-- What the environment chooses about a call: the jobs that others have removed when it is carried
out, and how it ends. -/
structure Choice where
  removed : List Address := []
  answer : Answer Thrown := .answered

/-- The queue stores the job. -/
def Account.Stores (s : Account) (a : Address) : Prop :=
  match a.queue with
  | .main => a.id ∈ s.queue.ids
  | .dlq => ∃ q ∈ s.dlqQueue, a.id ∈ q.ids

instance (s : Account) : DecidablePred s.Stores
  | ⟨.main, id⟩ => inferInstanceAs (Decidable (id ∈ s.queue.ids))
  | ⟨.dlq, id⟩ => inferInstanceAs (Decidable (∃ q ∈ s.dlqQueue, id ∈ q.ids))

/-- Others have removed some jobs. -/
def Account.without (s : Account) (removed : List Address) : Account :=
  { s with
    queue := { s.queue with jobs := s.queue.jobs.filter fun job => ⟨.main, job.id⟩ ∉ removed }
    dlqQueue := s.dlqQueue.map fun q =>
      { q with jobs := q.jobs.filter fun job => ⟨.dlq, job.id⟩ ∉ removed } }

/-- `job.moveToWait`, and whether the job was stored. -/
def Account.moveToWait (requeue : Requeue) (jobId : String) (s : Account) : Bool × Account :=
  if jobId ∈ s.queue.ids then (true, { s with queue := requeue.apply s.queue jobId })
  else (false, s)

section Methods

variable (records : Records) (choices : ℕ → Choice)

/-- A call, others having removed what they like. -/
def ask {α : Type} (op : Account → α × Account) : Async Thrown (Remote Account) α := do
  .modify fun r => { r with server := r.server.without (choices r.calls).removed }
  call (fun n => (choices n).answer) op

/-! ## Listing -/

/-- `JobQueue.getBullmqStatusesForJobStatus`. To BullMQ `wait` is another name of `waiting`. -/
def getBullmqStatusesForJobStatus : (status : JobStatus) → status ≠ .dlq → List JobState
  | .active, _ => [.active]
  | .completed, _ => [.completed]
  | .failed, _ => [.failed]
  | .delayed, _ => [.delayed]
  | .paused, _ => [.paused]
  | .pending, _ | .waiting, _ => [.waiting, .waiting, .prioritized]
  | .dlq, h => absurd rfl h

/-- The info of a job. -/
def statusInfo (job : JobRecord) (status : JobStatus) : JobStatusInfo where
  id := job.id
  name := job.name
  status := status
  progress := toProgress job.progress
  data := job.data
  attempts := job.attemptsMade
  maxAttempts := job.opts.attempts.getD 3
  createdAt := job.timestamp
  processedAt := job.processedOn
  completedAt := job.finishedOn

/-- `job.getState` -/
def Account.getState (s : Account) (jobId : String) : String :=
  (s.queue.getJob jobId).elim "unknown" fun job => stateName job.state

/-- `JobQueue.toJobStatusInfo` -/
def toJobStatusInfo (job : JobRecord) : Async Thrown (Remote Account) JobStatusInfo := do
  let state ← ask choices fun s => (s.getState job.id, s)
  pure (statusInfo job (Status.getJobState state))

/-- `JobQueue.toJobStatusInfos`. The calls of `Promise.all` are reads; here each is carried out
after the one before. -/
def toJobStatusInfos : List JobRecord → Async Thrown (Remote Account) (List JobStatusInfo)
  | [] => pure []
  | job :: jobs => do
    let info ← toJobStatusInfo choices job
    let infos ← toJobStatusInfos jobs
    pure (info :: infos)

/-- The waiting jobs of the dead letter queue, if there is one. Nobody pauses that queue. -/
def waitingDlqJobs {α : Type} (toInfo : Job → α) (limit : ℕ) :
    Async Thrown (Remote Account) (List α) := do
  match ← Async.read fun r => r.server.dlqQueue with
  | none => pure []
  | some _ => do
    let jobs ← ask choices fun s => (s.dlqJobs limit, s)
    pure (jobs.map toInfo)

/-- `JobQueue.getDLQStatusInfos` -/
def getDLQStatusInfos (limit : ℕ) : Async Thrown (Remote Account) (List JobStatusInfo) :=
  waitingDlqJobs choices (fun job => statusInfo (records.record job) .dlq) limit

/-- `JobQueue.getJobsByStatus` -/
def getJobsByStatus (status : JobStatus) (limit : ℕ) :
    Async Thrown (Remote Account) (List JobStatusInfo) :=
  if hdlq : status = .dlq then getDLQStatusInfos records choices limit
  else do
    let bullmqStatuses := getBullmqStatusesForJobStatus status hdlq
    let jobs ← ask choices fun s => (s.queue.getJobsOf bullmqStatuses 0 (limit - 1), s)
    toJobStatusInfos choices (jobs.map records.record)

/-- `JobQueue.getDLQJobs` -/
def getDLQJobs (limit : ℕ) : Async Thrown (Remote Account) (List Dlq.DLQJobInfo) :=
  waitingDlqJobs choices Dlq.toDLQJobInfo limit

/-! ## Retrying -/

variable (requeue : Requeue) (stack : String) (missing : Thrown)

/-- Take account of a job that BullMQ is asked to put back. -/
def noteRetry (jobId : String) : Async Thrown (Remote Account) Unit :=
  .modify fun r => { r with server.retries := ⟨.main, jobId⟩ :: r.server.retries }

/-- `JobQueue.retryJob`; `missing` is the error of a job that is gone when it is to be moved. -/
def retryJob (jobId : String) : Async Thrown (Remote Account) Unit := do
  match ← ask choices fun s => (s.queue.getJob jobId, s) with
  | none => throw (.error (jobNotFound jobId stack))
  | some job => do
    noteRetry job.id
    if ← ask choices (Account.moveToWait requeue job.id) then
      .modify fun r => { r with
        server.toState := r.server.toState.record (.emitted .jobRetrying (some job.id) none) }
    else throw missing

/-- The loop of `bulkRetry`. -/
def retryJobs : List JobStatusInfo → ℕ → Async Thrown (Remote Account) ℕ
  | [], retried => pure retried
  | job :: jobs, retried => do
    retryJob choices requeue stack missing job.id
    retryJobs jobs (retried + 1)

/-- `JobQueue.bulkRetry` -/
def bulkRetry (status : JobStatus) (limit : ℕ) : Async Thrown (Remote Account) ℕ := do
  let jobs ← getJobsByStatus records choices status limit
  retryJobs choices requeue stack missing jobs 0

end Methods

/-! ## What others have removed -/

section Removing

variable {choices : ℕ → Choice} {s : Account} {r : Remote Account} {a : Address}

theorem Account.stores_without {removed : List Address} :
    (s.without removed).Stores a ↔ s.Stores a ∧ a ∉ removed := by
  obtain ⟨name, id⟩ := a
  cases name with
  | main =>
    simp only [Stores, without, Queue.mem_ids, List.mem_filter, decide_eq_true_eq]
    constructor
    · rintro ⟨job, ⟨hjob, hnot⟩, rfl⟩
      exact ⟨⟨job, hjob, rfl⟩, hnot⟩
    · rintro ⟨⟨job, hjob, rfl⟩, hnot⟩
      exact ⟨job, ⟨hjob, hnot⟩, rfl⟩
  | dlq =>
    simp only [Stores, without, Queue.mem_ids, Option.mem_def, Option.map_eq_some_iff]
    constructor
    · rintro ⟨_, ⟨q, hq, rfl⟩, job, hjob, rfl⟩
      obtain ⟨hjob, hnot⟩ := List.mem_filter.mp hjob
      exact ⟨⟨q, hq, job, hjob, rfl⟩, of_decide_eq_true hnot⟩
    · rintro ⟨⟨q, hq, job, hjob, rfl⟩, hnot⟩
      exact ⟨_, ⟨q, hq, rfl⟩, job, List.mem_filter.mpr ⟨hjob, decide_eq_true hnot⟩, rfl⟩

/-- The queues when the next call is carried out. -/
def current (choices : ℕ → Choice) (r : Remote Account) : Account :=
  r.server.without (choices r.calls).removed

/-- After a call that changes nothing. -/
def next (choices : ℕ → Choice) (r : Remote Account) : Remote Account :=
  ⟨current choices r, r.calls + 1⟩

/-- The job has been removed by others when the call with this number is carried out. -/
def RemovedBy (choices : ℕ → Choice) (n : ℕ) (a : Address) : Prop :=
  ∃ m < n + 1, a ∈ (choices m).removed

instance (n : ℕ) (a : Address) : Decidable (RemovedBy choices n a) :=
  inferInstanceAs (Decidable (∃ m < n + 1, a ∈ (choices m).removed))

theorem RemovedBy.mono {n m : ℕ} (h : RemovedBy choices n a) (hle : n ≤ m) :
    RemovedBy choices m a := by
  obtain ⟨k, hk, hmem⟩ := h
  exact ⟨k, by omega, hmem⟩

/-- From `s` on nothing has come or gone but for what others have removed. -/
def OnlyRemoved (choices : ℕ → Choice) (s : Account) (r : Remote Account) : Prop :=
  ∀ a, r.server.Stores a ↔ s.Stores a ∧ ∀ m < r.calls, a ∉ (choices m).removed

theorem onlyRemoved_zero (s : Account) : OnlyRemoved choices s ⟨s, 0⟩ :=
  fun _ => (and_iff_left fun _ hm => absurd hm (Nat.not_lt_zero _)).symm

theorem OnlyRemoved.stores_current (h : OnlyRemoved choices s r) :
    (current choices r).Stores a ↔ s.Stores a ∧ ¬ RemovedBy choices r.calls a := by
  have hlast : (∀ m < r.calls, a ∉ (choices m).removed) ∧ a ∉ (choices r.calls).removed ↔
      ¬ RemovedBy choices r.calls a := by
    simp only [RemovedBy, not_exists, not_and]
    exact Nat.forall_lt_succ_right.symm
  rw [current, Account.stores_without, h a, and_assoc, hlast]

/-- What is stored after a call is what others have not removed when it is carried out. -/
theorem OnlyRemoved.stores_iff (h : OnlyRemoved choices s r) {n : ℕ} (hn : r.calls = n + 1) :
    r.server.Stores a ↔ s.Stores a ∧ ¬ RemovedBy choices n a := by
  refine (h a).trans (and_congr_right fun _ => ?_)
  simp only [RemovedBy, not_exists, not_and, hn]

/-- A call that keeps what is stored. -/
theorem OnlyRemoved.of_stores (h : OnlyRemoved choices s r) {s' : Account}
    (hs' : ∀ a, s'.Stores a ↔ (current choices r).Stores a) :
    OnlyRemoved choices s ⟨s', r.calls + 1⟩ := by
  intro a
  refine (hs' a).trans (h.stores_current.trans (and_congr_right fun _ => ?_))
  simp only [RemovedBy, not_exists, not_and]

theorem OnlyRemoved.next (h : OnlyRemoved choices s r) : OnlyRemoved choices s (next choices r) :=
  h.of_stores fun _ => Iff.rfl

theorem OnlyRemoved.iterate (h : OnlyRemoved choices s r) (n : ℕ) :
    OnlyRemoved choices s ((JobQueue.next choices)^[n] r) := by
  induction n generalizing r with
  | zero => exact h
  | succ n ih => exact ih h.next

@[simp] theorem calls_iterate (n : ℕ) : ((next choices)^[n] r).calls = r.calls + n := by
  induction n generalizing r with
  | zero => rfl
  | succ n ih => exact ih.trans (Nat.succ_add_eq_add_succ r.calls n)

@[simp] theorem retries_iterate (n : ℕ) :
    ((next choices)^[n] r).server.retries = r.server.retries := by
  induction n generalizing r with
  | zero => rfl
  | succ n ih => exact ih

end Removing

/-! ## What a listing says -/

section Listing

variable {records : Records} {choices : ℕ → Choice}

theorem run_ask_answered {α : Type} (op : Account → α × Account) {r : Remote Account}
    (h : (choices r.calls).answer = .answered) :
    (ask choices op).run r =
      (.ok (op (current choices r)).1, ⟨(op (current choices r)).2, r.calls + 1⟩) := by
  let answers (n : ℕ) : Answer Thrown := (choices n).answer
  have hanswer : answers r.calls = .answered := h
  exact run_call_of_answered (r := ⟨current choices r, r.calls⟩) hanswer

theorem run_ask_rejected {α : Type} (op : Account → α × Account) {r : Remote Account}
    {e : Thrown} {applied : Bool} (h : (choices r.calls).answer = .rejected e applied) :
    (ask choices op).run r =
      (.error e, ⟨if applied then (op (current choices r)).2 else current choices r,
        r.calls + 1⟩) := by
  let answers (n : ℕ) : Answer Thrown := (choices n).answer
  have hanswer : answers r.calls = .rejected e applied := h
  exact run_call_of_rejected (r := ⟨current choices r, r.calls⟩) hanswer

/-- A call that reads. -/
theorem run_ask_read (choices : ℕ → Choice) {α : Type} (f : Account → α) (r : Remote Account) :
    ((choices r.calls).answer.IsAnswered ∧
      (ask choices fun s => (f s, s)).run r = (.ok (f (current choices r)), next choices r)) ∨
    (¬ (choices r.calls).answer.IsAnswered ∧
      ∃ e, (ask choices fun s => (f s, s)).run r = (.error e, next choices r)) := by
  cases hanswer : (choices r.calls).answer with
  | answered => exact .inl ⟨trivial, run_ask_answered _ hanswer⟩
  | rejected e applied =>
    refine .inr ⟨id, e, (run_ask_rejected _ hanswer).trans ?_⟩
    rw [ite_self]
    rfl

/-- The jobs a listing is made from. -/
def listing (status : JobStatus) (limit : ℕ) (s : Account) : List Job :=
  if hdlq : status = .dlq then s.dlqJobs limit
  else s.queue.getJobsOf (getBullmqStatusesForJobStatus status hdlq) 0 (limit - 1)

theorem run_waitingDlqJobs (choices : ℕ → Choice) {α : Type} (toInfo : Job → α) (limit : ℕ)
    (r : Remote Account) :
    (∃ m, (waitingDlqJobs choices toInfo limit).run r =
        (.ok (((current choices r).dlqJobs limit).map toInfo), (next choices)^[m] r) ∧
      ((current choices r).dlqJobs limit ≠ [] → (choices r.calls).answer.IsAnswered ∧ m = 1)) ∨
    (¬ (choices r.calls).answer.IsAnswered ∧
      ∃ e m, (waitingDlqJobs choices toInfo limit).run r = (.error e, (next choices)^[m] r)) := by
  unfold waitingDlqJobs
  rw [Async.run_bind_of_ok (Async.run_read _ r)]
  cases hq : r.server.dlqQueue with
  | none =>
    have hnone : (current choices r).dlqJobs limit = [] := by
      simp only [current, Account.without, State.dlqJobs, hq, Option.map_none]
    rw [hnone]
    exact .inl ⟨0, rfl, fun hne => absurd rfl hne⟩
  | some q =>
    rcases run_ask_read choices (fun s => s.dlqJobs limit) r with
      ⟨hanswer, hrun⟩ | ⟨hnot, e, hrun⟩
    · exact .inl ⟨1, Async.run_bind_of_ok hrun, fun _ => ⟨hanswer, rfl⟩⟩
    · exact .inr ⟨hnot, e, 1, Async.run_bind_of_error hrun⟩

theorem getJobsByStatus_dlq (limit : ℕ) : getJobsByStatus records choices .dlq limit =
    waitingDlqJobs choices (fun job => statusInfo (records.record job) .dlq) limit :=
  dif_pos rfl

theorem listing_dlq (limit : ℕ) (s : Account) : listing .dlq limit s = s.dlqJobs limit :=
  dif_pos rfl

@[simp] theorem statusInfo_id (job : Job) (status : JobStatus) :
    (statusInfo (records.record job) status).id = job.id :=
  congrArg Job.id (records.toJob_record job)

/-- By induction on the jobs: each takes one call. -/
theorem run_toJobStatusInfos (choices : ℕ → Choice) (jobs : List JobRecord) (r : Remote Account) :
    (∃ infos, (toJobStatusInfos choices jobs).run r =
        (.ok infos, (next choices)^[jobs.length] r) ∧
      infos.map JobStatusInfo.id = jobs.map fun job => job.id) ∨
    ((¬ ∀ n, (choices n).answer.IsAnswered) ∧
      ∃ e m, (toJobStatusInfos choices jobs).run r = (.error e, (next choices)^[m] r)) := by
  induction jobs generalizing r with
  | nil => exact .inl ⟨[], rfl, rfl⟩
  | cons job jobs ih =>
    unfold toJobStatusInfos toJobStatusInfo
    rcases run_ask_read choices (fun s => s.getState job.id) r with
      ⟨-, hrun⟩ | ⟨hnot, e, hrun⟩
    · have hinfo := Async.run_bind_of_ok (f := fun state =>
        (pure (statusInfo job (Status.getJobState state)) :
          Async Thrown (Remote Account) JobStatusInfo)) hrun
      rw [Async.run_bind_of_ok hinfo]
      rcases ih (next choices r) with ⟨infos, hinfos, hids⟩ | ⟨hnot, e, m, hinfos⟩
      · refine .inl ⟨_, Async.run_bind_of_ok hinfos, ?_⟩
        rw [List.map_cons, List.map_cons, hids]
        rfl
      · exact .inr ⟨hnot, e, m + 1, Async.run_bind_of_error hinfos⟩
    · refine .inr ⟨fun hall => hnot (hall _), e, 1, ?_⟩
      exact Async.run_bind_of_error (Async.run_bind_of_error hrun)

/-- **A listing**: the jobs that are there when the first call is carried out. -/
theorem run_getJobsByStatus (records : Records) (choices : ℕ → Choice) (status : JobStatus)
    (limit : ℕ) (r : Remote Account) :
    (∃ infos m, (getJobsByStatus records choices status limit).run r =
        (.ok infos, (next choices)^[m] r) ∧
      infos.map JobStatusInfo.id = (listing status limit (current choices r)).map Job.id ∧
      (infos ≠ [] → m = if status = .dlq then 1 else 1 + infos.length)) ∨
    ((¬ ∀ n, (choices n).answer.IsAnswered) ∧
      ∃ e m, (getJobsByStatus records choices status limit).run r =
        (.error e, (next choices)^[m] r)) := by
  by_cases hdlq : status = .dlq
  · subst hdlq
    rw [getJobsByStatus_dlq, listing_dlq]
    rcases run_waitingDlqJobs choices
      (fun job => statusInfo (records.record job) .dlq) limit r with
      ⟨m, hrun, hm⟩ | ⟨hnot, e, m, hrun⟩
    · refine .inl ⟨_, m, hrun, ?_, fun hne => ?_⟩
      · rw [List.map_map]
        exact List.map_congr_left fun job _ => statusInfo_id job .dlq
      · rw [if_pos rfl]
        exact (hm fun hnil => hne (by rw [hnil, List.map_nil])).2
    · exact .inr ⟨fun hall => hnot (hall _), e, m, hrun⟩
  · unfold getJobsByStatus listing
    rw [dif_neg hdlq, dif_neg hdlq]
    dsimp only
    rcases run_ask_read choices (fun s => s.queue.getJobsOf
      (getBullmqStatusesForJobStatus status hdlq) 0 (limit - 1)) r with ⟨-, hrun⟩ | ⟨hnot, e, hrun⟩
    · rw [Async.run_bind_of_ok hrun]
      generalize (current choices r).queue.getJobsOf _ _ _ = jobs
      rcases run_toJobStatusInfos choices (jobs.map records.record) (next choices r) with
        ⟨infos, hinfos, hids⟩ | ⟨hnot, e, m, hinfos⟩
      · rw [List.map_map] at hids
        refine .inl ⟨infos, (jobs.map records.record).length + 1, hinfos, hids.trans ?_,
          fun _ => ?_⟩
        · exact List.map_congr_left fun job _ => congrArg Job.id (records.toJob_record job)
        · have hlength : infos.length = jobs.length := by
            simpa using congrArg List.length hids
          rw [if_neg hdlq, hlength, List.length_map]
          exact Nat.add_comm jobs.length 1
      · exact .inr ⟨hnot, e, m + 1, hinfos⟩
    · exact .inr ⟨fun hall => hnot (hall _), e, 1, Async.run_bind_of_error hrun⟩

end Listing

end KitiumJobQueue.JobQueue
