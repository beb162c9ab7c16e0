import KitiumJobQueue.Dlq.Manager
import KitiumJobQueue.Foundations.Lists
import KitiumJobQueue.Status.Info

/-!
# Listing the jobs of a queue

`JobStatusQueryService` of `job-status-query-service.ts`. `getAllJobs` goes through six statuses and
asks for the jobs of each, with what is left of its limit, until the limit is reached. Two of the
statuses stand for the same state of the queue, and no status stands for the prioritized jobs or for
those that wait for children.

What the queue holds is left as it is by all calls, so the answer has a closed form: the first
`limit` of all jobs asked for, in the order of asking.
-/

namespace KitiumJobQueue.Status

open Bull Effects

/-- The rest of each job's record, which the model of the queue leaves out. -/
structure Records where
  record : Job → JobRecord
  toJob_record : ∀ job, (record job).toJob = job

/-- `JobStatusQueryService.mapStatusToStates` -/
def mapStatusToStates : JobStatus → List JobState
  | .dlq => []
  | .completed => [.completed]
  | .failed => [.failed]
  | .active => [.active]
  | .waiting => [.waiting]
  | .paused => [.paused]
  | .delayed => [.delayed]
  | .pending => [.waiting]

/-- The info of a job in the dead letter queue. -/
def ofDLQJob (dlqJob : Dlq.DLQJobInfo) : JobStatusInfo where
  id := dlqJob.id
  name := dlqJob.name
  status := .dlq
  progress := 0
  data := dlqJob.data
  attempts := dlqJob.attempts
  maxAttempts := 0
  createdAt := dlqJob.createdAt

/-- `JobStatusFactory.createStatusInfos` -/
def createStatusInfos (jobs : List BullMQJobWrapper) : List JobStatusInfo :=
  jobs.map createStatusInfo

section Methods

variable {ε : Type} (dlqConfig : Option DLQConfig) (records : Records) (answers : ℕ → Answer ε)

/-- `BullMQQueueClient.getJobsByState` -/
def getJobsByState (state : JobState) (start : ℕ) (stop : ℤ) :
    Async ε (Remote Queue) (List BullMQJobWrapper) :=
  call answers fun q =>
    ((q.getJobsOf [state] start stop).map fun job => ⟨records.record job⟩, q)

/-- The loop of `getJobsByStatus`. -/
def collectStates (limit : ℕ) :
    List JobState → List BullMQJobWrapper → Async ε (Remote Queue) (List BullMQJobWrapper)
  | [], jobs => pure jobs
  | state :: states, jobs => do
    let stateJobs ← getJobsByState records answers state 0 (limit - 1)
    let jobs := jobs ++ stateJobs
    if limit ≤ jobs.length then pure jobs else collectStates limit states jobs

/-- `JobStatusQueryService.getJobsByStatus` -/
def getJobsByStatus (status : JobStatus) (limit : ℕ) :
    Async ε (Remote Queue) (List JobStatusInfo) :=
  tryCatch
    (if status = .dlq then do
      let dlqJobs ← Dlq.getDLQJobs dlqConfig answers limit
      pure (dlqJobs.map ofDLQJob)
    else do
      let jobs ← collectStates records answers limit (mapStatusToStates status) []
      pure (createStatusInfos (jobs.take limit)))
    fun error => throw error

/-- The statuses `getAllJobs` goes through. -/
def allStatuses : List JobStatus := [.pending, .active, .completed, .failed, .delayed, .waiting]

/-- The loop of `getAllJobs`. -/
def collectStatuses (limit : ℕ) :
    List JobStatus → List JobStatusInfo → Async ε (Remote Queue) (List JobStatusInfo)
  | [], allJobs => pure allJobs
  | status :: statuses, allJobs => do
    let jobs ← getJobsByStatus dlqConfig records answers status (limit - allJobs.length)
    let allJobs := allJobs ++ jobs
    if limit ≤ allJobs.length then pure allJobs else collectStatuses limit statuses allJobs

/-- `JobStatusQueryService.getAllJobs` -/
def getAllJobs (limit : ℕ) : Async ε (Remote Queue) (List JobStatusInfo) :=
  tryCatch
    (do
      let allJobs ← collectStatuses dlqConfig records answers limit allStatuses []
      pure (allJobs.take limit))
    fun _ => pure []

end Methods

/-! ## What one status is answered with -/

/-- The jobs that asking for a state finds. -/
def found (q : Queue) (state : JobState) : List Job :=
  (Queue.sanitizeJobTypes [state]).flatMap q.inState

/-- The info a job is listed with. -/
def infoOf (records : Records) (job : Job) : JobStatusInfo :=
  createStatusInfo ⟨records.record job⟩

variable {ε : Type} (dlqConfig : Option DLQConfig) (records : Records) (answers : ℕ → Answer ε)
  {q : Queue} {limit n : ℕ}

@[simp] theorem infoOf_id (job : Job) : (infoOf records job).id = job.id :=
  congrArg Job.id (records.toJob_record job)

/-- The client of the dead letter queue asks for the failed jobs, which come alone. -/
theorem getJobsByState_failed (start : ℕ) (stop : ℤ) :
    getJobsByState records answers .failed start stop =
      (do
        let jobs ← Dlq.getJobsByState answers .failed start stop
        pure (jobs.map fun job => ⟨records.record job⟩)) := by
  have hjobs : ∀ q : Queue, q.getJobsOf [.failed] start stop = q.getJobs .failed start stop := by
    intro q
    rw [Queue.getJobsOf, Queue.sanitizeJobTypes_of_ne_waiting (by decide), List.flatMap_singleton]
  refine Async.ext fun r => ?_
  simp only [Dlq.getJobsByState, Async.run_bind_pure, getJobsByState, call, hjobs]
  cases answers r.calls with
  | answered => rfl
  | rejected e applied => rfl

/-- What is left of the jobs of a state after the cut of the page. -/
theorem take_getJobsOf (state : JobState) (hlimit : 1 ≤ limit) :
    (q.getJobsOf [state] 0 (limit - 1)).take limit = (found q state).take limit := by
  simp only [Queue.getJobsOf, Queue.getJobs, range_zero _ hlimit]
  exact List.take_flatMap_take ..

/-- One state is one call, whether its answer fills the page or not. -/
theorem collectStates_singleton (state : JobState) :
    collectStates records answers limit [state] [] =
      getJobsByState records answers state 0 (limit - 1) := by
  simp only [collectStates, List.nil_append, ite_self]
  exact Async.bind_resolve _

/-- A status of one state is answered with the first jobs found, or rejected. -/
theorem run_getJobsByStatus {status : JobStatus} {state : JobState} (hdlq : status ≠ .dlq)
    (hstates : mapStatusToStates status = [state]) (hlimit : 1 ≤ limit) :
    (answers n).IsAnswered ∧
      (getJobsByStatus dlqConfig records answers status limit).run ⟨q, n⟩ =
        (.ok (((found q state).take limit).map (infoOf records)), ⟨q, n + 1⟩) ∨
    ¬ (answers n).IsAnswered ∧
      ∃ e s, (getJobsByStatus dlqConfig records answers status limit).run ⟨q, n⟩ =
        (.error e, s) := by
  rw [getJobsByStatus, if_neg hdlq, hstates, collectStates_singleton, getJobsByState]
  cases hanswer : answers n with
  | answered =>
    refine .inl ⟨trivial, Async.run_tryCatch_of_ok ?_⟩
    rw [Async.run_bind_of_ok (run_call_of_answered hanswer), Async.run_pure, createStatusInfos,
      ← List.map_take, take_getJobsOf state hlimit, List.map_map]
    rfl
  | rejected e applied =>
    exact .inr ⟨id, e, _, Async.run_tryCatch_of_error
      (Async.run_bind_of_error (run_call_of_rejected hanswer))⟩

/-! ## The loop over the statuses -/

/-- The calls the loop makes are answered. It makes one for each state as long as what it has
collected leaves room. -/
def Answered (answers : ℕ → Answer ε) (q : Queue) (limit : ℕ) : List JobState → ℕ → ℕ → Prop
  | [], _, _ => True
  | state :: states, collected, n =>
    (answers n).IsAnswered ∧ (collected + (found q state).length < limit →
      Answered answers q limit states (collected + (found q state).length) (n + 1))

/-- **The loop over the statuses** resolves exactly if the calls it makes are answered, and then the
page is the first part of all that was asked for. -/
theorem run_collectStatuses {statuses : List JobStatus} {states : List JobState}
    (h : List.Forall₂ (fun status state => status ≠ .dlq ∧ mapStatusToStates status = [state])
      statuses states) (infos : List JobStatusInfo) (hroom : infos.length < limit) :
    Answered answers q limit states infos.length n ∧
      (∃ allJobs s, (collectStatuses dlqConfig records answers limit statuses infos).run ⟨q, n⟩ =
          (.ok allJobs, s) ∧
        allJobs.take limit =
          (infos ++ (states.flatMap (found q)).map (infoOf records)).take limit) ∨
    ¬ Answered answers q limit states infos.length n ∧
      ∃ e s, (collectStatuses dlqConfig records answers limit statuses infos).run ⟨q, n⟩ =
        (.error e, s) := by
  induction h generalizing infos n with
  | nil => exact .inl ⟨trivial, infos, ⟨q, n⟩, rfl, by simp⟩
  | @cons status state statuses states hstatus _ ih =>
    have hleft : 1 ≤ limit - infos.length := by omega
    rcases run_getJobsByStatus dlqConfig records answers hstatus.1 hstatus.2 hleft with
      ⟨hanswer, hrun⟩ | ⟨hanswer, e, s, hrun⟩
    · have hlength : (infos ++ ((found q state).take (limit - infos.length)).map
          (infoOf records)).length =
          infos.length + min (limit - infos.length) (found q state).length := by simp
      unfold collectStatuses
      rw [Async.run_bind_of_ok hrun]
      by_cases hfull : infos.length + (found q state).length < limit
      · -- the whole state fits, and the loop goes on
        rw [List.take_of_length_le (by omega)] at hlength ⊢
        rw [if_neg (by omega)]
        have hcount : infos.length + (found q state).length =
            (infos ++ (found q state).map (infoOf records)).length := by simp
        unfold Answered
        rw [List.flatMap_cons, List.map_append, ← List.append_assoc, hcount]
        rcases ih (n := n + 1) _ (hcount ▸ hfull) with ⟨hrest, hok⟩ | ⟨hrest, herror⟩
        · exact .inl ⟨⟨hanswer, fun _ => hrest⟩, hok⟩
        · exact .inr ⟨fun hall => hrest (hall.2 (hcount ▸ hfull)), herror⟩
      · -- the page is full
        rw [if_pos (by omega)]
        refine .inl ⟨⟨hanswer, fun hlt => absurd hlt hfull⟩, _, _, rfl, ?_⟩
        rw [List.take_append, List.take_append, List.flatMap_cons, List.map_append,
          List.take_append_of_le_length (by simp; omega), List.map_take, List.take_take,
          Nat.min_self]
    · unfold collectStatuses
      rw [Async.run_bind_of_error hrun]
      exact .inr ⟨fun hall => hanswer hall.1, e, s, rfl⟩

/-! ## The answer of `getAllJobs` -/

/-- The states `getAllJobs` asks for, the first of them twice. -/
def askedStates : List JobState := [.waiting, .active, .completed, .failed, .delayed]

/-- The jobs `getAllJobs` asks for, each listed once. -/
def asked (q : Queue) : List Job := askedStates.flatMap (found q)

/-- No call of `getAllJobs` is rejected, the first one being number `n`. -/
def Unrejected (answers : ℕ → Answer ε) (q : Queue) (limit n : ℕ) : Prop :=
  Answered answers q limit (askedStates ++ [.waiting]) 0 n

/-- The answer in closed form. -/
theorem run_getAllJobs (hlimit : 1 ≤ limit) :
    ∃ infos s, (getAllJobs dlqConfig records answers limit).run ⟨q, n⟩ = (.ok infos, s) ∧
      (Unrejected answers q limit n ∧
          infos = ((asked q ++ found q .waiting).take limit).map (infoOf records) ∨
        ¬ Unrejected answers q limit n ∧ infos = []) := by
  have hstates : List.Forall₂
      (fun status state => status ≠ .dlq ∧ mapStatusToStates status = [state])
      allStatuses (askedStates ++ [.waiting]) := by
    simp [allStatuses, askedStates, mapStatusToStates]
  have hloop : _ ∨ _ := run_collectStatuses dlqConfig records answers (q := q) (n := n) hstates []
    hlimit
  rcases hloop with ⟨hall, infos, s, hrun, hpage⟩ | ⟨hall, e, s, hrun⟩
  · refine ⟨_, s, Async.run_tryCatch_of_ok (Async.run_bind_of_ok hrun), .inl ⟨hall, ?_⟩⟩
    rw [hpage, List.nil_append, List.flatMap_append, List.flatMap_singleton, List.map_take]
    rfl
  · exact ⟨[], s, Async.run_tryCatch_of_error (Async.run_bind_of_error hrun), .inr ⟨hall, rfl⟩⟩

/-! ## When the answer is right -/

/-- No job is listed twice, the limit is kept, and where the limit allows it every job is listed. -/
structure ListsJobs (q : Queue) (limit : ℕ) (infos : List JobStatusInfo) : Prop where
  nodup : (infos.map JobStatusInfo.id).Nodup
  length_le : infos.length ≤ limit
  complete : q.jobs.length ≤ limit → ∀ job ∈ q.jobs, ∃ info ∈ infos, info.id = job.id

theorem asked_eq (q : Queue) :
    asked q =
      [.waiting, .paused, .active, .completed, .failed, .delayed].flatMap q.inState := by
  rw [asked]
  unfold found
  rw [← List.flatMap_assoc]
  rfl

/-- What no status stands for is not asked for. -/
theorem mem_asked {job : Job} :
    job ∈ asked q ↔ job ∈ q.jobs ∧ job.state ≠ .prioritized ∧ job.state ≠ .waitingChildren := by
  rw [asked_eq, List.mem_flatMap]
  simp only [Queue.mem_inState]
  constructor
  · rintro ⟨state, hstate, hjob, rfl⟩
    refine ⟨hjob, ?_, ?_⟩
    · intro h
      simp [h] at hstate
    · intro h
      simp [h] at hstate
  · rintro ⟨hjob, hprioritized, hchildren⟩
    refine ⟨job.state, ?_, hjob, rfl⟩
    cases hst : job.state with
    | prioritized => exact absurd hst hprioritized
    | waitingChildren => exact absurd hst hchildren
    | waiting | delayed | active | completed | failed | paused => simp

theorem found_waiting_subset : found q .waiting ⊆ asked q := by
  intro job hjob
  exact List.mem_flatMap.mpr ⟨.waiting, by simp [askedStates], hjob⟩

theorem nodup_ids_asked (hq : q.ids.Nodup) : ((asked q).map Job.id).Nodup := by
  rw [asked_eq]
  exact Queue.nodup_ids_flatMap_inState hq (by decide)

theorem length_asked_le (hq : q.ids.Nodup) : (asked q).length ≤ q.jobs.length := by
  have hsub : asked q ⊆ q.jobs := fun job hjob => (mem_asked.mp hjob).1
  exact (List.subperm_of_subset ((nodup_ids_asked hq).of_map Job.id) hsub).length_le

/-- Nothing is known of the queue where a call was rejected. -/
theorem listsJobs_nil : ListsJobs q limit [] ↔ q.jobs = [] ∨ limit < q.jobs.length := by
  constructor
  · intro h
    by_contra hcon
    obtain ⟨hne, hle⟩ := not_or.mp hcon
    obtain ⟨job, hjob⟩ := List.exists_mem_of_ne_nil _ hne
    obtain ⟨info, hinfo, -⟩ := h.complete (not_lt.mp hle) job hjob
    exact absurd hinfo List.not_mem_nil
  · intro h
    refine ⟨List.nodup_nil, Nat.zero_le limit, fun hle job hjob => ?_⟩
    rcases h with hnil | hlt
    · rw [hnil] at hjob
      exact absurd hjob List.not_mem_nil
    · exact absurd hle (not_le.mpr hlt)

/-- The first part of what was asked for is the right answer if the waiting jobs, which come again
at the end, do not reach it a second time, and if nothing else is stored where all of it fits. -/
theorem listsJobs_page_iff (hq : q.ids.Nodup) :
    ListsJobs q limit (((asked q ++ found q .waiting).take limit).map (infoOf records)) ↔
      (found q .waiting = [] ∨ limit ≤ (asked q).length) ∧
        (q.jobs.length ≤ limit →
          ∀ job ∈ q.jobs, job.state ≠ .prioritized ∧ job.state ≠ .waitingChildren) := by
  have hids : (((asked q ++ found q .waiting).take limit).map (infoOf records)).map
      JobStatusInfo.id = ((asked q).map Job.id ++ (found q .waiting).map Job.id).take limit := by
    rw [List.map_map, ← List.map_append, ← List.map_take]
    exact List.map_congr_left fun job _ => infoOf_id records job
  have hnodup := List.nodup_take_append_iff (nodup_ids_asked hq)
    (List.map_subset Job.id (found_waiting_subset (q := q))) limit
  rw [← hids, List.map_eq_nil_iff, List.length_map] at hnodup
  rw [← hnodup]
  constructor
  · intro h
    refine ⟨h.nodup, fun hle job hjob => ?_⟩
    obtain ⟨info, hinfo, hid⟩ := h.complete hle job hjob
    obtain ⟨job', hjob', rfl⟩ := List.mem_map.mp hinfo
    have hasked : job' ∈ asked q := by
      rcases List.mem_append.mp (List.mem_of_mem_take hjob') with hmem | hmem
      · exact hmem
      · exact found_waiting_subset hmem
    obtain ⟨hstored, hstates⟩ := mem_asked.mp hasked
    obtain rfl := Queue.eq_of_id_eq hq hstored hjob ((infoOf_id records job').symm.trans hid)
    exact hstates
  · rintro ⟨hnodup, hstates⟩
    refine ⟨hnodup, by simp, fun hle job hjob => ⟨infoOf records job, ?_, infoOf_id records job⟩⟩
    have hfits : (asked q).length ≤ limit := (length_asked_le hq).trans hle
    rw [List.take_append, List.take_of_length_le hfits]
    exact List.mem_map_of_mem
      (List.mem_append_left _ (mem_asked.mpr ⟨hjob, hstates hle job hjob⟩))

/-- **`getAllJobs` always resolves, and its answer is right exactly if** no call is rejected, the
waiting jobs do not come up a second time within the limit, and every stored job is in one of the
states asked for where all fit; or a call is rejected and an empty answer happens to be right. -/
theorem listsJobs_iff (hq : q.ids.Nodup) (hlimit : 1 ≤ limit) :
    (∃ infos s, (getAllJobs dlqConfig records answers limit).run ⟨q, n⟩ = (.ok infos, s) ∧
      ListsJobs q limit infos) ↔
      Unrejected answers q limit n ∧ (found q .waiting = [] ∨ limit ≤ (asked q).length) ∧
          (q.jobs.length ≤ limit →
            ∀ job ∈ q.jobs, job.state ≠ .prioritized ∧ job.state ≠ .waitingChildren) ∨
        ¬ Unrejected answers q limit n ∧ (q.jobs = [] ∨ limit < q.jobs.length) := by
  obtain ⟨infos, s, hrun, hcases⟩ := run_getAllJobs dlqConfig records answers (q := q) (n := n)
    hlimit
  have hresult : (∃ infos s, (getAllJobs dlqConfig records answers limit).run ⟨q, n⟩ =
      (.ok infos, s) ∧ ListsJobs q limit infos) ↔ ListsJobs q limit infos := by
    rw [hrun]
    constructor
    · rintro ⟨_, _, heq, h⟩
      cases heq
      exact h
    · exact fun h => ⟨infos, s, rfl, h⟩
  rw [hresult]
  rcases hcases with ⟨hall, rfl⟩ | ⟨hall, rfl⟩
  · rw [listsJobs_page_iff records hq]
    simp [hall]
  · rw [listsJobs_nil]
    simp [hall]

/-- Records that tell nothing besides the job. -/
def bareRecords : Records where
  record job := { toJob := job }
  toJob_record _ := rfl

/-- A queue of one job in the state. -/
def queueOf (state : JobState) : Queue where
  jobs :=
    [{ id := "1", name := "send-mail", data := .null, opts := {}, attemptsMade := 0,
       timestamp := 900, state := state }]
  counter := 1
  defaultJobOptions := {}

/-- A queue of jobs in several states. -/
def mixedQueue : Queue where
  jobs :=
    [("1", .waiting), ("2", .active), ("3", .active), ("4", .completed), ("5", .paused),
      ("6", .prioritized), ("7", .failed)].map fun job =>
        { id := job.1, name := "send-mail", data := .null, opts := {}, attemptsMade := 0,
          timestamp := 900, state := job.2 }
  counter := 7
  defaultJobOptions := {}

/-- Three of its jobs are listed. -/
theorem listsJobs_mixedQueue :
    ∃ infos s, (getAllJobs (ε := Unit) none bareRecords (fun _ => .answered) 3).run
      ⟨mixedQueue, 0⟩ = (.ok infos, s) ∧ ListsJobs mixedQueue 3 infos := by
  refine (listsJobs_iff none bareRecords (fun _ => .answered) (by decide) (by decide)).mpr
    (.inl ⟨?_, .inr (by decide), fun hle => absurd hle (by decide)⟩)
  simp [Unrejected, Answered, askedStates, Answer.IsAnswered]

/-- One waiting job is listed twice. -/
theorem not_listsJobs_waiting :
    ¬ ∀ (q : Queue) (limit : ℕ), q.ids.Nodup → 1 ≤ limit →
      ∃ infos s, (getAllJobs (ε := Unit) none bareRecords (fun _ => .answered) limit).run ⟨q, 0⟩ =
        (.ok infos, s) ∧ ListsJobs q limit infos := by
  intro hclaim
  obtain ⟨infos, s, hrun, hlists⟩ := hclaim (queueOf .waiting) 100 (by decide) (by decide)
  have hids : infos.map JobStatusInfo.id = ["1", "1"] := by
    cases hrun
    rfl
  exact absurd (hids ▸ hlists.nodup) (by decide)

end KitiumJobQueue.Status
