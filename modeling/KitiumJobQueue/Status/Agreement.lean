import KitiumJobQueue.Foundations.Lists
import KitiumJobQueue.JobQueue.Listing
import KitiumJobQueue.Status.Counts

/-!
# When the two listings agree

`JobQueue.getJobsByStatus` and `JobStatusQueryService.getJobsByStatus` list the jobs of the same
queue. For the statuses `waiting` and `pending` the first asks for the prioritized jobs, too, and
lets every state fill a page of its own; BullMQ adds the paused ones to both. And the first asks
BullMQ for the state of each job it has found, where the second goes by the fields of its record.

`alike_iff` says when they give the same answer on a queue that nobody changes: the page is the same
exactly if nothing is prioritized and the waiting and the paused jobs have room on one page, and
then it is a matter of the states that the fields tell.
-/

namespace KitiumJobQueue.Status

open Bull Effects JavaScript JobQueue

/-! ## The listing of `JobQueue` -/

section

variable {records : Records} {s : Account} {status : JobStatus} {limit : ℕ}

/-- Nobody removes anything, and all calls are answered. -/
def undisturbed (_ : ℕ) : Choice := {}

theorem without_nil (s : Account) : s.without [] = s := by
  have hqueue : { s.queue with jobs := s.queue.jobs.filter fun job => ⟨.main, job.id⟩ ∉
      ([] : List Address) } = s.queue := by
    simp
  have hdlq : (s.dlqQueue.map fun q => { q with jobs := q.jobs.filter fun job => ⟨.dlq, job.id⟩ ∉
      ([] : List Address) }) = s.dlqQueue := by
    simp
  rw [Account.without, hqueue, hdlq]

theorem run_ask_undisturbed {α : Type} (f : Account → α) (s : Account) (n : ℕ) :
    (ask undisturbed fun s => (f s, s)).run ⟨s, n⟩ = (.ok (f s), ⟨s, n + 1⟩) := by
  rw [run_ask_answered _ rfl, current, undisturbed, without_nil]

/-- Each job is listed with the status of the state it is in. -/
theorem run_toJobStatusInfos_undisturbed (records : Records) (hs : s.queue.ids.Nodup)
    {jobs : List Job} (hjobs : ∀ job ∈ jobs, job ∈ s.queue.jobs) (n : ℕ) :
    (toJobStatusInfos undisturbed (jobs.map records.record)).run ⟨s, n⟩ =
      (.ok (jobs.map fun job => statusInfo (records.record job) (statusOf job.state)),
        ⟨s, n + jobs.length⟩) := by
  induction jobs generalizing n with
  | nil => rfl
  | cons job jobs ih =>
    obtain ⟨hjob, hrest⟩ := List.forall_mem_cons.mp hjobs
    have hid : (records.record job).id = job.id := congrArg Job.id (records.toJob_record job)
    have hstate : getJobState (s.getState (records.record job).id) = statusOf job.state := by
      rw [Account.getState, hid, Queue.getJob_of_mem hs hjob]
      exact getJobState_stateName job.state
    have hinfo : (toJobStatusInfo undisturbed (records.record job)).run ⟨s, n⟩ =
        (.ok (statusInfo (records.record job) (statusOf job.state)), ⟨s, n + 1⟩) := by
      rw [toJobStatusInfo, Async.run_bind_of_ok (run_ask_undisturbed _ s n), hstate]
      rfl
    rw [List.map_cons, toJobStatusInfos, Async.run_bind_of_ok hinfo,
      Async.run_bind_of_ok (ih hrest (n + 1)), List.length_cons]
    have hcalls : n + 1 + jobs.length = n + (jobs.length + 1) := by omega
    rw [hcalls]
    rfl

theorem run_getJobsByStatus_undisturbed (records : Records) (hs : s.queue.ids.Nodup)
    (hdlq : status ≠ .dlq) (limit n : ℕ) :
    ((JobQueue.getJobsByStatus records undisturbed status limit).run ⟨s, n⟩).1 =
      .ok ((listing status limit s).map fun job =>
        statusInfo (records.record job) (statusOf job.state)) := by
  have hjobs : ∀ job ∈ listing status limit s, job ∈ s.queue.jobs := by
    intro job hjob
    rw [listing, dif_neg hdlq] at hjob
    exact Queue.mem_jobs_of_mem_getJobsOf hjob
  rw [JobQueue.getJobsByStatus, dif_neg hdlq]
  dsimp only
  rw [Async.run_bind_of_ok (run_ask_undisturbed _ s n)]
  rw [listing, dif_neg hdlq] at hjobs ⊢
  rw [run_toJobStatusInfos_undisturbed records hs hjobs]

end

/-! ## The two pages -/

section

variable {q : Queue} {s : Account} {status : JobStatus} {limit : ℕ}

/-- Where waiting jobs are asked for: none is prioritized, and the waiting and the paused jobs are
not both there, or have room on the page. -/
def OnePage (q : Queue) (status : JobStatus) (limit : ℕ) : Prop :=
  status = .waiting ∨ status = .pending →
    q.inState .prioritized = [] ∧ (q.inState .waiting = [] ∨ q.inState .paused = [] ∨
      q.countIn .waiting + q.countIn .paused ≤ limit)

instance (q : Queue) (status : JobStatus) (limit : ℕ) : Decidable (OnePage q status limit) :=
  inferInstanceAs (Decidable (_ ∨ _ → _))

/-- The page of the service. -/
def page (q : Queue) (status : JobStatus) (limit : ℕ) : List Job :=
  (found q (stateOf status)).take limit

theorem listing_of_ne (hdlq : status ≠ .dlq) (hwaiting : status ≠ .waiting)
    (hpending : status ≠ .pending) (hlimit : 1 ≤ limit) :
    listing status limit s = page s.queue status limit := by
  have hstate : JobQueue.getBullmqStatusesForJobStatus status hdlq = [stateOf status] := by
    cases status with
    | dlq => exact absurd rfl hdlq
    | waiting => exact absurd rfl hwaiting
    | pending => exact absurd rfl hpending
    | active | completed | failed | delayed | paused => rfl
  have hne : stateOf status ≠ .waiting := by
    cases status with
    | waiting => exact absurd rfl hwaiting
    | pending => exact absurd rfl hpending
    | active | completed | failed | delayed | paused | dlq => decide
  rw [listing, dif_neg hdlq, hstate, page, found, Queue.getJobsOf,
    Queue.sanitizeJobTypes_of_ne_waiting hne, List.flatMap_singleton, List.flatMap_singleton]
  exact range_zero _ hlimit

/-- For the waiting jobs every state has a page of its own. -/
theorem listing_of_waiting (h : status = .waiting ∨ status = .pending) (hlimit : 1 ≤ limit) :
    listing status limit s = (s.queue.inState .waiting).take limit ++
      ((s.queue.inState .prioritized).take limit ++ (s.queue.inState .paused).take limit) := by
  have hdlq : status ≠ .dlq := by
    rcases h with rfl | rfl
    · decide
    · decide
  have hstates : JobQueue.getBullmqStatusesForJobStatus status hdlq =
      [.waiting, .waiting, .prioritized] := by
    rcases h with rfl | rfl
    · rfl
    · rfl
  have hasked : Queue.sanitizeJobTypes [.waiting, .waiting, .prioritized] =
      [.waiting, .prioritized, .paused] := by
    decide
  rw [listing, dif_neg hdlq, hstates, Queue.getJobsOf, hasked]
  simp only [List.flatMap_cons, List.flatMap_nil, List.append_nil, Queue.getJobs,
    range_zero _ hlimit]

theorem page_of_waiting (h : status = .waiting ∨ status = .pending) :
    page q status limit = (q.inState .waiting ++ q.inState .paused).take limit := by
  have hstate : stateOf status = .waiting := by
    rcases h with rfl | rfl
    · rfl
    · rfl
  have hasked : Queue.sanitizeJobTypes [.waiting] = [.waiting, .paused] := by decide
  rw [page, hstate, found, hasked, List.flatMap_cons, List.flatMap_singleton]

/-- **The pages are the same exactly if one page is enough**, and otherwise not even their lengths
are. -/
theorem listing_eq_page_iff (hdlq : status ≠ .dlq) (hlimit : 1 ≤ limit) :
    (listing status limit s = page s.queue status limit ↔ OnePage s.queue status limit) ∧
      ((listing status limit s).length = (page s.queue status limit).length →
        OnePage s.queue status limit) := by
  by_cases h : status = .waiting ∨ status = .pending
  · rw [listing_of_waiting h hlimit, page_of_waiting h]
    have hiff := List.take_append_take_eq_take_iff (s.queue.inState .waiting)
      (s.queue.inState .prioritized) (s.queue.inState .paused) hlimit
    exact ⟨⟨fun heq _ => hiff.1.mp heq, fun hone => hiff.1.mpr (hone h)⟩,
      fun hlength _ => hiff.2 hlength⟩
  · obtain ⟨hwaiting, hpending⟩ := not_or.mp h
    exact ⟨iff_of_true (listing_of_ne hdlq hwaiting hpending hlimit) fun hw => absurd hw h,
      fun _ hw => absurd hw h⟩

end

/-! ## The two answers -/

/-- The fields of the job's record tell the state it is in. -/
def TellsState (records : Records) (job : Job) : Prop :=
  toJobStatus (BullMQJobWrapper.state ⟨records.record job⟩) = statusOf job.state

instance (records : Records) : DecidablePred (TellsState records) :=
  fun job => inferInstanceAs (Decidable (toJobStatus _ = statusOf job.state))

/-- Of one job the two listings say the same but for its status. -/
theorem statusInfo_eq_infoOf_iff {records : Records} {job : Job} :
    statusInfo (records.record job) (statusOf job.state) = infoOf records job ↔
      TellsState records job := by
  constructor
  · exact fun h => (congrArg JobStatusInfo.status h).symm
  · intro h
    rw [statusInfo, infoOf, createStatusInfo, show toJobStatus _ = _ from h]

/-- **The two listings agree** on a queue that nobody changes, with all calls answered, exactly if
one page is enough and the records of the jobs on it tell their states. -/
theorem alike_iff (dlqConfig : Option DLQConfig) (records : Records) {s : Account}
    (hs : s.queue.ids.Nodup) {status : JobStatus} (hdlq : status ≠ .dlq) {limit : ℕ}
    (hlimit : 1 ≤ limit) (n k : ℕ) :
    ((JobQueue.getJobsByStatus records undisturbed status limit).run ⟨s, n⟩).1 =
        ((getJobsByStatus dlqConfig records (fun _ => .answered) status limit).run
          ⟨s.queue, k⟩).1 ↔
      OnePage s.queue status limit ∧ ∀ job ∈ page s.queue status limit, TellsState records job := by
  have hservice : ((getJobsByStatus dlqConfig records (fun _ => (.answered : Answer Thrown)) status
      limit).run ⟨s.queue, k⟩).1 = .ok ((page s.queue status limit).map (infoOf records)) := by
    rcases run_getJobsByStatus dlqConfig records (fun _ => (.answered : Answer Thrown)) hdlq
      (mapStatusToStates_of_ne hdlq) hlimit (q := s.queue) (n := k) with ⟨-, hrun⟩ | ⟨hnot, -⟩
    · rw [hrun, page]
    · exact absurd trivial hnot
  obtain ⟨hpages, hlengths⟩ := listing_eq_page_iff (s := s) hdlq hlimit
  rw [run_getJobsByStatus_undisturbed records hs hdlq, hservice, Except.ok.injEq]
  constructor
  · intro heq
    have hone : OnePage s.queue status limit := by
      have hlength := congrArg List.length heq
      rw [List.length_map, List.length_map] at hlength
      exact hlengths hlength
    rw [hpages.mpr hone, List.map_inj_left] at heq
    exact ⟨hone, fun job hjob => statusInfo_eq_infoOf_iff.mp (heq job hjob)⟩
  · rintro ⟨hone, htells⟩
    rw [hpages.mpr hone]
    exact List.map_congr_left fun job hjob => statusInfo_eq_infoOf_iff.mpr (htells job hjob)

/-- Records of jobs that a worker takes at noon. -/
def noonRecords : Records where
  record job := { toJob := job, processedOn := if job.state = .active then some 43200000 else none }
  toJob_record _ := rfl

/-- The queue of seven jobs, and no dead letters. -/
def mixedAccount : Account where
  queue := mixedQueue
  dlqQueue := none

/-- They agree on one of the two active jobs, and not on the waiting ones, of which one is
prioritized. -/
theorem alike_mixedAccount :
    ((JobQueue.getJobsByStatus noonRecords undisturbed .active 1).run ⟨mixedAccount, 0⟩).1 =
      ((getJobsByStatus none noonRecords (fun _ => .answered) .active 1).run
        ⟨mixedQueue, 0⟩).1 ∧
    ((JobQueue.getJobsByStatus noonRecords undisturbed .waiting 2).run ⟨mixedAccount, 0⟩).1 ≠
      ((getJobsByStatus none noonRecords (fun _ => .answered) .waiting 2).run
        ⟨mixedQueue, 0⟩).1 := by
  have hiff (status : JobStatus) (hdlq : status ≠ .dlq) (limit : ℕ) (hlimit : 1 ≤ limit) :=
    alike_iff none noonRecords (s := mixedAccount) (by decide) hdlq hlimit 0 0
  exact ⟨(hiff .active (by decide) 1 (by decide)).mpr (by decide),
    fun heq => absurd ((hiff .waiting (by decide) 2 (by decide)).mp heq).1 (by decide)⟩

end KitiumJobQueue.Status
