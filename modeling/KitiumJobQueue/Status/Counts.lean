import KitiumJobQueue.Dlq.Clearing
import KitiumJobQueue.Status.Query

/-!
# Counting the jobs of a queue

`JobStatusQueryService.getCountByStatus` and `getStatusCounts`, which asks for the count of every
status in turn. A call that is rejected counts as none, and other clients may change the queue
before every call (`run_getStatusCounts`).

Where nothing fails and nobody interferes, a page of a status is as long as its count allows
(`length_getJobsByStatus`), and the counts come to more than there are jobs: those that wait are
counted under two statuses, the paused ones under three and the failed ones also as the dead letter
queue, while no status counts the prioritized ones and those that wait for children
(`total_getStatusCounts`).
-/

namespace KitiumJobQueue.Status

open Bull Effects

section Methods

variable {ε : Type} (dlqConfig : Option DLQConfig) (others : ℕ → Queue → Queue)
  (answers : ℕ → Answer ε)

/-- The loop of `getCountByStatus`. -/
def countStates : List JobState → ℕ → Async ε (Remote Queue) ℕ
  | [], count => pure count
  | state :: states, count => do
    let stateCount ← Dlq.getCountByState others answers state
    countStates states (count + stateCount)

/-- `JobStatusQueryService.getCountByStatus` -/
def getCountByStatus (status : JobStatus) : Async ε (Remote Queue) ℕ :=
  tryCatch
    (if status = .dlq then Dlq.getDLQCount dlqConfig others answers
    else countStates others answers (mapStatusToStates status) 0)
    fun _ => pure 0

/-- The statuses `getStatusCounts` goes through. -/
def countedStatuses : List JobStatus :=
  [.pending, .active, .completed, .failed, .delayed, .waiting, .paused, .dlq]

/-- The counts by status; the record need not have all of them. -/
abbrev StatusCounts := JobStatus → Option ℕ

/-- The loop of `getStatusCounts`. -/
def fillCounts : List JobStatus → StatusCounts → Async ε (Remote Queue) StatusCounts
  | [], counts => pure counts
  | status :: statuses, counts => do
    let count ← getCountByStatus dlqConfig others answers status
    fillCounts statuses (Function.update counts status (some count))

/-- `JobStatusQueryService.getStatusCounts` -/
def getStatusCounts : Async ε (Remote Queue) StatusCounts :=
  tryCatch
    (fillCounts dlqConfig others answers countedStatuses
      fun status => if status ∈ countedStatuses then some 0 else none)
    fun _ => pure fun _ => none

end Methods

/-! ## The counts -/

/-- The state that is asked for. -/
def stateOf : JobStatus → JobState
  | .pending | .waiting => .waiting
  | .active => .active
  | .completed => .completed
  | .failed | .dlq => .failed
  | .delayed => .delayed
  | .paused => .paused

section

variable {ε : Type} {dlqConfig : Option DLQConfig} {others : ℕ → Queue → Queue}
  {answers : ℕ → Answer ε} {q : Queue} {n : ℕ} {status : JobStatus}

/-- What a status is counted with in call number `n`, which meets the queue `q`. -/
def tallied (dlqConfig : Option DLQConfig) (answers : ℕ → Answer ε) (n : ℕ) (q : Queue)
    (status : JobStatus) : ℕ :=
  if (status = .dlq → Dlq.isEnabled dlqConfig) ∧ (answers n).IsAnswered then
    (found q (stateOf status)).length
  else 0

theorem mapStatusToStates_of_ne (h : status ≠ .dlq) :
    mapStatusToStates status = [stateOf status] := by
  cases status with
  | dlq => exact absurd rfl h
  | pending | active | completed | failed | delayed | waiting | paused => rfl

/-- A status with a state is one call. -/
theorem run_getCountByStatus (h : status ≠ .dlq) :
    (getCountByStatus dlqConfig others answers status).run ⟨q, n⟩ =
      (.ok (tallied dlqConfig answers n (others n q) status), ⟨others n q, n + 1⟩) := by
  have htallied : tallied dlqConfig answers n (others n q) status =
      if (answers n).IsAnswered then (found (others n q) (stateOf status)).length else 0 :=
    if_congr (and_iff_right fun heq => absurd heq h) rfl rfl
  rw [getCountByStatus, if_neg h, mapStatusToStates_of_ne h, htallied]
  rcases run_reading others answers q n fun q => q.getJobCountByTypes [stateOf status] with
    ⟨hanswer, hrun⟩ | ⟨hanswer, e, hrun⟩
  · rw [if_pos hanswer]
    refine Async.run_tryCatch_of_ok ((Async.run_bind_of_ok hrun).trans ?_)
    rw [Nat.zero_add]
    rfl
  · rw [if_neg hanswer]
    exact Async.run_tryCatch_of_error (Async.run_bind_of_error hrun)

theorem run_getCountByStatus_dlq :
    ∃ s, (getCountByStatus dlqConfig others answers .dlq).run ⟨q, n⟩ =
      (.ok (tallied dlqConfig answers n (others n q) .dlq), s) := by
  by_cases henabled : Dlq.isEnabled dlqConfig = true
  · have hrun : (Dlq.getDLQCount dlqConfig others answers).run ⟨q, n⟩ = _ :=
      Dlq.run_getDLQCount henabled
    refine ⟨⟨others n q, n + 1⟩, Async.run_tryCatch_of_ok (hrun.trans ?_)⟩
    rw [Dlq.counted, tallied, ← Dlq.getJobCountByTypes_failed]
    simp only [henabled, implies_true, true_and]
    rfl
  · refine ⟨⟨q, n⟩, Async.run_tryCatch_of_ok ?_⟩
    rw [if_pos rfl, Dlq.getDLQCount, if_neg henabled, tallied, if_neg]
    · rfl
    · exact fun h => henabled (h.1 rfl)

/-- A status is one call, and only the dead letter queue may take none. -/
theorem exists_run_getCountByStatus (dlqConfig : Option DLQConfig) (others : ℕ → Queue → Queue)
    (answers : ℕ → Answer ε) (q : Queue) (n : ℕ) (status : JobStatus) :
    ∃ s, (getCountByStatus dlqConfig others answers status).run ⟨q, n⟩ =
        (.ok (tallied dlqConfig answers n (others n q) status), s) ∧
      (status ≠ .dlq → s = ⟨others n q, n + 1⟩) := by
  by_cases h : status = .dlq
  · subst h
    obtain ⟨s, hrun⟩ := run_getCountByStatus_dlq
    exact ⟨s, hrun, absurd rfl⟩
  · exact ⟨_, run_getCountByStatus h, fun _ => rfl⟩

/-- The loop, by induction on the statuses; the dead letter queue can only be the last of them. -/
theorem run_fillCounts {statuses : List JobStatus} (hnodup : statuses.Nodup)
    (hdlq : .dlq ∉ statuses.dropLast) (counts : StatusCounts) :
    ∃ counts' s, (fillCounts dlqConfig others answers statuses counts).run ⟨q, n⟩ =
        (.ok counts', s) ∧
      (∀ i status, statuses[i]? = some status → counts' status =
        some (tallied dlqConfig answers (n + i) (seen others q n (i + 1)) status)) ∧
      ∀ status ∉ statuses, counts' status = counts status := by
  induction statuses generalizing q n counts with
  | nil => exact ⟨counts, ⟨q, n⟩, rfl, fun i status h => by simp at h, fun _ _ => rfl⟩
  | cons status statuses ih =>
    obtain ⟨hnot, hnodup'⟩ := List.nodup_cons.mp hnodup
    obtain ⟨s, hfirst, hs⟩ := exists_run_getCountByStatus dlqConfig others answers q n status
    generalize hcount : tallied dlqConfig answers n (others n q) status = count at hfirst
    obtain ⟨counts', s', hrest, hcounts, hkept⟩ : ∃ counts' s',
        (fillCounts dlqConfig others answers statuses
          (Function.update counts status (some count))).run s = (.ok counts', s') ∧
        (∀ i later, statuses[i]? = some later → counts' later =
          some (tallied dlqConfig answers (n + 1 + i)
            (seen others (others n q) (n + 1) (i + 1)) later)) ∧
        ∀ later ∉ statuses, counts' later = Function.update counts status (some count) later := by
      cases statuses with
      | nil => exact ⟨_, s, rfl, fun i later h => by simp at h, fun _ _ => rfl⟩
      | cons later statuses =>
        rw [List.dropLast_cons_of_ne_nil (List.cons_ne_nil _ _), List.mem_cons, not_or] at hdlq
        rw [hs (Ne.symm hdlq.1)]
        exact ih hnodup' hdlq.2 _
    refine ⟨counts', s', ?_, fun i later hlater => ?_, fun later hlater => ?_⟩
    · rw [fillCounts, Async.run_bind_of_ok hfirst, hrest]
    · cases i with
      | zero =>
        obtain rfl : status = later := by simpa using hlater
        rw [hkept status hnot, Function.update_self, ← hcount]
        rfl
      | succ i =>
        rw [hcounts i later (by simpa using hlater), seen_succ, Nat.add_right_comm]
        rfl
    · rw [List.mem_cons, not_or] at hlater
      rw [hkept later hlater.2, Function.update_of_ne hlater.1]

/-- **`getStatusCounts` always resolves**, with the count of every status as its own call finds the
queue, or `0` where that call is rejected or not made. -/
theorem run_getStatusCounts (dlqConfig : Option DLQConfig) (others : ℕ → Queue → Queue)
    (answers : ℕ → Answer ε) (q : Queue) (n : ℕ) :
    ∃ counts s, (getStatusCounts dlqConfig others answers).run ⟨q, n⟩ = (.ok counts, s) ∧
      ∀ i status, countedStatuses[i]? = some status → counts status =
        some (tallied dlqConfig answers (n + i) (seen others q n (i + 1)) status) := by
  have hnodup : countedStatuses.Nodup := by decide
  have hdlq : .dlq ∉ countedStatuses.dropLast := by decide
  obtain ⟨counts, s, hrun, hcounts, -⟩ := run_fillCounts hnodup hdlq _
  exact ⟨counts, s, Async.run_tryCatch_of_ok hrun, hcounts⟩

/-! ## A queue that nobody changes -/

theorem length_found_waiting (q : Queue) :
    (found q .waiting).length = q.countIn .waiting + q.countIn .paused := by
  have hstates : Queue.sanitizeJobTypes [.waiting] = [.waiting, .paused] := by decide
  rw [found, hstates, List.flatMap_cons, List.flatMap_singleton, List.length_append]
  rfl

theorem length_found_of_ne {state : JobState} (h : state ≠ .waiting) :
    (found q state).length = q.countIn state := by
  rw [found, Queue.sanitizeJobTypes_of_ne_waiting h, List.flatMap_singleton]
  rfl

/-- Every job is in one state. -/
theorem sum_countIn (q : Queue) :
    q.countIn .waiting + q.countIn .delayed + q.countIn .prioritized + q.countIn .active +
      q.countIn .completed + q.countIn .failed + q.countIn .paused + q.countIn .waitingChildren =
        q.jobs.length := by
  unfold Queue.countIn Queue.inState
  induction q.jobs with
  | nil => rfl
  | cons job jobs ih =>
    simp only [List.filter_cons, List.length_cons]
    cases job.state <;> simp <;> omega

/-- The sum of the counts. -/
def StatusCounts.total (counts : StatusCounts) : ℕ :=
  countedStatuses.foldr (fun status sum => (counts status).getD 0 + sum) 0

/-- **What the counts come to**: every job, the waiting ones once more, the paused ones twice more
and the failed ones once more where there is a dead letter queue, but for the prioritized ones and
those that wait for children. -/
theorem total_getStatusCounts (dlqConfig : Option DLQConfig) (q : Queue)
    (hanswers : ∀ i, (answers i).IsAnswered) :
    ∃ counts s, (getStatusCounts dlqConfig (fun _ => id) answers).run ⟨q, 0⟩ = (.ok counts, s) ∧
      counts.total + q.countIn .prioritized + q.countIn .waitingChildren =
        q.jobs.length + q.countIn .waiting + 2 * q.countIn .paused +
          if Dlq.isEnabled dlqConfig then q.countIn .failed else 0 := by
  obtain ⟨counts, s, hrun, hcounts⟩ := run_getStatusCounts dlqConfig (fun _ => id) answers q 0
  refine ⟨counts, s, hrun, ?_⟩
  have hcount (i : ℕ) (status : JobStatus) (h : countedStatuses[i]? = some status)
      (hne : status ≠ .dlq) : counts status = some (found q (stateOf status)).length := by
    rw [hcounts i status h, seen_id, tallied, if_pos ⟨fun heq => absurd heq hne, hanswers _⟩]
  have hdlq : counts .dlq = some (if Dlq.isEnabled dlqConfig then q.countIn .failed else 0) := by
    rw [hcounts 7 .dlq rfl, seen_id, tallied, stateOf, length_found_of_ne (by decide)]
    simp only [forall_const, hanswers, and_true]
  have hsum := sum_countIn q
  have hwaiting := length_found_waiting q
  simp only [StatusCounts.total, countedStatuses, List.foldr_cons, List.foldr_nil, hdlq,
    hcount 0 .pending rfl (by decide), hcount 1 .active rfl (by decide),
    hcount 2 .completed rfl (by decide), hcount 3 .failed rfl (by decide),
    hcount 4 .delayed rfl (by decide), hcount 5 .waiting rfl (by decide),
    hcount 6 .paused rfl (by decide), Option.getD_some, stateOf, hwaiting,
    length_found_of_ne (q := q) (by decide : JobState.active ≠ .waiting),
    length_found_of_ne (q := q) (by decide : JobState.completed ≠ .waiting),
    length_found_of_ne (q := q) (by decide : JobState.failed ≠ .waiting),
    length_found_of_ne (q := q) (by decide : JobState.delayed ≠ .waiting),
    length_found_of_ne (q := q) (by decide : JobState.paused ≠ .waiting)]
  omega

/-- Seven jobs come to ten: one of them is left out, and four are counted again. -/
theorem total_mixedQueue :
    ∃ counts s, (getStatusCounts (some { enabled := true }) (fun _ => id)
        fun _ => (.answered : Answer String)).run ⟨mixedQueue, 0⟩ = (.ok counts, s) ∧
      counts.total = 10 := by
  obtain ⟨counts, s, hrun, htotal⟩ := @total_getStatusCounts String (fun _ => .answered)
    (some { enabled := true }) mixedQueue fun _ => trivial
  have hcounts : mixedQueue.countIn .prioritized = 1 ∧ mixedQueue.countIn .waitingChildren = 0 ∧
      mixedQueue.jobs.length + mixedQueue.countIn .waiting + 2 * mixedQueue.countIn .paused +
        (if Dlq.isEnabled (some { enabled := true }) then mixedQueue.countIn .failed else 0) =
          11 := by
    decide
  exact ⟨counts, s, hrun, by omega⟩

theorem run_getDLQJobs (henabled : Dlq.isEnabled dlqConfig = true) {limit : ℕ} (hlimit : 1 ≤ limit)
    (hanswer : (answers n).IsAnswered) :
    (Dlq.getDLQJobs dlqConfig answers limit).run ⟨q, n⟩ =
      (.ok (((q.inState .failed).take limit).map Dlq.toDLQJobInfo), ⟨q, n + 1⟩) := by
  rw [Dlq.getDLQJobs, if_pos henabled, ← range_zero _ hlimit]
  exact Async.run_tryCatch_of_ok
    (Async.run_bind_of_ok (run_call_of_answered (r := ⟨q, n⟩) hanswer.eq))

/-- **A page of a status is as long as its count allows.** -/
theorem length_getJobsByStatus (dlqConfig : Option DLQConfig) (records : Records) (q : Queue)
    (status : JobStatus) {limit : ℕ} (hlimit : 1 ≤ limit) (hanswer : (answers n).IsAnswered) :
    ∃ count infos s s',
      (getCountByStatus dlqConfig (fun _ => id) answers status).run ⟨q, n⟩ = (.ok count, s) ∧
      (getJobsByStatus dlqConfig records answers status limit).run ⟨q, n⟩ = (.ok infos, s') ∧
        infos.length = min limit count := by
  obtain ⟨s, hcount, -⟩ := exists_run_getCountByStatus dlqConfig (fun _ => id) answers q n status
  by_cases hdlq : status = .dlq
  · subst hdlq
    by_cases henabled : Dlq.isEnabled dlqConfig = true
    · refine ⟨_, _, s, _, hcount, Async.run_tryCatch_of_ok (Async.run_bind_of_ok
        (run_getDLQJobs henabled hlimit hanswer)), ?_⟩
      rw [tallied, if_pos ⟨fun _ => henabled, hanswer⟩, stateOf, length_found_of_ne (by decide)]
      simp [Queue.countIn]
    · refine ⟨_, [], s, ⟨q, n⟩, hcount, ?_, ?_⟩
      · rw [getJobsByStatus, if_pos rfl, Dlq.getDLQJobs, if_neg henabled]
        rfl
      · rw [tallied, if_neg fun h => henabled (h.1 rfl), Nat.min_zero]
        rfl
  · rcases run_getJobsByStatus dlqConfig records answers hdlq (mapStatusToStates_of_ne hdlq) hlimit
      with ⟨-, hrun⟩ | ⟨hrejected, -⟩
    · refine ⟨_, _, s, _, hcount, hrun, ?_⟩
      rw [tallied, if_pos ⟨fun heq => absurd heq hdlq, hanswer⟩, List.length_map, List.length_take]
      rfl
    · exact absurd hanswer hrejected

/-- Of the waiting and the paused job, which are counted as waiting, a page of one lists one. -/
theorem length_mixedQueue :
    ∃ infos s s',
      (getCountByStatus none (fun _ => id) (fun _ => (.answered : Answer String)) .waiting).run
        ⟨mixedQueue, 0⟩ = (.ok 2, s) ∧
      (getJobsByStatus none bareRecords (fun _ => (.answered : Answer String)) .waiting 1).run
        ⟨mixedQueue, 0⟩ = (.ok infos, s') ∧ infos.length = 1 := by
  obtain ⟨count, infos, s, s', hcount, hinfos, hlength⟩ :=
    @length_getJobsByStatus String (fun _ => .answered) 0 none bareRecords mixedQueue .waiting 1
      le_rfl trivial
  have htwo : ((getCountByStatus none (fun _ => id) (fun _ => (.answered : Answer String))
      .waiting).run ⟨mixedQueue, 0⟩).1 = .ok 2 := rfl
  rw [hcount] at htwo
  obtain rfl := Except.ok.inj htwo
  exact ⟨infos, s, s', hcount, hinfos, hlength⟩

end

end KitiumJobQueue.Status
