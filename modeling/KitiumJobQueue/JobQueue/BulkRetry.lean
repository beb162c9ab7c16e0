import KitiumJobQueue.JobQueue.Listing

/-!
# What `bulkRetry` puts back

`bulkRetry` knows the jobs it has listed by their bare ids. It looks them up in the main queue also
where they were listed from the dead letter queue, and stops at the first id it does not find, which
is what a job leaves behind that someone has removed in the meantime.

`retriesListed_iff` says exactly when it asks for no other job than it has listed to be put back,
and leaves out no listed job because another one is gone.
-/

namespace KitiumJobQueue.JobQueue

open Effects JavaScript Bull
open Status (JobStatus JobStatusInfo Records)

variable {records : Records} {choices : ℕ → Choice} {requeue : Requeue} {stack : String}
  {missing : Thrown}

/-! ## One job -/

/-- The job is found: it is there when it is looked up, and the look-up is answered. -/
def Found (choices : ℕ → Choice) (r : Remote Account) (jobId : String) : Prop :=
  (choices r.calls).answer.IsAnswered ∧ (current choices r).Stores ⟨.main, jobId⟩

/-- What becomes of the queues when BullMQ is asked to put a job back. -/
structure Retried (choices : ℕ → Choice) (r : Remote Account) (jobId : String)
    (r' : Remote Account) : Prop where
  calls : r'.calls = r.calls + 2
  retries : r'.server.retries = ⟨.main, jobId⟩ :: r.server.retries
  stores : ∀ a, r'.server.Stores a ↔ (current choices (next choices r)).Stores a

theorem Retried.onlyRemoved {r r' : Remote Account} {jobId : String}
    (h : Retried choices r jobId r') {s : Account} (hr : OnlyRemoved choices s r) :
    OnlyRemoved choices s r' := by
  obtain ⟨s', calls⟩ := r'
  obtain rfl : calls = _ := h.calls
  exact hr.next.of_stores h.stores

/-- A move tells whether the job is there. -/
theorem moveToWait_isDone (requeue : Requeue) (jobId : String) (s : Account) :
    (s.moveToWait requeue jobId).1 = true ↔ s.Stores ⟨.main, jobId⟩ := by
  unfold Account.moveToWait
  split
  case isTrue hthere => exact iff_of_true rfl hthere
  case isFalse hgone => exact iff_of_false Bool.false_ne_true hgone

/-- It keeps the account and what is stored. -/
theorem keeps_moveToWait (requeue : Requeue) (jobId : String) (s : Account) :
    (s.moveToWait requeue jobId).2.retries = s.retries ∧
      ∀ a, (s.moveToWait requeue jobId).2.Stores a ↔ s.Stores a := by
  unfold Account.moveToWait
  split
  case isTrue =>
    refine ⟨rfl, fun a => ?_⟩
    obtain ⟨name, id⟩ := a
    cases name with
    | main => exact requeue.mem_ids_apply
    | dlq => exact Iff.rfl
  case isFalse => exact ⟨rfl, fun _ => Iff.rfl⟩

/-- What `retryJob` does with a job that it has found. -/
def moveJob (choices : ℕ → Choice) (requeue : Requeue) (missing : Thrown) (jobId : String) :
    Async Thrown (Remote Account) Unit := do
  noteRetry jobId
  if ← ask choices (Account.moveToWait requeue jobId) then
    .modify fun r => { r with
      server.toState := r.server.toState.record (.emitted .jobRetrying (some jobId) none) }
  else throw missing

/-- BullMQ is asked; and it succeeds if the call is answered and the job is there then. -/
theorem run_moveJob (choices : ℕ → Choice) (requeue : Requeue) (missing : Thrown) (jobId : String)
    (r : Remote Account) :
    ∃ r', Retried choices r jobId r' ∧
      (((choices (r.calls + 1)).answer.IsAnswered ∧
          (current choices (next choices r)).Stores ⟨.main, jobId⟩) ∧
        (moveJob choices requeue missing jobId).run (next choices r) = (.ok (), r') ∨
      ¬ ((choices (r.calls + 1)).answer.IsAnswered ∧
          (current choices (next choices r)).Stores ⟨.main, jobId⟩) ∧
        ∃ e, (moveJob choices requeue missing jobId).run (next choices r) = (.error e, r')) := by
  -- the queues once account is taken, and when the move is carried out
  let noted : Remote Account :=
    { next choices r with
      server.retries := ⟨.main, jobId⟩ :: (next choices r).server.retries }
  have hnote : (noteRetry jobId).run (next choices r) = (.ok (), noted) := rfl
  obtain ⟨hretries, hkeeps⟩ := keeps_moveToWait requeue jobId (current choices noted)
  have hstores (a : Address) :
      (current choices noted).Stores a ↔ (current choices (next choices r)).Stores a := Iff.rfl
  have hdone := (moveToWait_isDone requeue jobId (current choices noted)).trans (hstores _)
  unfold moveJob
  rw [Async.run_bind_of_ok hnote]
  cases hmove : (choices (r.calls + 1)).answer with
  | answered =>
    have hrun : (ask choices (Account.moveToWait requeue jobId)).run noted = _ :=
      run_ask_answered _ hmove
    rw [Async.run_bind_of_ok hrun]
    by_cases hthere : (current choices (next choices r)).Stores ⟨.main, jobId⟩
    · rw [hdone.mpr hthere, if_pos rfl]
      exact ⟨_, ⟨rfl, hretries, hkeeps⟩, .inl ⟨⟨trivial, hthere⟩, rfl⟩⟩
    · rw [if_neg (mt hdone.mp hthere)]
      exact ⟨_, ⟨rfl, hretries, hkeeps⟩, .inr ⟨fun h => hthere h.2, missing, rfl⟩⟩
  | rejected e applied =>
    have hrun : (ask choices (Account.moveToWait requeue jobId)).run noted = _ :=
      run_ask_rejected _ hmove
    rw [Async.run_bind_of_error hrun]
    refine ⟨_, ⟨rfl, ?_, fun a => ?_⟩, .inr ⟨fun h => h.1, e, rfl⟩⟩
    · cases applied with
      | true => exact hretries
      | false => rfl
    · cases applied with
      | true => exact hkeeps a
      | false => exact Iff.rfl

/-- **One retry.** Where the job is found, BullMQ is asked to put it back, and that succeeds if the
call is answered and the job is still there; otherwise nothing is done. -/
theorem run_retryJob (choices : ℕ → Choice) (requeue : Requeue) (stack : String)
    (missing : Thrown) (jobId : String) (r : Remote Account) :
    (Found choices r jobId ∧ ∃ r', Retried choices r jobId r' ∧
      (((choices (r.calls + 1)).answer.IsAnswered ∧
          (current choices (next choices r)).Stores ⟨.main, jobId⟩) ∧
        (retryJob choices requeue stack missing jobId).run r = (.ok (), r') ∨
      ¬ ((choices (r.calls + 1)).answer.IsAnswered ∧
          (current choices (next choices r)).Stores ⟨.main, jobId⟩) ∧
        ∃ e, (retryJob choices requeue stack missing jobId).run r = (.error e, r'))) ∨
    (¬ Found choices r jobId ∧
      ∃ e, (retryJob choices requeue stack missing jobId).run r = (.error e, next choices r)) := by
  unfold retryJob
  rcases run_ask_read choices (fun s => s.queue.getJob jobId) r with
    ⟨hanswer, hrun⟩ | ⟨hnot, e, hrun⟩
  · rw [Async.run_bind_of_ok hrun]
    cases hjob : (current choices r).queue.getJob jobId with
    | none =>
      have hgone : ¬ (current choices r).Stores ⟨.main, jobId⟩ := Queue.getJob_eq_none.mp hjob
      exact .inr ⟨fun hfound => hgone hfound.2, _, rfl⟩
    | some job =>
      obtain ⟨hmem, rfl⟩ := Queue.getJob_eq_some hjob
      have hthere : (current choices r).Stores ⟨.main, job.id⟩ := Queue.mem_ids.mpr ⟨job, hmem, rfl⟩
      exact .inl ⟨⟨hanswer, hthere⟩, run_moveJob choices requeue missing job.id r⟩
  · exact .inr ⟨fun hfound => hnot hfound.1, e, Async.run_bind_of_error hrun⟩

/-! ## The loop -/

/-- What the loop asks for, whatever fails: some of the jobs, in the order they have. -/
theorem retries_retryJobs (choices : ℕ → Choice) (requeue : Requeue) (stack : String)
    (missing : Thrown) (jobs : List JobStatusInfo) (retried : ℕ) (r : Remote Account) :
    ∃ ids : List String, ids.Sublist (jobs.map JobStatusInfo.id) ∧
      ((retryJobs choices requeue stack missing jobs retried).run r).2.server.retries =
        (ids.map (Address.mk .main)).reverse ++ r.server.retries := by
  induction jobs generalizing retried r with
  | nil => exact ⟨[], .slnil, rfl⟩
  | cons job jobs ih =>
    unfold retryJobs
    rcases run_retryJob choices requeue stack missing job.id r with
      ⟨-, r', hretried, ⟨-, hrun⟩ | ⟨-, e, hrun⟩⟩ | ⟨-, e, hrun⟩
    · rw [Async.run_bind_of_ok hrun]
      obtain ⟨ids, hids, hretries⟩ := ih (retried + 1) r'
      refine ⟨job.id :: ids, hids.cons_cons job.id, ?_⟩
      rw [hretries, hretried.retries]
      simp
    · rw [Async.run_bind_of_error hrun]
      exact ⟨[job.id], (List.nil_sublist _).cons_cons job.id, hretried.retries⟩
    · rw [Async.run_bind_of_error hrun]
      exact ⟨[], List.nil_sublist _, rfl⟩

/-- The first job is found, and the account says so. -/
theorem mem_retries_of_found (requeue : Requeue) (stack : String) (missing : Thrown)
    {job : JobStatusInfo} {r : Remote Account} (h : Found choices r job.id)
    (jobs : List JobStatusInfo) (retried : ℕ) :
    ⟨.main, job.id⟩ ∈
      ((retryJobs choices requeue stack missing (job :: jobs) retried).run r).2.server.retries := by
  unfold retryJobs
  rcases run_retryJob choices requeue stack missing job.id r with
    ⟨-, r', hretried, ⟨-, hrun⟩ | ⟨-, e, hrun⟩⟩ | ⟨hnot, -⟩
  · rw [Async.run_bind_of_ok hrun]
    obtain ⟨ids, -, hretries⟩ := retries_retryJobs choices requeue stack missing jobs
      (retried + 1) r'
    rw [hretries, hretried.retries]
    exact List.mem_append_right _ List.mem_cons_self
  · rw [Async.run_bind_of_error hrun, hretried.retries]
    exact List.mem_cons_self
  · exact absurd h hnot

/-- If the first job is not found, the loop ends at once. -/
theorem run_retryJobs_of_not_found (requeue : Requeue) (stack : String) (missing : Thrown)
    {job : JobStatusInfo} {r : Remote Account} (h : ¬ Found choices r job.id)
    (jobs : List JobStatusInfo) (retried : ℕ) :
    ∃ e, (retryJobs choices requeue stack missing (job :: jobs) retried).run r =
      (.error e, next choices r) := by
  unfold retryJobs
  rcases run_retryJob choices requeue stack missing job.id r with ⟨hfound, -⟩ | ⟨-, e, hrun⟩
  · exact absurd hfound h
  · exact ⟨e, Async.run_bind_of_error hrun⟩

/-- The loop over the ids, begun at `r`, has been through with the first `i` of them, and the next
one, if there is one, is gone: it was not found, or it was asked for in vain. -/
structure Stops (choices : ℕ → Choice) (s : Account) (r : Remote Account) (ids : List String)
    (i : ℕ) (r' : Remote Account) : Prop where
  onlyRemoved : OnlyRemoved choices s r'
  retries : ∃ n, i ≤ n ∧ n ≤ i + 1 ∧
    r'.server.retries = ((ids.take n).map (Address.mk .main)).reverse ++ r.server.retries
  there : ∀ j < i, ∀ id ∈ ids[j]?, ¬ RemovedBy choices (r.calls + 2 * j + 1) ⟨.main, id⟩
  gone : ∀ id ∈ ids[i]?, ¬ r'.server.Stores ⟨.main, id⟩ ∧
    (r'.calls = r.calls + 2 * i + 1 ∨
      r'.calls = r.calls + 2 * i + 2 ∧ ¬ RemovedBy choices (r.calls + 2 * i) ⟨.main, id⟩)

/-- One more job is put back before. -/
theorem Stops.cons {s : Account} {r r₁ r' : Remote Account} {id : String} {ids : List String}
    {i : ℕ} (hretried : Retried choices r id r₁)
    (hthere : ¬ RemovedBy choices (r.calls + 1) ⟨.main, id⟩) (h : Stops choices s r₁ ids i r') :
    Stops choices s r (id :: ids) (i + 1) r' where
  onlyRemoved := h.onlyRemoved
  retries := by
    obtain ⟨n, hle, hge, hretries⟩ := h.retries
    refine ⟨n + 1, by omega, by omega, ?_⟩
    rw [hretries, hretried.retries]
    simp
  there j hj id' hid' := by
    cases j with
    | zero =>
      obtain rfl := Option.some.inj hid'
      exact hthere
    | succ j =>
      have := h.there j (by omega) id' hid'
      rw [hretried.calls] at this
      exact (show r.calls + 2 + 2 * j + 1 = r.calls + 2 * (j + 1) + 1 by omega) ▸ this
  gone id' hid' := by
    obtain ⟨hgone, hcalls⟩ := h.gone id' hid'
    rw [hretried.calls] at hcalls
    rw [show r.calls + 2 * (i + 1) = r.calls + 2 + 2 * i by omega]
    exact ⟨hgone, hcalls⟩

/-- **The loop**, no call being rejected. By induction on the jobs. -/
theorem stops_retryJobs (requeue : Requeue) (stack : String) (missing : Thrown)
    (hall : ∀ n, (choices n).answer.IsAnswered) {s : Account} (jobs : List JobStatusInfo)
    (retried : ℕ) {r : Remote Account} (h : OnlyRemoved choices s r) :
    ∃ i, Stops choices s r (jobs.map JobStatusInfo.id) i
      ((retryJobs choices requeue stack missing jobs retried).run r).2 := by
  induction jobs generalizing retried r with
  | nil =>
    exact ⟨0, h, ⟨0, le_rfl, Nat.zero_le 1, rfl⟩, fun j hj => absurd hj (Nat.not_lt_zero j),
      fun id hid => nomatch hid⟩
  | cons job jobs ih =>
    unfold retryJobs
    rcases run_retryJob choices requeue stack missing job.id r with
      ⟨hfound, r', hretried, ⟨hmoved, hrun⟩ | ⟨hnot, e, hrun⟩⟩ | ⟨hnot, e, hrun⟩
    · obtain ⟨i, hstops⟩ := ih (retried + 1) (hretried.onlyRemoved h)
      rw [Async.run_bind_of_ok hrun]
      exact ⟨i + 1, hstops.cons hretried (h.next.stores_current.mp hmoved.2).2⟩
    · rw [Async.run_bind_of_error hrun]
      refine ⟨0, hretried.onlyRemoved h, ⟨1, Nat.zero_le 1, le_rfl, hretried.retries⟩,
        fun j hj => absurd hj (Nat.not_lt_zero j), fun id hid => ?_⟩
      obtain rfl := Option.some.inj hid
      refine ⟨fun hthere => hnot ⟨hall _, (hretried.stores _).mp hthere⟩, .inr ⟨?_, ?_⟩⟩
      · exact hretried.calls
      · exact (h.stores_current.mp hfound.2).2
    · rw [Async.run_bind_of_error hrun]
      refine ⟨0, h.next, ⟨0, le_rfl, Nat.zero_le 1, rfl⟩,
        fun j hj => absurd hj (Nat.not_lt_zero j), fun id hid => ?_⟩
      obtain rfl := Option.some.inj hid
      exact ⟨fun hthere => hnot ⟨hall _, hthere⟩, .inl rfl⟩

/-! ## The claim on a whole call -/

/-- The queues before anything was asked for. -/
def Account.ofState (s : State) : Account := { toState := s }

/-- The queue that holds the jobs with the status. -/
def home (status : JobStatus) : QueueName := if status = .dlq then .dlq else .main

/-- The jobs `getJobsByStatus` lists. -/
def listed (records : Records) (choices : ℕ → Choice) (status : JobStatus) (limit : ℕ) (s : State) :
    List Address :=
  match ((getJobsByStatus records choices status limit).run ⟨.ofState s, 0⟩).1 with
  | .ok infos => infos.map fun info => ⟨home status, info.id⟩
  | .error _ => []

/-- What `bulkRetry` leaves. -/
def outcome (records : Records) (choices : ℕ → Choice) (requeue : Requeue) (stack : String)
    (missing : Thrown) (status : JobStatus) (limit : ℕ) (s : State) : Account :=
  ((bulkRetry records choices requeue stack missing status limit).run ⟨.ofState s, 0⟩).2.server

/-- BullMQ was asked to put back listed jobs only; and if no call is rejected, a listed job that is
gone has kept it from being asked for no other that is still there. -/
structure RetriesListed (choices : ℕ → Choice) (listed : List Address) (s : Account) : Prop where
  own : ∀ a ∈ s.retries, a ∈ listed
  others : (∀ n, (choices n).answer.IsAnswered) → (∃ a ∈ listed, ¬ s.Stores a) →
    ∀ a ∈ listed, s.Stores a → a ∈ s.retries

/-- The jobs there are to list when the first call is carried out. -/
def candidates (choices : ℕ → Choice) (status : JobStatus) (limit : ℕ) (s : State) :
    List Address :=
  (listing status limit (current choices ⟨.ofState s, 0⟩)).map fun job => ⟨home status, job.id⟩

/-- When the `i`-th job is looked up or moved (the calls for that follow the listing and one call
for each job), it has not been removed by others, or the jobs after it have been as well. -/
def GoTogether (choices : ℕ → Choice) (jobs : List Address) : Prop :=
  ∀ i j a b, i < j → jobs[i]? = some a → jobs[j]? = some b →
    ∀ n, n = jobs.length + 1 + 2 * i ∨ n = jobs.length + 1 + 2 * i + 1 →
      RemovedBy choices n a → RemovedBy choices n b

/-- The first of the jobs is looked up under an id that the main queue stores no job under, and if
no call is rejected, the jobs have all been removed by others then, or none of them has. -/
def Detached (choices : ℕ → Choice) (s : State) (jobs : List Address) : Prop :=
  ∀ a ∈ jobs.head?, (choices 0).answer.IsAnswered →
    ¬ ((choices 1).answer.IsAnswered ∧ a.id ∈ s.queue.ids ∧
        ¬ RemovedBy choices 1 ⟨.main, a.id⟩) ∧
      ((∀ n, (choices n).answer.IsAnswered) → (∃ b ∈ jobs, RemovedBy choices 1 b) →
        ∀ b ∈ jobs, RemovedBy choices 1 b)

/-- The condition under which `bulkRetry` retries what it has listed. -/
def Undivided (choices : ℕ → Choice) (status : JobStatus) (limit : ℕ) (s : State) : Prop :=
  if status = .dlq then Detached choices s (candidates choices status limit s)
  else (∀ n, (choices n).answer.IsAnswered) → GoTogether choices (candidates choices status limit s)

section Whole

variable {status : JobStatus} {limit : ℕ} {s : State}

/-- A candidate is there when the listing is made. -/
theorem stores_of_mem_candidates {a : Address} (h : a ∈ candidates choices status limit s) :
    (Account.ofState s).Stores a ∧ ¬ RemovedBy choices 0 a := by
  obtain ⟨job, hjob, rfl⟩ := List.mem_map.mp h
  rw [← OnlyRemoved.stores_current (onlyRemoved_zero (Account.ofState s))]
  unfold listing at hjob
  unfold home
  by_cases hdlq : status = .dlq
  · rw [dif_pos hdlq] at hjob
    rw [if_pos hdlq]
    unfold State.dlqJobs at hjob
    cases hq : (current choices ⟨.ofState s, 0⟩).dlqQueue with
    | none =>
      rw [hq] at hjob
      exact absurd hjob List.not_mem_nil
    | some q =>
      rw [hq] at hjob
      obtain ⟨hmem, -⟩ := Queue.mem_inState.mp ((range_sublist _ _ _).subset hjob)
      exact ⟨q, hq, Queue.mem_ids.mpr ⟨job, hmem, rfl⟩⟩
  · rw [dif_neg hdlq] at hjob
    rw [if_neg hdlq]
    exact Queue.mem_ids.mpr ⟨job, Queue.mem_jobs_of_mem_getJobsOf hjob, rfl⟩

/-- The candidates are different jobs. -/
theorem nodup_candidates (choices : ℕ → Choice) (limit : ℕ) (hnodup : s.queue.ids.Nodup)
    (hdlq : status ≠ .dlq) :
    (candidates choices status limit s).Nodup := by
  have htypes : (Queue.sanitizeJobTypes (getBullmqStatusesForJobStatus status hdlq)).Nodup := by
    cases status with
    | dlq => exact absurd rfl hdlq
    | pending | active | completed | failed | delayed | waiting | paused => decide +revert
  have hcurrent : (current choices ⟨.ofState s, 0⟩).queue.ids.Nodup :=
    hnodup.sublist (List.filter_sublist.map Job.id)
  unfold candidates listing
  rw [dif_neg hdlq]
  refine List.Nodup.of_map Address.id ?_
  rw [List.map_map]
  exact Queue.nodup_ids_getJobsOf hcurrent htypes _ _

/-- Nothing is listed and nothing is asked for. -/
theorem retriesListed_nil {w : Account} (h : w.retries = []) : RetriesListed choices [] w where
  own a ha := by rwa [h] at ha
  others _ _ a ha := absurd ha List.not_mem_nil

/-- After a listing that is rejected nothing is asked for. -/
theorem retriesListed_of_rejected {e : Thrown} {m : ℕ}
    (h : (getJobsByStatus records choices status limit).run ⟨.ofState s, 0⟩ =
      (.error e, (next choices)^[m] ⟨.ofState s, 0⟩)) :
    RetriesListed choices (listed records choices status limit s)
      (outcome records choices requeue stack missing status limit s) := by
  have hlisted : listed records choices status limit s = [] := by
    rw [listed, h]
  have houtcome : (outcome records choices requeue stack missing status limit s).retries = [] := by
    rw [outcome, bulkRetry, Async.run_bind_of_error h]
    exact retries_iterate m
  rw [hlisted]
  exact retriesListed_nil houtcome

/-- A listing that is answered, and what follows it. -/
theorem listed_of_answered (requeue : Requeue) (stack : String) (missing : Thrown)
    {infos : List JobStatusInfo} {m : ℕ}
    (h : (getJobsByStatus records choices status limit).run ⟨.ofState s, 0⟩ =
      (.ok infos, (next choices)^[m] ⟨.ofState s, 0⟩))
    (hids : infos.map JobStatusInfo.id =
      (listing status limit (current choices ⟨.ofState s, 0⟩)).map Job.id) :
    listed records choices status limit s = candidates choices status limit s ∧
      candidates choices status limit s =
        (infos.map JobStatusInfo.id).map (Address.mk (home status)) ∧
      outcome records choices requeue stack missing status limit s =
        ((retryJobs choices requeue stack missing infos 0).run
          ((next choices)^[m] ⟨.ofState s, 0⟩)).2.server := by
  have hcandidates : candidates choices status limit s =
      (infos.map JobStatusInfo.id).map (Address.mk (home status)) := by
    rw [hids, List.map_map]
    rfl
  refine ⟨?_, hcandidates, ?_⟩
  · rw [listed, h, hcandidates, List.map_map]
    rfl
  · rw [outcome, bulkRetry, Async.run_bind_of_ok h]

section Stopped

variable {w : Account} {r r' : Remote Account} {ids : List String} {i : ℕ}

/-- What has been asked for by then. -/
theorem Stops.mem_retries (h : Stops choices w r ids i r') (hretries : r.server.retries = [])
    {id : String} : (id ∈ ids.take i → ⟨.main, id⟩ ∈ r'.server.retries) ∧
      (⟨.main, id⟩ ∈ r'.server.retries → id ∈ ids.take (i + 1)) := by
  have hinj : Function.Injective (Address.mk .main) := fun _ _ heq => (Address.mk.inj heq).2
  obtain ⟨n, hle, hge, hasked⟩ := h.retries
  rw [hasked, hretries, List.append_nil, List.mem_reverse, List.mem_map_of_injective hinj]
  exact ⟨fun hid => List.take_subset_take_left ids hle hid,
    fun hid => List.take_subset_take_left ids hge hid⟩

/-- A job that others have removed when its turn comes is the one the loop stops at, or comes after
it. -/
theorem Stops.calls_le (h : Stops choices w r ids i r') {j n : ℕ} {id : String}
    (hid : ids[j]? = some id) (hn : n = r.calls + 2 * j ∨ n = r.calls + 2 * j + 1)
    (hremoved : RemovedBy choices n ⟨.main, id⟩) : i ≤ j ∧ r'.calls ≤ n + 1 := by
  have hle : i ≤ j := by
    by_contra hlt
    exact h.there j (by omega) id hid (hremoved.mono (by omega))
  refine ⟨hle, ?_⟩
  obtain ⟨x, hx⟩ : ∃ x, ids[i]? = some x :=
    ⟨_, List.getElem?_eq_getElem (hle.trans_lt (List.getElem?_eq_some_iff.mp hid).1)⟩
  obtain ⟨-, hend | ⟨hend, hthere⟩⟩ := h.gone x hx
  · omega
  · have hne : n ≠ r.calls + 2 * i := by
      rintro rfl
      obtain rfl : j = i := by omega
      obtain rfl := Option.some.inj (hx.symm.trans hid)
      exact hthere hremoved
    omega

/-- The loop stops at the look-up or at the move of a job that others have removed. -/
theorem Stops.exists_last (h : Stops choices w r ids i r')
    (hstores : ∀ id ∈ ids, w.Stores ⟨.main, id⟩) {id : String} (hid : ids[i]? = some id) :
    ∃ n, r'.calls = n + 1 ∧ (n = r.calls + 2 * i ∨ n = r.calls + 2 * i + 1) ∧
      RemovedBy choices n ⟨.main, id⟩ := by
  obtain ⟨hgone, hend⟩ := h.gone id hid
  obtain ⟨n, hn, hturn⟩ : ∃ n, r'.calls = n + 1 ∧
      (n = r.calls + 2 * i ∨ n = r.calls + 2 * i + 1) := by
    rcases hend with hend | ⟨hend, -⟩
    · exact ⟨r.calls + 2 * i, hend, .inl rfl⟩
    · exact ⟨r.calls + 2 * i + 1, hend, .inr rfl⟩
  refine ⟨n, hn, hturn, ?_⟩
  rw [h.onlyRemoved.stores_iff hn] at hgone
  by_contra hnot
  exact hgone ⟨hstores id (List.mem_of_getElem? hid), hnot⟩

variable (h : Stops choices w r ids i r') (hcalls : ids ≠ [] → r.calls = ids.length + 1)
  (hretries : r.server.retries = []) (hstores : ∀ id ∈ ids, w.Stores ⟨.main, id⟩)

include h hcalls hretries hstores

/-- If no job is left out, the jobs go together. -/
theorem Stops.goTogether (hnodup : ids.Nodup)
    (hothers : (∃ a ∈ ids.map (Address.mk .main), ¬ r'.server.Stores a) →
      ∀ a ∈ ids.map (Address.mk .main), r'.server.Stores a → a ∈ r'.server.retries) :
    GoTogether choices (ids.map (Address.mk .main)) := by
  intro i' j a b hlt ha hb n hn hremoved
  by_contra hnot
  rw [List.getElem?_map, Option.map_eq_some_iff] at ha hb
  obtain ⟨id, hid, rfl⟩ := ha
  obtain ⟨id', hid', rfl⟩ := hb
  rw [List.length_map, ← hcalls (List.ne_nil_of_mem (List.mem_of_getElem? hid))] at hn
  obtain ⟨hi, hle⟩ := h.calls_le hid hn hremoved
  obtain ⟨x, hx⟩ : ∃ x, ids[i]? = some x :=
    ⟨_, List.getElem?_eq_getElem (hi.trans_lt (List.getElem?_eq_some_iff.mp hid).1)⟩
  -- the later job is still there, so it must have been asked for before
  have hstored : r'.server.Stores ⟨.main, id'⟩ := by
    refine (h.onlyRemoved _).mpr ⟨hstores id' (List.mem_of_getElem? hid'), fun m hm hmem => ?_⟩
    exact hnot ⟨m, by omega, hmem⟩
  have hmem := hothers ⟨_, List.mem_map_of_mem (List.mem_of_getElem? hx), (h.gone x hx).1⟩ _
    (List.mem_map_of_mem (List.mem_of_getElem? hid')) hstored
  obtain ⟨j', hj', heq⟩ := List.mem_take_iff_getElem.mp ((h.mem_retries hretries).2 hmem)
  have hj : j' = j :=
    hnodup.getElem_inj_iff.mp (heq.trans (List.getElem?_eq_some_iff.mp hid').2.symm)
  omega

/-- If the jobs go together, the ones that come after the one the loop has stopped at are gone. -/
theorem Stops.others (hgo : GoTogether choices (ids.map (Address.mk .main))) :
    ∀ a ∈ ids.map (Address.mk .main), r'.server.Stores a → a ∈ r'.server.retries := by
  intro a ha hstored
  obtain ⟨id, hid, rfl⟩ := List.mem_map.mp ha
  obtain ⟨j, hj, hval⟩ := List.mem_iff_getElem.mp hid
  rcases Nat.lt_or_ge j i with hi | hi
  · exact (h.mem_retries hretries).1 (List.mem_take_iff_getElem.mpr ⟨j, by omega, hval⟩)
  · obtain ⟨x, hx⟩ : ∃ x, ids[i]? = some x := ⟨_, List.getElem?_eq_getElem (hi.trans_lt hj)⟩
    obtain ⟨n, hn, hturn, hremoved⟩ := h.exists_last hstores hx
    rw [h.onlyRemoved.stores_iff hn] at hstored
    have hid' : ids[j]? = some id := List.getElem?_eq_some_iff.mpr ⟨hj, hval⟩
    have hne : i ≠ j := by
      rintro rfl
      obtain rfl : x = id := Option.some.inj (hx.symm.trans hid')
      exact hstored.2 hremoved
    rw [hcalls (List.ne_nil_of_mem hid)] at hturn
    refine absurd (hgo i j _ _ (by omega) ?_ ?_ n (by rwa [List.length_map]) hremoved) hstored.2
    · rw [List.getElem?_map, hx]
      rfl
    · rw [List.getElem?_map, hid']
      rfl

end Stopped

/-- What is listed from the main queue. -/
theorem retriesListed_iff_of_main (hnodup : s.queue.ids.Nodup) (hdlq : status ≠ .dlq) :
    RetriesListed choices (listed records choices status limit s)
        (outcome records choices requeue stack missing status limit s) ↔
      ((∀ n, (choices n).answer.IsAnswered) →
        GoTogether choices (candidates choices status limit s)) := by
  rcases run_getJobsByStatus records choices status limit ⟨.ofState s, 0⟩ with
    ⟨infos, m, hrun, hids, hm⟩ | ⟨hnot, e, m, hrun⟩
  · obtain ⟨hlisted, hcandidates, houtcome⟩ :=
      listed_of_answered requeue stack missing hrun hids
    rw [home, if_neg hdlq] at hcandidates
    have hcalls : infos.map JobStatusInfo.id ≠ [] →
        ((next choices)^[m] ⟨.ofState s, 0⟩).calls = (infos.map JobStatusInfo.id).length + 1 := by
      intro hne
      rw [calls_iterate, hm fun hnil => hne (by rw [hnil, List.map_nil]), if_neg hdlq,
        List.length_map]
      change 0 + (1 + infos.length) = infos.length + 1
      omega
    have hstores : ∀ id ∈ infos.map JobStatusInfo.id, (Account.ofState s).Stores ⟨.main, id⟩ := by
      intro id hid
      have hmem : ⟨.main, id⟩ ∈ candidates choices status limit s := by
        rw [hcandidates]
        exact List.mem_map_of_mem hid
      exact (stores_of_mem_candidates hmem).1
    have hids : (infos.map JobStatusInfo.id).Nodup := by
      have hnodup' := nodup_candidates choices limit hnodup hdlq
      rw [hcandidates] at hnodup'
      exact hnodup'.of_map _
    rw [hlisted, hcandidates, houtcome]
    have hstops (hall : ∀ n, (choices n).answer.IsAnswered) := stops_retryJobs requeue stack
      missing hall infos 0 ((onlyRemoved_zero (Account.ofState s)).iterate m)
    constructor
    · intro hretries hall
      obtain ⟨i, hstops⟩ := hstops hall
      exact hstops.goTogether hcalls (retries_iterate m) hstores hids (hretries.others hall)
    · intro hgo
      refine ⟨fun a ha => ?_, fun hall _ => ?_⟩
      · obtain ⟨ids, hsublist, hretries⟩ := retries_retryJobs choices requeue stack
          missing infos 0 ((next choices)^[m] ⟨.ofState s, 0⟩)
        rw [hretries, retries_iterate] at ha
        have ha : a ∈ ids.map (Address.mk .main) := by simpa [Account.ofState] using ha
        exact (hsublist.map _).subset ha
      · obtain ⟨i, hstops⟩ := hstops hall
        exact hstops.others hcalls (retries_iterate m) hstores (hgo hall)
  · exact iff_of_true (retriesListed_of_rejected hrun) fun hall => absurd hall hnot

/-- Where nothing has been asked for, all the listed jobs are gone or none is. -/
theorem retriesListed_iff_of_nil {jobs : List Address} {w : Account} {n : ℕ}
    (hnone : w.retries = []) (hstores : ∀ a ∈ jobs, (w.Stores a ↔ ¬ RemovedBy choices n a)) :
    RetriesListed choices jobs w ↔
      ((∀ n, (choices n).answer.IsAnswered) →
        (∃ a ∈ jobs, RemovedBy choices n a) → ∀ a ∈ jobs, RemovedBy choices n a) := by
  constructor
  · intro hretries hall hgone b hb
    obtain ⟨a, ha, hremoved⟩ := hgone
    by_contra hnot
    have hmem := hretries.others hall
      ⟨a, ha, fun hstored => (hstores a ha).mp hstored hremoved⟩ b hb ((hstores b hb).mpr hnot)
    rw [hnone] at hmem
    exact absurd hmem List.not_mem_nil
  · intro hgone
    refine ⟨fun a ha => ?_, fun hall hlost b hb hstored => ?_⟩
    · rw [hnone] at ha
      exact absurd ha List.not_mem_nil
    · obtain ⟨a, ha, hlost⟩ := hlost
      have hremoved : RemovedBy choices n a := not_not.mp (mt (hstores a ha).mpr hlost)
      exact absurd (hgone hall ⟨a, ha, hremoved⟩ b hb) ((hstores b hb).mp hstored)

/-! ## The dead letter queue -/

theorem candidates_dlq (choices : ℕ → Choice) (limit : ℕ) (s : State) :
    candidates choices .dlq limit s =
      ((current choices ⟨.ofState s, 0⟩).dlqJobs limit).map fun job => ⟨.dlq, job.id⟩ := by
  rw [candidates, listing_dlq]
  rfl

/-- If the listing is rejected or there is nothing to list, nothing is asked for. -/
theorem bulkRetry_dlq_of_nothing (records : Records) (requeue : Requeue) (stack : String)
    (missing : Thrown)
    (h : (choices 0).answer.IsAnswered → (current choices ⟨.ofState s, 0⟩).dlqJobs limit = []) :
    listed records choices .dlq limit s = [] ∧
      (outcome records choices requeue stack missing .dlq limit s).retries = [] := by
  rcases run_waitingDlqJobs choices (fun job => statusInfo (records.record job) .dlq) limit
    ⟨.ofState s, 0⟩ with ⟨m, hrun, hm⟩ | ⟨-, e, m, hrun⟩
  · have hnil : (current choices ⟨.ofState s, 0⟩).dlqJobs limit = [] := by
      by_contra hne
      exact hne (h (hm hne).1)
    rw [hnil, ← getJobsByStatus_dlq] at hrun
    rw [listed, outcome, bulkRetry, Async.run_bind_of_ok hrun, hrun]
    exact ⟨rfl, retries_iterate m⟩
  · rw [← getJobsByStatus_dlq] at hrun
    rw [listed, outcome, bulkRetry, Async.run_bind_of_error hrun, hrun]
    exact ⟨rfl, retries_iterate m⟩

section First

variable {job : Job} {jobs : List Job} (hanswer : (choices 0).answer.IsAnswered)
  (hjobs : (current choices ⟨.ofState s, 0⟩).dlqJobs limit = job :: jobs)

include hanswer hjobs

/-- Otherwise the loop begins with the first of the jobs there are. -/
theorem bulkRetry_dlq_of_cons (records : Records) (requeue : Requeue) (stack : String)
    (missing : Thrown) :
    listed records choices .dlq limit s = candidates choices .dlq limit s ∧
      outcome records choices requeue stack missing .dlq limit s =
        ((retryJobs choices requeue stack missing (statusInfo (records.record job) .dlq ::
          jobs.map fun job => statusInfo (records.record job) .dlq) 0).run
            (next choices ⟨.ofState s, 0⟩)).2.server := by
  rcases run_waitingDlqJobs choices (fun job => statusInfo (records.record job) .dlq) limit
    ⟨.ofState s, 0⟩ with ⟨m, hrun, hm⟩ | ⟨hnot, -⟩
  · obtain ⟨-, rfl⟩ := hm (hjobs ▸ List.cons_ne_nil job jobs)
    rw [← getJobsByStatus_dlq] at hrun
    obtain ⟨hlisted, -, houtcome⟩ :=
      listed_of_answered requeue stack missing hrun (by simp [listing_dlq])
    rw [hjobs] at houtcome
    exact ⟨hlisted, houtcome⟩
  · exact absurd hanswer hnot

/-- The job of the main queue under the first id is asked for. -/
theorem mem_retries_dlq (records : Records) (requeue : Requeue) (stack : String) (missing : Thrown)
    (hfound : Found choices (next choices ⟨.ofState s, 0⟩) job.id) :
    ⟨.main, job.id⟩ ∈ (outcome records choices requeue stack missing .dlq limit s).retries := by
  have hid : (statusInfo (records.record job) .dlq).id = job.id := statusInfo_id job .dlq
  rw [← hid] at hfound ⊢
  rw [(bulkRetry_dlq_of_cons hanswer hjobs records requeue stack missing).2]
  exact mem_retries_of_found requeue stack missing hfound _ 0

/-- There is none, and the loop ends at once. -/
theorem outcome_dlq_of_not_found (records : Records) (requeue : Requeue) (stack : String)
    (missing : Thrown) (hfound : ¬ Found choices (next choices ⟨.ofState s, 0⟩) job.id) :
    outcome records choices requeue stack missing .dlq limit s =
      ((next choices)^[2] ⟨.ofState s, 0⟩).server := by
  have hid : (statusInfo (records.record job) .dlq).id = job.id := statusInfo_id job .dlq
  rw [← hid] at hfound
  obtain ⟨e, hloop⟩ := run_retryJobs_of_not_found requeue stack missing hfound
    (jobs.map fun job => statusInfo (records.record job) .dlq) 0
  rw [(bulkRetry_dlq_of_cons hanswer hjobs records requeue stack missing).2, hloop]
  rfl

end First

/-- The first job is found if the main queue stores one under its id when that is looked up. -/
theorem found_first_iff {jobId : String} :
    Found choices (next choices ⟨.ofState s, 0⟩) jobId ↔
      (choices 1).answer.IsAnswered ∧
        jobId ∈ s.queue.ids ∧ ¬ RemovedBy choices 1 ⟨.main, jobId⟩ := by
  have hzero : OnlyRemoved choices (Account.ofState s) ⟨.ofState s, 0⟩ := onlyRemoved_zero _
  unfold Found
  rw [hzero.next.stores_current]
  rfl

/-- **What is listed from the dead letter queue**: the loop asks for a job of the main queue or
gives up at once. -/
theorem retriesListed_iff_of_dlq :
    RetriesListed choices (listed records choices .dlq limit s)
        (outcome records choices requeue stack missing .dlq limit s) ↔
      Detached choices s (candidates choices .dlq limit s) := by
  by_cases hnothing : (choices 0).answer.IsAnswered →
      (current choices ⟨.ofState s, 0⟩).dlqJobs limit = []
  · obtain ⟨hlisted, hnone⟩ := bulkRetry_dlq_of_nothing records requeue stack missing hnothing
    rw [hlisted]
    refine iff_of_true (retriesListed_nil hnone) fun a ha hanswer => ?_
    rw [candidates_dlq, hnothing hanswer] at ha
    exact nomatch ha
  · obtain ⟨hanswer, hne⟩ := Classical.not_imp.mp hnothing
    obtain ⟨job, jobs, hjobs⟩ := List.exists_cons_of_ne_nil hne
    have hfirst : (candidates choices .dlq limit s).head? = some ⟨.dlq, job.id⟩ := by
      rw [candidates_dlq, hjobs]
      rfl
    rw [(bulkRetry_dlq_of_cons hanswer hjobs records requeue stack missing).1]
    by_cases hfound : Found choices (next choices ⟨.ofState s, 0⟩) job.id
    · refine iff_of_false (fun hretries => ?_) fun hdetached =>
        (hdetached _ hfirst hanswer).1 (found_first_iff.mp hfound)
      have hmem := hretries.own _
        (mem_retries_dlq hanswer hjobs records requeue stack missing hfound)
      rw [candidates_dlq] at hmem
      obtain ⟨job', -, heq⟩ := List.mem_map.mp hmem
      cases heq
    · have hzero : OnlyRemoved choices (Account.ofState s) ⟨.ofState s, 0⟩ := onlyRemoved_zero _
      have hcalls : ((next choices)^[2] ⟨.ofState s, 0⟩).calls = 1 + 1 := rfl
      rw [outcome_dlq_of_not_found hanswer hjobs records requeue stack missing hfound,
        retriesListed_iff_of_nil (retries_iterate 2) fun a ha =>
          ((hzero.iterate 2).stores_iff hcalls).trans
            (and_iff_right (stores_of_mem_candidates ha).1)]
      rw [found_first_iff] at hfound
      unfold Detached
      simp only [hfirst, Option.mem_def, Option.some.injEq, forall_eq']
      exact ⟨fun hgone _ => ⟨hfound, hgone⟩, fun hdetached => (hdetached hanswer).2⟩

/-- **BullMQ is asked to put back what was listed, and a job that is gone keeps it from being asked
for no other, exactly if** the jobs listed from the main queue go together, and nothing in the main
queue answers to the first of those listed from the dead letter queue. -/
theorem retriesListed_iff (hnodup : s.queue.ids.Nodup) :
    RetriesListed choices (listed records choices status limit s)
        (outcome records choices requeue stack missing status limit s) ↔
      Undivided choices status limit s := by
  unfold Undivided
  by_cases hdlq : status = .dlq
  · rw [if_pos hdlq, hdlq]
    exact retriesListed_iff_of_dlq
  · rw [if_neg hdlq]
    exact retriesListed_iff_of_main hnodup hdlq

end Whole

/-! ## Two active jobs, and two jobs of one id -/

/-- An active job is taken back from its worker. -/
def takeBack : Requeue where
  apply q jobId := (q.moveToWait jobId).getD q
  mem_ids_apply {q jobId id} := by
    cases hmove : q.moveToWait jobId with
    | none => exact Iff.rfl
    | some q' => exact Queue.mem_ids_moveToWait hmove

/-- A main queue with two active jobs. -/
def twoActive : State where
  queue :=
    { jobs := ["2", "1"].map fun id =>
        { id := id, name := "send-mail", data := .null, opts := {}, attemptsMade := 1,
          timestamp := 900, state := .active }
      counter := 2
      defaultJobOptions := {} }
  dlqQueue := none

/-- Someone removes a job of the main queue before the call with this number. -/
def removing (jobId : String) (call n : ℕ) : Choice :=
  { removed := if n = call then [⟨.main, jobId⟩] else [] }

/-- The job that is listed last is removed before its turn. -/
theorem retriesListed_twoActive :
    RetriesListed (removing "1" 5)
      (listed Status.bareRecords (removing "1" 5) .active 100 twoActive)
      (outcome Status.bareRecords (removing "1" 5) takeBack "" (.value "Missing key for job 1")
        .active 100 twoActive) := by
  refine (retriesListed_iff (by decide)).mpr fun _ i j a b hlt ha hb n _ hremoved => ?_
  have hcandidates : candidates (removing "1" 5) .active 100 twoActive =
      [⟨.main, "2"⟩, ⟨.main, "1"⟩] := by decide +kernel
  rw [hcandidates] at ha hb
  have hj : j < 2 := (List.getElem?_eq_some_iff.mp hb).1
  obtain rfl : i = 0 := by omega
  obtain rfl := Option.some.inj ha
  obtain ⟨m, -, hmem⟩ := hremoved
  unfold removing at hmem
  split at hmem
  · exact absurd hmem (by decide)
  · exact absurd hmem List.not_mem_nil

/-- **The active job 1 is taken from its worker instead of job 1 of the dead letter queue**, and
once the first of two active jobs is gone the second one is not retried. -/
theorem not_retriesListed :
    ¬ RetriesListed (fun _ => {})
        (listed Status.bareRecords (fun _ => {}) .dlq 100
          { queue := Status.queueOf .active, dlqQueue := some (Status.queueOf .waiting) })
        (outcome Status.bareRecords (fun _ => {}) takeBack "" (.value "Missing key for job 1") .dlq
          100 { queue := Status.queueOf .active, dlqQueue := some (Status.queueOf .waiting) }) ∧
      ¬ RetriesListed (removing "2" 3)
        (listed Status.bareRecords (removing "2" 3) .active 100 twoActive)
        (outcome Status.bareRecords (removing "2" 3) takeBack "" (.value "Missing key for job 2")
          .active 100 twoActive) := by
  constructor
  · intro hretries
    exact absurd (hretries.own ⟨.main, "1"⟩ (by decide +kernel)) (by decide +kernel)
  · intro hretries
    have hmem := hretries.others (fun _ => trivial) ⟨⟨.main, "2"⟩, by decide +kernel⟩
      ⟨.main, "1"⟩ (by decide +kernel) (by decide +kernel)
    exact absurd hmem (by decide +kernel)

end KitiumJobQueue.JobQueue
