import KitiumJobQueue.Dlq.Refusals
import KitiumJobQueue.JobQueue.BulkRetry
import Mathlib.Data.Finset.Card

/-!
# Limits

Six operations take a limit, and each of them asks BullMQ for the jobs at the positions from `0` to
`limit - 1`. For the limit `0` that is the position `-1`, the last one there is; and where a status
stands for several states the positions are counted in each of them.

`keepsToLimit_iff` says for each operation with which contents of the queues it keeps to its limit,
however its calls end.
-/

namespace KitiumJobQueue.JobQueue

open Effects JavaScript Bull
open Status (JobStatus JobStatusInfo Records)

/-! ## The operations -/

/-- The operations with a limit. -/
inductive Operation
  | getJobsByStatus (status : JobStatus)
  | getDLQJobs
  | replayDLQ
  | bulkRetry (status : JobStatus)
  /-- `DLQManager.getDLQJobs` -/
  | getFailedJobs
  /-- `DLQManager.replayDLQ` -/
  | replayFailedJobs

/-- What the operations are given besides. -/
structure Setting where
  records : Records
  config : QueueConfig
  dlqConfig : Option DLQConfig
  rule : CleanRule
  now : ℕ
  requeue : Requeue
  stack : String
  missing : Thrown

/-- The queues of a `JobQueue`, and the primary queue of a `DLQManager`. -/
structure Contents extends State where
  primary : Queue

/-- The number of additions so far, and the jobs that are there to be removed. -/
structure Footprint where
  additions : ℕ
  ids : Finset String

/-- At most `n` jobs have been added, and at most `n` removed. -/
structure AtMost (n : ℕ) (f f' : Footprint) : Prop where
  added : f'.additions ≤ f.additions + n
  removed : (f.ids \ f'.ids).card ≤ n

/-- The footprint of a replay of the dead letter queue; every addition advances the counter of the
main queue. -/
def State.footprint (s : State) : Footprint where
  additions := s.queue.counter
  ids := (s.dlqQueue.elim [] Queue.ids).toFinset

/-- The footprint of a replay by a `DLQManager`. -/
def footprint (q : Queue) : Footprint where
  additions := q.counter
  ids := q.ids.toFinset

/-- The number of jobs that are returned. -/
def returned {ε α : Type} : Except ε (List α) → ℕ
  | .ok l => l.length
  | .error _ => 0

/-- Nobody else removes a job. -/
def quiet (answers : ℕ → Answer Thrown) (n : ℕ) : Choice := { answer := answers n }

/-- However its calls end, the operation returns or acts on at most `limit` jobs. -/
def Operation.Bounded (e : Setting) (c : Contents) (limit : ℕ) : Operation → Prop
  | .getJobsByStatus status => ∀ answers, returned ((JobQueue.getJobsByStatus e.records
      (quiet answers) status limit).run ⟨.ofState c.toState, 0⟩).1 ≤ limit
  | .getDLQJobs => ∀ answers, returned ((JobQueue.getDLQJobs (quiet answers) limit).run
      ⟨.ofState c.toState, 0⟩).1 ≤ limit
  | .replayDLQ => ∀ answers : ℕ → Answer Thrown, AtMost limit c.toState.footprint
      ((JobQueue.replayDLQ e.config answers e.now limit).run ⟨c.toState, 0⟩).2.server.footprint
  | .bulkRetry status => ∀ answers, (outcome e.records (quiet answers) e.requeue e.stack e.missing
      status limit c.toState).retries.length ≤ limit
  | .getFailedJobs => ∀ answers : ℕ → Answer Thrown, returned ((Dlq.getDLQJobs e.dlqConfig answers
      limit).run ⟨c.primary, 0⟩).1 ≤ limit
  | .replayFailedJobs => ∀ answers : ℕ → Answer Thrown, AtMost limit (footprint c.primary)
      (footprint ((Dlq.replayDLQ e.dlqConfig e.rule answers e.now limit).run
        ⟨c.primary, 0⟩).2.server)

/-! ## When they fit -/

/-- The waiting jobs of the dead letter queue. -/
def State.waitingDlq (s : State) : List Job := s.dlqQueue.elim [] fun q => q.inState .waiting

/-- The jobs in the states are no more than the limit, or the limit is not `0` and no two of the
states have jobs. -/
def FitStates (q : Queue) (limit : ℕ) (states : List JobState) : Prop :=
  (states.flatMap q.inState).length ≤ limit ∨
    1 ≤ limit ∧ (states.filter fun st => !(q.inState st).isEmpty).length ≤ 1

/-- The limit is not `0` or there is nothing to list, and the states that the status stands for
fit. -/
def FitsStatus (s : State) (limit : ℕ) (status : JobStatus) : Prop :=
  if hdlq : status = .dlq then 1 ≤ limit ∨ s.waitingDlq = []
  else FitStates s.queue limit
    (Queue.sanitizeJobTypes (getBullmqStatusesForJobStatus status hdlq))

/-- The condition under which the operation keeps to its limit. -/
def Operation.Fits (e : Setting) (c : Contents) (limit : ℕ) : Operation → Prop
  | .getJobsByStatus status => FitsStatus c.toState limit status
  | .getDLQJobs | .replayDLQ => 1 ≤ limit ∨ c.waitingDlq = []
  | .bulkRetry status =>
    if status = .dlq then 1 ≤ limit ∨ ∀ job ∈ c.waitingDlq.head?, job.id ∉ c.queue.ids
    else FitsStatus c.toState limit status
  | .getFailedJobs | .replayFailedJobs =>
    1 ≤ limit ∨ Dlq.isEnabled e.dlqConfig = false ∨ c.primary.inState .failed = []

/-! ## Listings -/

section Listings

variable {s : State} {limit : ℕ}

theorem dlqJobs_eq (s : State) (limit : ℕ) :
    s.dlqJobs limit = range s.waitingDlq 0 (limit - 1) := by
  unfold State.dlqJobs State.waitingDlq
  cases s.dlqQueue with
  | none => simp [range]
  | some q => rfl

theorem length_dlqJobs_le_iff :
    (s.dlqJobs limit).length ≤ limit ↔ 1 ≤ limit ∨ s.waitingDlq = [] := by
  rw [dlqJobs_eq, length_range_le_iff]

theorem length_getJobsOf_le_iff (q : Queue) (types : List JobState) :
    (q.getJobsOf types 0 (limit - 1)).length ≤ limit ↔
      FitStates q limit (Queue.sanitizeJobTypes types) := by
  unfold FitStates Queue.getJobsOf Queue.getJobs
  generalize Queue.sanitizeJobTypes types = states
  cases limit with
  | zero =>
    change (states.flatMap fun st => range (q.inState st) 0 (-1)).length ≤ 0 ↔ _
    simp only [range_zero_neg_one]
    simp
  | succ n =>
    have hlimit : 1 ≤ n + 1 := by omega
    simp only [range_zero _ hlimit, List.length_flatMap_take_le_iff hlimit]
    exact or_congr_right (and_iff_right hlimit).symm

/-- **A listing** keeps to the limit exactly if what it lists fits. -/
theorem length_listing_le_iff (status : JobStatus) :
    (listing status limit (.ofState s)).length ≤ limit ↔ FitsStatus s limit status := by
  unfold listing FitsStatus
  by_cases hdlq : status = .dlq
  · rw [dif_pos hdlq, dif_pos hdlq]
    exact length_dlqJobs_le_iff
  · rw [dif_neg hdlq, dif_neg hdlq]
    exact length_getJobsOf_le_iff s.queue _

/-- Nobody having removed anything. -/
theorem current_quiet (answers : ℕ → Answer Thrown) (r : Remote Account) :
    current (quiet answers) r = r.server := by
  obtain ⟨⟨⟨queue, dlqQueue, trace⟩, retries⟩, calls⟩ := r
  cases dlqQueue <;> simp [current, quiet, Account.without]

variable {e : Setting} {c : Contents} {status : JobStatus}

/-- What `getJobsByStatus` returns, and what it returns if no call is rejected. -/
theorem returned_getJobsByStatus (e : Setting) (s : State) (limit : ℕ) (status : JobStatus)
    (answers : ℕ → Answer Thrown) :
    returned ((getJobsByStatus e.records (quiet answers) status limit).run ⟨.ofState s, 0⟩).1 =
        (listing status limit (.ofState s)).length ∨
      (¬ ∀ n, (answers n).IsAnswered) ∧
        returned ((getJobsByStatus e.records (quiet answers) status limit).run
          ⟨.ofState s, 0⟩).1 = 0 := by
  rcases run_getJobsByStatus e.records (quiet answers) status limit ⟨.ofState s, 0⟩ with
    ⟨infos, m, hrun, hids, -⟩ | ⟨hnot, error, m, hrun⟩
  · rw [current_quiet] at hids
    rw [hrun]
    exact .inl (by simpa [returned] using congrArg List.length hids)
  · rw [hrun]
    exact .inr ⟨hnot, rfl⟩

theorem bounded_getJobsByStatus :
    (Operation.getJobsByStatus status).Bounded e c limit ↔ FitsStatus c.toState limit status := by
  rw [← length_listing_le_iff]
  constructor
  · intro hbounded
    have hle := hbounded fun _ => .answered
    rcases returned_getJobsByStatus e c.toState limit status fun _ => .answered with heq | ⟨hnot, -⟩
    · exact heq ▸ hle
    · exact absurd (fun _ => trivial) hnot
  · intro hle answers
    rcases returned_getJobsByStatus e c.toState limit status answers with
      heq | ⟨-, heq⟩
    · exact heq.trans_le hle
    · exact heq.trans_le (Nat.zero_le limit)

theorem bounded_getDLQJobs :
    Operation.getDLQJobs.Bounded e c limit ↔ 1 ≤ limit ∨ c.waitingDlq = [] := by
  rw [← length_dlqJobs_le_iff]
  constructor
  · intro hbounded
    have hle := hbounded fun _ => .answered
    rcases run_waitingDlqJobs (quiet fun _ => .answered) Dlq.toDLQJobInfo limit
      ⟨.ofState c.toState, 0⟩ with ⟨m, hrun, -⟩ | ⟨hnot, -⟩
    · rw [getDLQJobs, hrun, current_quiet] at hle
      exact (List.length_map _).ge.trans hle
    · exact absurd trivial hnot
  · intro hle answers
    rcases run_waitingDlqJobs (quiet answers) Dlq.toDLQJobInfo limit
      ⟨.ofState c.toState, 0⟩ with ⟨m, hrun, -⟩ | ⟨-, error, m, hrun⟩
    · rw [getDLQJobs, hrun, current_quiet]
      exact (List.length_map _).trans_le hle
    · rw [getDLQJobs, hrun]
      exact Nat.zero_le limit

end Listings

/-! ## Retries -/

section Retries

variable {e : Setting} {c : Contents} {limit : ℕ} {status : JobStatus}

theorem not_removedBy_quiet (answers : ℕ → Answer Thrown) (n : ℕ) (a : Address) :
    ¬ RemovedBy (quiet answers) n a := by
  rintro ⟨m, -, hmem⟩
  exact absurd hmem List.not_mem_nil

/-- What is asked for is no more than what is listed. -/
theorem length_retries_le (records : Records) (answers : ℕ → Answer Thrown) (requeue : Requeue)
    (stack : String) (missing : Thrown) (status : JobStatus) (limit : ℕ) (s : State) :
    (outcome records (quiet answers) requeue stack missing status limit s).retries.length ≤
      (listing status limit (.ofState s)).length := by
  rcases run_getJobsByStatus records (quiet answers) status limit ⟨.ofState s, 0⟩ with
    ⟨infos, m, hrun, hids, -⟩ | ⟨-, error, m, hrun⟩
  · rw [current_quiet] at hids
    obtain ⟨ids, hsublist, hretries⟩ := retries_retryJobs (quiet answers) requeue stack
      missing infos 0 ((next (quiet answers))^[m] ⟨.ofState s, 0⟩)
    rw [outcome, bulkRetry, Async.run_bind_of_ok hrun, hretries, retries_iterate]
    have hlength := hsublist.length_le
    rw [hids, List.length_map] at hlength
    simpa [Account.ofState] using hlength
  · rw [outcome, bulkRetry, Async.run_bind_of_error hrun, retries_iterate]
    exact Nat.zero_le _

/-- **If no call is rejected, all that is listed from the main queue is asked for.** -/
theorem length_retries_of_main (hdlq : status ≠ .dlq) :
    (outcome e.records (quiet fun _ => .answered) e.requeue e.stack e.missing status limit
      c.toState).retries.length = (listing status limit (.ofState c.toState)).length := by
  have hall (n : ℕ) : (quiet (fun _ => .answered) n).answer.IsAnswered := trivial
  rcases run_getJobsByStatus e.records (quiet fun _ => .answered) status limit
    ⟨.ofState c.toState, 0⟩ with ⟨infos, m, hrun, hids, -⟩ | ⟨hnot, -⟩
  · obtain ⟨-, hcandidates, houtcome⟩ :=
      listed_of_answered e.requeue e.stack e.missing hrun hids
    rw [home, if_neg hdlq] at hcandidates
    rw [current_quiet] at hids
    obtain ⟨i, hstops⟩ := stops_retryJobs e.requeue e.stack e.missing hall infos 0
      ((onlyRemoved_zero (Account.ofState c.toState)).iterate m)
    have hi : (infos.map JobStatusInfo.id).length ≤ i := by
      by_contra hlt
      obtain ⟨id, hid⟩ : ∃ id, (infos.map JobStatusInfo.id)[i]? = some id :=
        ⟨_, List.getElem?_eq_getElem (not_le.mp hlt)⟩
      have hmem : ⟨.main, id⟩ ∈ candidates (quiet fun _ => .answered) status limit c.toState := by
        rw [hcandidates]
        exact List.mem_map_of_mem (List.mem_of_getElem? hid)
      -- nobody has removed the job at which the loop would have stopped
      refine (hstops.gone id hid).1 ((hstops.onlyRemoved _).mpr ?_)
      exact ⟨(stores_of_mem_candidates hmem).1, fun _ _ => List.not_mem_nil⟩
    obtain ⟨n, hle, -, hretries⟩ := hstops.retries
    rw [houtcome, hretries, List.take_of_length_le (hi.trans hle), retries_iterate, hids]
    simp [Account.ofState]
  · exact absurd hall hnot

theorem bounded_bulkRetry_of_main (hdlq : status ≠ .dlq) :
    (Operation.bulkRetry status).Bounded e c limit ↔ FitsStatus c.toState limit status := by
  rw [← length_listing_le_iff]
  constructor
  · intro hbounded
    exact (length_retries_of_main hdlq).ge.trans (hbounded fun _ => .answered)
  · intro hle answers
    exact (length_retries_le _ _ _ _ _ _ _ _).trans hle

/-- For the limit `0` the whole dead letter queue is listed. -/
theorem dlqJobs_zero (s : State) : s.dlqJobs 0 = s.waitingDlq :=
  (dlqJobs_eq s 0).trans (range_zero_neg_one _)

theorem bounded_bulkRetry_of_dlq : (Operation.bulkRetry .dlq).Bounded e c limit ↔
    1 ≤ limit ∨ ∀ job ∈ c.waitingDlq.head?, job.id ∉ c.queue.ids := by
  cases limit with
  | succ n =>
    have hlimit : 1 ≤ n + 1 := by omega
    refine iff_of_true (fun answers => (length_retries_le _ _ _ _ _ _ _ _).trans ?_) (.inl hlimit)
    rw [listing_dlq]
    exact length_dlqJobs_le_iff.mpr (.inl hlimit)
  | zero =>
    have hlist (answers : ℕ → Answer Thrown) :
        (current (quiet answers) ⟨.ofState c.toState, 0⟩).dlqJobs 0 = c.waitingDlq := by
      rw [current_quiet]
      exact dlqJobs_zero c.toState
    constructor
    · intro hbounded
      refine .inr fun job hjob hmem => ?_
      obtain ⟨jobs, hjobs⟩ := List.head?_eq_some_iff.mp hjob
      have hfound : Found (quiet fun _ => .answered)
          (next (quiet fun _ => .answered) ⟨.ofState c.toState, 0⟩) job.id :=
        found_first_iff.mpr ⟨trivial, hmem, not_removedBy_quiet _ _ _⟩
      have hanswer : (quiet (fun _ => .answered) 0).answer.IsAnswered := trivial
      have hretries := mem_retries_dlq hanswer ((hlist _).trans hjobs) e.records e.requeue e.stack
        e.missing hfound
      have hle := hbounded fun _ => .answered
      exact absurd ((List.length_pos_of_mem hretries).trans_le hle) (Nat.lt_irrefl 0)
    · rintro (hlimit | hnone) answers
      · exact absurd hlimit (Nat.not_succ_le_zero 0)
      have hempty : (outcome e.records (quiet answers) e.requeue e.stack e.missing .dlq 0
          c.toState).retries = [] := by
        by_cases hnothing : (quiet answers 0).answer.IsAnswered →
            (current (quiet answers) ⟨.ofState c.toState, 0⟩).dlqJobs 0 = []
        · exact (bulkRetry_dlq_of_nothing e.records e.requeue e.stack e.missing hnothing).2
        · obtain ⟨hanswer, hne⟩ := Classical.not_imp.mp hnothing
          obtain ⟨job, jobs, hjobs⟩ := List.exists_cons_of_ne_nil hne
          have hhead : job ∈ c.waitingDlq.head? := by
            rw [← hlist answers, hjobs]
            rfl
          rw [outcome_dlq_of_not_found hanswer hjobs e.records e.requeue e.stack e.missing
            fun hfound => hnone job hhead (found_first_iff.mp hfound).2.1]
          exact retries_iterate 2
      exact (congrArg List.length hempty).le

end Retries

/-! ## Replays -/

section Footprints

variable {f f' f'' : Footprint} {n m : ℕ}

theorem AtMost.refl (f : Footprint) : AtMost 0 f f := ⟨le_rfl, by simp⟩

theorem AtMost.mono (h : AtMost n f f') (hle : n ≤ m) : AtMost m f f' :=
  ⟨h.added.trans (Nat.add_le_add_left hle _), h.removed.trans hle⟩

theorem AtMost.trans (h : AtMost n f f') (h' : AtMost m f' f'') : AtMost (n + m) f f'' where
  added := by
    have hfirst := h.added
    have hsecond := h'.added
    omega
  removed := by
    have hsubset : f.ids \ f''.ids ⊆ (f.ids \ f'.ids) ∪ (f'.ids \ f''.ids) := by
      intro id hid
      simp only [Finset.mem_sdiff, Finset.mem_union] at hid ⊢
      tauto
    calc (f.ids \ f''.ids).card
        ≤ ((f.ids \ f'.ids) ∪ (f'.ids \ f''.ids)).card := Finset.card_le_card hsubset
      _ ≤ (f.ids \ f'.ids).card + (f'.ids \ f''.ids).card := Finset.card_union_le _ _
      _ ≤ n + m := Nat.add_le_add h.removed h'.removed

/-- One job is added, and no other than one job is gone. -/
theorem atMost_one (id : String) (hadded : f'.additions ≤ f.additions + 1)
    (hids : f.ids \ f'.ids ⊆ {id}) : AtMost 1 f f' :=
  ⟨hadded, (Finset.card_le_card hids).trans (Finset.card_singleton id).le⟩

end Footprints

section Replays

variable {e : Setting} {c : Contents} {limit : ℕ}

/-- Every addition advances the counter. -/
theorem counter_add (q : Queue) (name : String) (data : Json) (opts : JobsOptions) (now : ℕ) :
    (q.add name data opts now).2.counter = q.counter + 1 := by
  unfold Queue.add
  cases q.duplicate opts <;> rfl

theorem footprint_afterAdd (config : QueueConfig) (now : ℕ) (s : State) (job : Job) :
    (s.afterAdd config now job).footprint = ⟨s.footprint.additions + 1, s.footprint.ids⟩ := by
  have hcounter : (s.afterAdd config now job).queue.counter = s.queue.counter + 1 := by
    unfold State.afterAdd
    rw [State.add_queue, counter_add]
  have hdlq : (s.afterAdd config now job).dlqQueue = s.dlqQueue := by
    unfold State.afterAdd State.add
    dsimp only
    split
    · rfl
    · rfl
  rw [State.footprint, hcounter, hdlq]
  rfl

theorem footprint_removeDlqJob (s : State) (jobId : String) :
    (s.removeDlqJob jobId).footprint.additions = s.footprint.additions ∧
      s.footprint.ids \ (s.removeDlqJob jobId).footprint.ids ⊆ {jobId} := by
  have hnone : s.footprint.ids \ s.footprint.ids ⊆ {jobId} := by simp
  unfold State.removeDlqJob
  cases hdlq : s.dlqQueue with
  | none => exact ⟨rfl, hnone⟩
  | some q =>
    dsimp only
    split
    · refine ⟨rfl, fun id hid => ?_⟩
      obtain ⟨hthere, hgone⟩ := Finset.mem_sdiff.mp hid
      have hthere : id ∈ q.ids := by simpa [State.footprint, hdlq] using hthere
      have hgone : id ∉ (q.remove jobId).ids := fun hmem => hgone (List.mem_toFinset.mpr hmem)
      rw [Finset.mem_singleton]
      by_contra hne
      exact hgone (Queue.mem_ids_remove.mpr ⟨hthere, hne⟩)
    · exact ⟨rfl, hnone⟩

/-- A round of the loop adds at most one job, and removes at most the one it was for. -/
theorem footprint_afterRound (config : QueueConfig) (answers : ℕ → Answer Thrown) (now k : ℕ)
    (s : State) (job : Job) :
    s.footprint.additions ≤ (s.afterRound config answers now k job).footprint.additions ∧
      AtMost 1 s.footprint (s.afterRound config answers now k job).footprint := by
  let I (s' : State) : Prop := s.footprint.additions ≤ s'.footprint.additions ∧
    s'.footprint.additions ≤ s.footprint.additions + 1 ∧
    s.footprint.ids \ s'.footprint.ids ⊆ {job.id}
  have hadd := footprint_afterAdd config now s job
  have hI : I (s.afterRound config answers now k job) := by
    refine State.afterRound_invariant config answers now ⟨le_rfl, Nat.le_succ _, by simp⟩ ?_ ?_
    · show _ ∧ _ ∧ _
      rw [hadd]
      exact ⟨Nat.le_succ _, le_rfl, by simp⟩
    · intro _
      obtain ⟨hadditions, hids⟩ :=
        footprint_removeDlqJob (s.afterAdd config now job) job.id
      rw [hadd] at hadditions hids
      exact ⟨hadditions ▸ Nat.le_succ _, hadditions.le, hids⟩
  exact ⟨hI.1, atMost_one job.id hI.2.1 hI.2.2⟩

/-- A round whose `add` is answered adds a job. -/
theorem additions_afterRound (config : QueueConfig) {answers : ℕ → Answer Thrown} (now : ℕ) {k : ℕ}
    (s : State) (job : Job) (h : answers k = .answered) : s.footprint.additions <
      (s.afterRound config answers now k job).footprint.additions := by
  unfold State.afterRound
  rw [h]
  dsimp only
  split
  · rw [(footprint_removeDlqJob _ _).1, footprint_afterAdd]
    exact Nat.lt_succ_self _
  · rw [footprint_afterAdd]
    exact Nat.lt_succ_self _

/-- **The loop of `replayDLQ`** adds and removes at most as many jobs as it is given. By induction
on the jobs. -/
theorem footprint_replayJobs (config : QueueConfig) (answers : ℕ → Answer Thrown) (now : ℕ)
    (jobs : List Job) (moved : ℕ) (r : Remote State) :
    r.server.footprint.additions ≤
        ((replayJobs config answers now jobs moved).run r).2.server.footprint.additions ∧
      AtMost jobs.length r.server.footprint
        ((replayJobs config answers now jobs moved).run r).2.server.footprint := by
  induction jobs generalizing moved r with
  | nil => exact ⟨le_rfl, .refl _⟩
  | cons job jobs ih =>
    obtain ⟨hmono, hround⟩ := footprint_afterRound config answers now r.calls r.server job
    rw [List.length_cons, Nat.add_comm]
    rcases run_replayJobs_cons config answers now job jobs moved r with
      ⟨-, -, hrun⟩ | ⟨-, error, calls, hrun⟩
    · obtain ⟨hmono', hrest⟩ := ih (moved + 1)
        ⟨r.server.afterRound config answers now r.calls job, r.calls + 2⟩
      rw [hrun]
      exact ⟨hmono.trans hmono', hround.trans hrest⟩
    · rw [hrun]
      exact ⟨hmono, hround.mono (Nat.le_add_right 1 _)⟩

/-- If no call is rejected, the first job is copied. -/
theorem additions_lt_replayJobs (config : QueueConfig) (now : ℕ) (job : Job) (jobs : List Job)
    (moved : ℕ) (r : Remote State) :
    r.server.footprint.additions <
      ((replayJobs config (fun _ => (.answered : Answer Thrown)) now (job :: jobs) moved).run
        r).2.server.footprint.additions := by
  rcases run_replayJobs_cons config (fun _ => (.answered : Answer Thrown)) now job jobs moved r with
    ⟨-, -, hrun⟩ | ⟨hrejected, -⟩
  · rw [hrun]
    obtain ⟨hmono, -⟩ := footprint_replayJobs config (fun _ => .answered) now jobs (moved + 1)
      ⟨r.server.afterRound config (fun _ => .answered) now r.calls job, r.calls + 2⟩
    exact (additions_afterRound config now r.server job rfl).trans_le hmono
  · exact absurd ⟨trivial, trivial⟩ hrejected

theorem bounded_replayDLQ :
    Operation.replayDLQ.Bounded e c limit ↔ 1 ≤ limit ∨ c.waitingDlq = [] := by
  constructor
  · intro hbounded
    by_contra hnot
    obtain ⟨hlimit, hne⟩ := not_or.mp hnot
    obtain rfl : limit = 0 := by omega
    obtain ⟨job, jobs, hjobs⟩ := List.exists_cons_of_ne_nil hne
    have hsome : c.dlqQueue.isSome := by
      by_contra hnone
      rw [Option.not_isSome_iff_eq_none] at hnone
      exact hne (by rw [State.waitingDlq, hnone]; rfl)
    have hle := (hbounded fun _ => .answered).added
    rcases run_replayDLQ e.config (fun _ => (.answered : Answer Thrown)) e.now (r := ⟨c.toState, 0⟩)
      0 hsome with ⟨-, hrun⟩ | ⟨hrejected, -⟩
    · rw [hrun, dlqJobs_zero, hjobs] at hle
      have hlt := additions_lt_replayJobs e.config e.now job jobs 0 ⟨c.toState, 0 + 1⟩
      exact absurd (hlt.trans_le hle) (Nat.lt_irrefl _)
    · exact absurd trivial hrejected
  · intro hfits answers
    have hlength := length_dlqJobs_le_iff.mpr hfits
    cases hdlq : c.dlqQueue with
    | none =>
      unfold replayDLQ
      rw [Async.run_bind_of_ok (Async.run_read _ _), hdlq]
      exact (AtMost.refl _).mono (Nat.zero_le limit)
    | some q =>
      rcases run_replayDLQ e.config answers e.now (r := ⟨c.toState, 0⟩) limit
        (Option.isSome_iff_exists.mpr ⟨q, hdlq⟩) with ⟨-, hrun⟩ | ⟨-, error, hrun⟩
      · rw [hrun]
        exact (footprint_replayJobs e.config answers e.now (c.dlqJobs limit) 0
          ⟨c.toState, 0 + 1⟩).2.mono hlength
      · rw [hrun]
        exact (AtMost.refl _).mono (Nat.zero_le limit)

end Replays

/-! ## The manager -/

section Manager

variable {e : Setting} {c : Contents} {limit : ℕ}

/-- The failed jobs that the manager asks for. -/
def failedJobs (dlqConfig : Option DLQConfig) (limit : ℕ) (q : Queue) : List Job :=
  if Dlq.isEnabled dlqConfig then q.getJobs .failed 0 (limit - 1) else []

theorem length_failedJobs_le_iff (dlqConfig : Option DLQConfig) (q : Queue) :
    (failedJobs dlqConfig limit q).length ≤ limit ↔
      1 ≤ limit ∨ Dlq.isEnabled dlqConfig = false ∨ q.inState .failed = [] := by
  unfold failedJobs
  cases hdisabled : Dlq.isEnabled dlqConfig with
  | false => simp
  | true =>
    rw [if_pos rfl, Queue.getJobs, length_range_le_iff]
    simp

/-- The manager's listing is answered with those jobs, or with none if its call is rejected. -/
theorem run_getFailedJobs (dlqConfig : Option DLQConfig) (answers : ℕ → Answer Thrown) (limit : ℕ)
    (r : Remote Queue) :
    ∃ calls, (Dlq.getDLQJobs dlqConfig answers limit).run r =
        (.ok ((failedJobs dlqConfig limit r.server).map Dlq.toDLQJobInfo), ⟨r.server, calls⟩) ∨
      ¬ (answers r.calls).IsAnswered ∧
        (Dlq.getDLQJobs dlqConfig answers limit).run r = (.ok [], ⟨r.server, calls⟩) := by
  unfold Dlq.getDLQJobs failedJobs
  cases Dlq.isEnabled dlqConfig with
  | false => exact ⟨r.calls, .inl rfl⟩
  | true =>
    refine ⟨r.calls + 1, ?_⟩
    rw [if_pos rfl, if_pos rfl]
    cases hanswer : answers r.calls with
    | answered =>
      exact .inl (Async.run_tryCatch_of_ok (Async.run_bind_of_ok (run_call_of_answered hanswer)))
    | rejected error applied =>
      refine .inr ⟨id, (Async.run_tryCatch_of_error
        (Async.run_bind_of_error (run_call_of_rejected hanswer))).trans ?_⟩
      rw [ite_self]
      rfl

theorem bounded_getFailedJobs : Operation.getFailedJobs.Bounded e c limit ↔
    1 ≤ limit ∨ Dlq.isEnabled e.dlqConfig = false ∨ c.primary.inState .failed = [] := by
  rw [← length_failedJobs_le_iff]
  constructor
  · intro hbounded
    have hle := hbounded fun _ => .answered
    obtain ⟨calls, hrun | ⟨hnot, -⟩⟩ := run_getFailedJobs e.dlqConfig (fun _ => .answered) limit
      ⟨c.primary, 0⟩
    · rw [hrun] at hle
      exact (List.length_map _).ge.trans hle
    · exact absurd trivial hnot
  · intro hle answers
    obtain ⟨calls, hrun | ⟨-, hrun⟩⟩ := run_getFailedJobs e.dlqConfig answers limit ⟨c.primary, 0⟩
    · rw [hrun]
      exact (List.length_map _).trans_le hle
    · rw [hrun]
      exact Nat.zero_le limit

theorem footprint_add (q : Queue) (name : String) (data : Json) (opts : JobsOptions) (now : ℕ) :
    (footprint (q.add name data opts now).2).additions = (footprint q).additions + 1 ∧
      (footprint q).ids ⊆ (footprint (q.add name data opts now).2).ids := by
  refine ⟨counter_add q name data opts now, fun id hid => ?_⟩
  have hid : id ∈ q.ids := List.mem_toFinset.mp hid
  refine List.mem_toFinset.mpr ?_
  cases hdup : q.duplicate opts with
  | some j =>
    rw [Queue.add_of_duplicate_eq_some hdup]
    exact hid
  | none =>
    rw [Queue.add_eq_put hdup]
    have hput : id ∈ (q.put (q.newJob name data opts now)).ids := by
      rw [Queue.mem_ids_put]
      by_cases heq : id = (q.newJob name data opts now).id
      · exact .inl heq
      · exact .inr ⟨hid, heq⟩
    exact hput

theorem footprint_clean (q : Queue) (rule : CleanRule) (st : JobState) :
    (footprint (q.clean rule 1 st)).additions = (footprint q).additions ∧
      ∃ id, (footprint q).ids \ (footprint (q.clean rule 1 st)).ids ⊆ {id} := by
  change (footprint (q.cleanOne rule st)).additions = _ ∧
    ∃ id, (footprint q).ids \ (footprint (q.cleanOne rule st)).ids ⊆ {id}
  unfold Queue.cleanOne
  split
  · next job _ =>
    refine ⟨rfl, job.id, fun id hid => ?_⟩
    obtain ⟨hthere, hgone⟩ := Finset.mem_sdiff.mp hid
    rw [Finset.mem_singleton]
    by_contra hne
    refine hgone (List.mem_toFinset.mpr ?_)
    exact Queue.mem_ids_remove.mpr ⟨List.mem_toFinset.mp hthere, hne⟩
  · exact ⟨rfl, "", by simp⟩

/-- A replay adds at most one job and removes at most one. -/
theorem footprint_replayJob (dlqConfig : Option DLQConfig) (rule : CleanRule)
    (answers : ℕ → Answer Thrown) (now : ℕ) (jobId : String) (r : Remote Queue) :
    ∃ b r', (Dlq.replayJob dlqConfig rule answers now jobId none).run r = (.ok b, r') ∧
      (footprint r.server).additions ≤ (footprint r'.server).additions ∧
      AtMost 1 (footprint r.server) (footprint r'.server) := by
  obtain ⟨b, r', hrun, hserver⟩ :=
    Dlq.server_replayJob dlqConfig rule answers now jobId none r
  refine ⟨b, r', hrun, ?_⟩
  rcases hserver with hsame | ⟨job, hadd | hclean⟩
  · rw [hsame]
    exact ⟨le_rfl, (AtMost.refl _).mono (Nat.zero_le 1)⟩
  · obtain ⟨hadditions, hids⟩ :=
      footprint_add r.server job.name job.data (Dlq.copyOptions none) now
    rw [hadd]
    exact ⟨by omega, atMost_one "" hadditions.le (by simp [hids])⟩
  · obtain ⟨hadditions, hids⟩ :=
      footprint_add r.server job.name job.data (Dlq.copyOptions none) now
    obtain ⟨hkept, id, hgone⟩ := footprint_clean
      (r.server.add job.name job.data (Dlq.copyOptions none) now).2 rule .failed
    rw [hclean]
    refine ⟨by omega, atMost_one id (by omega) ?_⟩
    exact (Finset.sdiff_subset_sdiff hids le_rfl).trans hgone

/-- **The loop of the manager's `replayDLQ`** adds and removes at most as many jobs as it is given.
By induction on the jobs; a replay that fails does not end the loop. -/
theorem footprint_replayJobs_manager (dlqConfig : Option DLQConfig) (rule : CleanRule)
    (answers : ℕ → Answer Thrown) (now : ℕ) (dlqJobs : List Dlq.DLQJobInfo) (replayed : ℕ)
    (r : Remote Queue) :
    ∃ n r', (Dlq.replayJobs dlqConfig rule answers now dlqJobs replayed).run r = (.ok n, r') ∧
      (footprint r.server).additions ≤ (footprint r'.server).additions ∧
      AtMost dlqJobs.length (footprint r.server) (footprint r'.server) := by
  induction dlqJobs generalizing replayed r with
  | nil => exact ⟨replayed, r, rfl, le_rfl, .refl _⟩
  | cons dlqJob dlqJobs ih =>
    obtain ⟨isSuccess, r', hrun, hmono, hone⟩ :=
      footprint_replayJob dlqConfig rule answers now dlqJob.id r
    obtain ⟨n, r'', hrun', hmono', hrest⟩ := ih (if isSuccess then replayed + 1 else replayed) r'
    refine ⟨n, r'', ?_, hmono.trans hmono', ?_⟩
    · rw [Dlq.replayJobs, Async.run_bind_of_ok hrun, hrun']
    · rw [List.length_cons, Nat.add_comm]
      exact hone.trans hrest

/-- If no call is rejected, the first failed job is replayed. -/
theorem additions_lt_replayJobs_manager (rule : CleanRule) (now : ℕ) {dlqConfig : Option DLQConfig}
    (henabled : Dlq.isEnabled dlqConfig) {r : Remote Queue} {job : Job} (hjob : job ∈ r.server.jobs)
    (dlqJobs : List Dlq.DLQJobInfo) (replayed : ℕ) :
    (footprint r.server).additions < (footprint ((Dlq.replayJobs dlqConfig rule
      (fun _ => (.answered : Answer Thrown)) now (Dlq.toDLQJobInfo job :: dlqJobs) replayed).run
        r).2.server).additions := by
  have hid : job.id ∈ r.server.ids := List.mem_map_of_mem hjob
  cases hstored : r.server.getJob job.id with
  | none => exact absurd hid (Queue.getJob_eq_none.mp hstored)
  | some stored =>
    have hrun : (Dlq.replayJob dlqConfig rule (fun _ => (.answered : Answer Thrown)) now
        (Dlq.toDLQJobInfo job).id none).run r = _ :=
      Dlq.run_replayJob_of_answered henabled rfl hstored rfl rfl
    obtain ⟨hadd, -⟩ :=
      footprint_add r.server stored.name stored.data (Dlq.copyOptions none) now
    obtain ⟨hclean, -⟩ := footprint_clean
      (r.server.add stored.name stored.data (Dlq.copyOptions none) now).2 rule .failed
    obtain ⟨n, r', hrest, hmono, -⟩ := footprint_replayJobs_manager dlqConfig rule
      (fun _ => .answered) now dlqJobs (replayed + 1)
      ⟨(r.server.add stored.name stored.data (Dlq.copyOptions none) now).2.clean rule 1 .failed,
        r.calls + 3⟩
    rw [Dlq.replayJobs, Async.run_bind_of_ok hrun]
    rw [if_pos rfl, hrest]
    dsimp only at hmono ⊢
    omega

/-- A run of the manager's `replayDLQ` lists, and then replays what it has listed. -/
theorem run_replayDLQ_manager (e : Setting) (answers : ℕ → Answer Thrown) (limit : ℕ)
    (henabled : Dlq.isEnabled e.dlqConfig) {dlqJobs : List Dlq.DLQJobInfo} {r r' : Remote Queue}
    (h : (Dlq.getDLQJobs e.dlqConfig answers limit).run r = (.ok dlqJobs, r')) :
    ((Dlq.replayDLQ e.dlqConfig e.rule answers e.now limit).run r).2 =
      ((Dlq.replayJobs e.dlqConfig e.rule answers e.now dlqJobs 0).run r').2 := by
  obtain ⟨n, r'', hloop, -⟩ := footprint_replayJobs_manager e.dlqConfig e.rule answers e.now dlqJobs
    0 r'
  unfold Dlq.replayDLQ
  rw [if_pos henabled, hloop,
    Async.run_tryCatch_of_ok ((Async.run_bind_of_ok h).trans hloop)]

theorem bounded_replayFailedJobs : Operation.replayFailedJobs.Bounded e c limit ↔
    1 ≤ limit ∨ Dlq.isEnabled e.dlqConfig = false ∨ c.primary.inState .failed = [] := by
  cases henabled : Dlq.isEnabled e.dlqConfig with
  | false =>
    refine iff_of_true (fun answers => ?_) (.inr (.inl rfl))
    unfold Dlq.replayDLQ
    rw [henabled, if_neg Bool.false_ne_true]
    exact (AtMost.refl _).mono (Nat.zero_le limit)
  | true =>
    constructor
    · intro hbounded
      by_contra hnot
      obtain ⟨hlimit, hne⟩ := not_or.mp hnot
      obtain rfl : limit = 0 := by omega
      obtain ⟨job, jobs, hjobs⟩ :=
        List.exists_cons_of_ne_nil (not_or.mp hne).2
      have hmem : job ∈ c.primary.inState .failed := hjobs ▸ List.mem_cons_self
      have hlist : failedJobs e.dlqConfig 0 c.primary = job :: jobs := by
        rw [failedJobs, if_pos henabled, ← hjobs]
        exact range_zero_neg_one _
      have hle := (hbounded fun _ => .answered).added
      obtain ⟨calls, hrun | ⟨hrejected, -⟩⟩ :=
        run_getFailedJobs e.dlqConfig (fun _ => .answered) 0 ⟨c.primary, 0⟩
      · rw [run_replayDLQ_manager e _ 0 henabled hrun, hlist] at hle
        have hlt := additions_lt_replayJobs_manager e.rule e.now henabled (r := ⟨c.primary, calls⟩)
          (Queue.mem_inState.mp hmem).1 (jobs.map Dlq.toDLQJobInfo) 0
        exact absurd (hlt.trans_le hle) (Nat.lt_irrefl _)
      · exact absurd trivial hrejected
    · intro hfits answers
      have hlength := (length_failedJobs_le_iff e.dlqConfig c.primary).mpr (henabled ▸ hfits)
      obtain ⟨calls, hrun | ⟨-, hrun⟩⟩ := run_getFailedJobs e.dlqConfig answers limit ⟨c.primary, 0⟩
      · obtain ⟨n, r', hloop, -, hmost⟩ := footprint_replayJobs_manager e.dlqConfig e.rule answers
          e.now ((failedJobs e.dlqConfig limit c.primary).map Dlq.toDLQJobInfo) 0 ⟨c.primary, calls⟩
        rw [run_replayDLQ_manager e answers limit henabled hrun, hloop]
        rw [List.length_map] at hmost
        exact hmost.mono hlength
      · rw [run_replayDLQ_manager e answers limit henabled hrun]
        exact (AtMost.refl _).mono (Nat.zero_le limit)

end Manager

/-! ## All operations -/

/-- **Limits.** An operation keeps to its limit exactly if what it lists fits. -/
theorem keepsToLimit_iff (e : Setting) (c : Contents) (limit : ℕ) (op : Operation) :
    op.Bounded e c limit ↔ op.Fits e c limit := by
  cases op with
  | getJobsByStatus status => exact bounded_getJobsByStatus
  | getDLQJobs => exact bounded_getDLQJobs
  | replayDLQ => exact bounded_replayDLQ
  | bulkRetry status =>
    rw [Operation.Fits]
    by_cases hdlq : status = .dlq
    · rw [if_pos hdlq, hdlq]
      exact bounded_bulkRetry_of_dlq
    · rw [if_neg hdlq]
      exact bounded_bulkRetry_of_main hdlq
  | getFailedJobs => exact bounded_getFailedJobs
  | replayFailedJobs => exact bounded_replayFailedJobs

/-- A waiting and a prioritized job in the main queue, a waiting one in the dead letter queue and a
failed one in the primary queue. -/
def fourJobs : Contents where
  queue :=
    { jobs := [("2", .prioritized), ("1", .waiting)].map fun job =>
        { id := job.1, name := "send-mail", data := .null, opts := {}, attemptsMade := 0,
          timestamp := 900, state := job.2 }
      counter := 2
      defaultJobOptions := {} }
  dlqQueue := some (Status.queueOf .waiting)
  primary := Status.queueOf .failed

/-- Both dead letter queues are enabled. -/
def enabledDlqs : Setting where
  records := Status.bareRecords
  config := { name := "mail", dlq := some { enabled := true } }
  dlqConfig := some { enabled := true }
  rule := .oldest
  now := 1000
  requeue := takeBack
  stack := ""
  missing := .value "Missing key for job 1"

/-- **One waiting job is asked for, and two are returned and retried**; and none at all is asked
for, and a job is returned, copied and retried. -/
theorem not_keepsToLimit :
    (∀ op ∈ [Operation.getJobsByStatus .waiting, .bulkRetry .waiting],
      ¬ op.Bounded enabledDlqs fourJobs 1) ∧
      ∀ op ∈ [Operation.getJobsByStatus .waiting, .getDLQJobs, .replayDLQ, .bulkRetry .waiting,
        .bulkRetry .dlq, .getFailedJobs, .replayFailedJobs],
        ¬ op.Bounded enabledDlqs fourJobs 0 := by
  simp only [List.forall_mem_cons, List.not_mem_nil, false_imp_iff, implies_true, and_true]
  refine ⟨⟨?_, ?_⟩, ?_, ?_, ?_, ?_, ?_, ?_, ?_⟩ <;> intro hbounded
  · exact absurd (hbounded fun _ => .answered) (by decide +kernel)
  · exact absurd (hbounded fun _ => .answered) (by decide +kernel)
  · exact absurd (hbounded fun _ => .answered) (by decide +kernel)
  · exact absurd (hbounded fun _ => .answered) (by decide +kernel)
  · exact absurd (hbounded fun _ => .answered).added (by decide +kernel)
  · exact absurd (hbounded fun _ => .answered) (by decide +kernel)
  · exact absurd (hbounded fun _ => .answered) (by decide +kernel)
  · exact absurd (hbounded fun _ => .answered) (by decide +kernel)
  · exact absurd (hbounded fun _ => .answered).added (by decide +kernel)

end KitiumJobQueue.JobQueue
