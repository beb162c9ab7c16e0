import KitiumJobQueue.Dlq.Manager

/-!
# Replays that are refused

`replayJob` answers `false` when its job is not there or a call of the queue rejects. It does not
look at the state of the job, and it takes nothing back: when the copy is stored and the call after
it rejects, the answer is `false` and the copy stays. `refuses_iff` says when a replay of a job that
has not failed, or one that meets a rejection, leaves every job as it was and says so.
-/

namespace KitiumJobQueue.Dlq

open Effects Bull

/-- The job is stored and has failed. -/
def IsFailed (q : Queue) (jobId : String) : Prop := ∃ job ∈ q.getJob jobId, job.state = .failed

/-- The options of a copy. -/
def copyOptions (options : Option JobOptions) : JobsOptions :=
  { toJobOptions := options.getD {} }

section Replay

variable {ε : Type} (dlqConfig : Option DLQConfig) (rule : CleanRule) (answers : ℕ → Answer ε)
  (now : ℕ) (jobId : String) (options : Option JobOptions)

/-- If the job has not failed, or a call the replay makes rejects, the answer is `false` and all
jobs stay as they are. -/
def Refuses (r : Remote Queue) : Prop :=
  ∀ answer r', (replayJob dlqConfig rule answers now jobId options).run r = (answer, r') →
    (¬ IsFailed r.server jobId ∨ ∃ n, r.calls ≤ n ∧ n < r'.calls ∧ ¬ (answers n).IsAnswered) →
      answer = .ok false ∧ r'.server.jobs = r.server.jobs

/-- What the answer to `clean` has to be: none but for a failed job, and a rejection only where no
copy was stored and no failed job is gone. -/
def MayClean (q : Queue) (job : Job) : Answer ε → Prop
  | .answered => job.state = .failed
  | .rejected _ applied =>
    q.duplicate (copyOptions options) ≠ none ∧ (applied = true → q.inState .failed = [])

/-- What the answers to `addJob` and to `clean` have to be: a rejection of `addJob` only where no
copy was stored. -/
def MayAdd (q : Queue) (job : Job) (cleaned : Answer ε) : Answer ε → Prop
  | .answered => MayClean options q job cleaned
  | .rejected _ applied => applied = true → q.duplicate (copyOptions options) ≠ none

/-- A replay that refuses as it should. -/
def RefusesWhen (r : Remote Queue) : Prop :=
  isEnabled dlqConfig = true → (answers r.calls).IsAnswered →
    ∀ job ∈ r.server.getJob jobId,
      MayAdd options r.server job (answers (r.calls + 2)) (answers (r.calls + 1))

end Replay

/-! ## What a copy changes -/

section Jobs

variable {q : Queue} {name : String} {data : Json} {opts : JobsOptions} {now : ℕ}

/-- An `add` leaves the jobs as they are exactly if one is stored under the id asked for. -/
theorem jobs_add_eq_iff (h : q.WellFormed) :
    (q.add name data opts now).2.jobs = q.jobs ↔ q.duplicate opts ≠ none := by
  cases hdup : q.duplicate opts with
  | some job =>
    rw [Queue.add_of_duplicate_eq_some hdup]
    exact iff_of_true rfl (Option.some_ne_none job)
  | none =>
    have hid := Queue.newJob_id_not_mem h.fresh hdup name data now
    rw [Queue.add_of_duplicate_eq_none hdup hid]
    exact iff_of_false (List.cons_ne_self _ _) fun hne => hne rfl

/-- A `clean` of one job leaves the jobs as they are exactly if none is in the state. -/
theorem jobs_clean_eq_iff (rule : CleanRule) (q : Queue) (st : JobState) :
    (q.clean rule 1 st).jobs = q.jobs ↔ q.inState st = [] := by
  change (q.cleanOne rule st).jobs = q.jobs ↔ _
  rw [Queue.cleanOne]
  split
  · next job hpick =>
    have hmem := rule.pick_mem hpick
    refine iff_of_false (fun hjobs => ?_) (List.ne_nil_of_mem hmem)
    have hkept : job ∈ (q.remove job.id).jobs := hjobs.symm ▸ (Queue.mem_inState.mp hmem).1
    simp [Queue.remove] at hkept
  · next hpick =>
    refine iff_of_true rfl ?_
    by_contra hne
    obtain ⟨job, hjob⟩ := rule.pick_of_ne_nil hne
    exact absurd (hpick.symm.trans hjob) (Option.some_ne_none job).symm

/-- A job in another state stays. -/
theorem mem_jobs_clean (rule : CleanRule) (h : q.ids.Nodup) {job : Job} (hjob : job ∈ q.jobs)
    {st : JobState} (hst : job.state ≠ st) : job ∈ (q.clean rule 1 st).jobs := by
  change job ∈ (q.cleanOne rule st).jobs
  rw [Queue.cleanOne]
  split
  · next x hpick =>
    obtain ⟨hx, hxst⟩ := Queue.mem_inState.mp (rule.pick_mem hpick)
    refine List.mem_filter.mpr ⟨hjob, decide_eq_true fun hid => hst ?_⟩
    rw [Queue.eq_of_id_eq h hjob hx hid, hxst]
  · exact hjob

/-- A new job has not failed. -/
theorem newJob_state_ne_failed : (q.newJob name data opts now).state ≠ .failed := by
  change Queue.initialState _ ≠ _
  unfold Queue.initialState
  split
  · decide
  · split <;> decide

/-- After an `add`, a `clean` of one failed job leaves the jobs as they were before both exactly if
neither does anything. -/
theorem jobs_clean_add_eq_iff (rule : CleanRule) (h : q.WellFormed) :
    ((q.add name data opts now).2.clean rule 1 .failed).jobs = q.jobs ↔
      q.duplicate opts ≠ none ∧ q.inState .failed = [] := by
  cases hdup : q.duplicate opts with
  | some job =>
    rw [Queue.add_of_duplicate_eq_some hdup]
    exact (jobs_clean_eq_iff rule { q with counter := q.counter + 1 } .failed).trans
      (and_iff_right (Option.some_ne_none job)).symm
  | none =>
    have hid := Queue.newJob_id_not_mem h.fresh hdup name data now
    rw [Queue.add_of_duplicate_eq_none hdup hid]
    refine iff_of_false (fun hjobs => hid ?_) fun hne => hne.1 rfl
    have hcopy := mem_jobs_clean rule
      (q := { q with jobs := q.newJob name data opts now :: q.jobs, counter := q.counter + 1 })
      (List.nodup_cons.mpr ⟨hid, h.nodup⟩) List.mem_cons_self newJob_state_ne_failed
    rw [hjobs] at hcopy
    exact Queue.mem_ids.mpr ⟨_, hcopy, rfl⟩

end Jobs

/-! ## How a replay ends -/

section Runs

variable {ε : Type} {dlqConfig : Option DLQConfig} {rule : CleanRule} {answers : ℕ → Answer ε}
  {now : ℕ} {jobId : String} {options : Option JobOptions} {r : Remote Queue}

/-- What a replay does is all there is to say of it. -/
theorem refuses_of_run {answer : Except ε Bool} {r' : Remote Queue}
    (h : (replayJob dlqConfig rule answers now jobId options).run r = (answer, r')) :
    Refuses dlqConfig rule answers now jobId options r ↔
      ((¬ IsFailed r.server jobId ∨
          ∃ n, r.calls ≤ n ∧ n < r'.calls ∧ ¬ (answers n).IsAnswered) →
        answer = .ok false ∧ r'.server.jobs = r.server.jobs) := by
  constructor
  · exact fun hrefuses => hrefuses answer r' h
  · intro hall answer' r'' h'
    obtain ⟨rfl, rfl⟩ := Prod.mk.inj (h.symm.trans h')
    exact hall

/-- A replay that answers `false` and changes nothing. -/
theorem refuses_of_unchanged {r' : Remote Queue}
    (h : (replayJob dlqConfig rule answers now jobId options).run r = (.ok false, r'))
    (hjobs : r'.server.jobs = r.server.jobs) :
    Refuses dlqConfig rule answers now jobId options r :=
  (refuses_of_run h).mpr fun _ => ⟨rfl, hjobs⟩

/-- A replay in which a call rejects, and that answers `false`. -/
theorem refuses_iff_of_rejected {r' : Remote Queue} {n : ℕ}
    (h : (replayJob dlqConfig rule answers now jobId options).run r = (.ok false, r'))
    (hn : r.calls ≤ n ∧ n < r'.calls ∧ ¬ (answers n).IsAnswered) :
    Refuses dlqConfig rule answers now jobId options r ↔ r'.server.jobs = r.server.jobs := by
  rw [refuses_of_run h]
  exact ⟨fun hall => (hall (.inr ⟨n, hn⟩)).2, fun hjobs _ => ⟨rfl, hjobs⟩⟩

theorem run_replayJob_of_disabled (h : ¬ isEnabled dlqConfig = true) :
    (replayJob dlqConfig rule answers now jobId options).run r = (.ok false, r) := by
  rw [replayJob, if_neg h]
  rfl

theorem run_replayJob_of_getJob_rejected (henabled : isEnabled dlqConfig = true)
    (h : ¬ (answers r.calls).IsAnswered) :
    (replayJob dlqConfig rule answers now jobId options).run r =
      (.ok false, ⟨r.server, r.calls + 1⟩) := by
  rw [replayJob, if_pos henabled]
  cases hanswer : answers r.calls with
  | answered =>
    rw [hanswer] at h
    exact absurd trivial h
  | rejected e applied =>
    have hget : (getJob answers jobId).run r = (.error e, ⟨r.server, r.calls + 1⟩) :=
      (run_call_of_rejected hanswer).trans (by cases applied <;> rfl)
    exact Async.run_tryCatch_of_error (Async.run_bind_of_error hget)

theorem run_replayJob_of_absent (henabled : isEnabled dlqConfig = true)
    (h : answers r.calls = .answered) (hjob : r.server.getJob jobId = none) :
    (replayJob dlqConfig rule answers now jobId options).run r =
      (.ok false, ⟨r.server, r.calls + 1⟩) := by
  have hget : (getJob answers jobId).run r = (.ok none, ⟨r.server, r.calls + 1⟩) :=
    (run_call_of_answered h).trans (by rw [hjob])
  rw [replayJob, if_pos henabled]
  exact Async.run_tryCatch_of_ok (Async.run_bind_of_ok hget)

section Stored

variable (henabled : isEnabled dlqConfig = true) (h : answers r.calls = .answered) {job : Job}
  (hjob : r.server.getJob jobId = some job)

include h hjob in
theorem run_getJob_of_stored :
    (getJob answers jobId).run r = (.ok (some job), ⟨r.server, r.calls + 1⟩) :=
  (run_call_of_answered h).trans (by rw [hjob])

include henabled h hjob in
theorem run_replayJob_of_add_rejected {e : ε} {applied : Bool}
    (hadd : answers (r.calls + 1) = .rejected e applied) :
    (replayJob dlqConfig rule answers now jobId options).run r =
      (.ok false, ⟨if applied then (r.server.add job.name job.data (copyOptions options) now).2
        else r.server, r.calls + 2⟩) := by
  rw [replayJob, if_pos henabled]
  refine Async.run_tryCatch_of_error (e := e) ?_
  refine (Async.run_bind_of_ok (run_getJob_of_stored h hjob)).trans ?_
  exact Async.run_bind_of_error (run_call_of_rejected hadd)

include henabled h hjob in
theorem run_replayJob_of_clean_rejected {e : ε} {applied : Bool}
    (hadd : answers (r.calls + 1) = .answered)
    (hclean : answers (r.calls + 2) = .rejected e applied) :
    (replayJob dlqConfig rule answers now jobId options).run r =
      (.ok false,
        ⟨if applied then
            (r.server.add job.name job.data (copyOptions options) now).2.clean rule 1 .failed
          else (r.server.add job.name job.data (copyOptions options) now).2, r.calls + 3⟩) := by
  rw [replayJob, if_pos henabled]
  refine Async.run_tryCatch_of_error (e := e) ?_
  refine (Async.run_bind_of_ok (run_getJob_of_stored h hjob)).trans ?_
  refine (Async.run_bind_of_ok (run_call_of_answered hadd)).trans ?_
  exact Async.run_bind_of_error (run_call_of_rejected hclean)

include henabled h hjob in
theorem run_replayJob_of_answered (hadd : answers (r.calls + 1) = .answered)
    (hclean : answers (r.calls + 2) = .answered) :
    (replayJob dlqConfig rule answers now jobId options).run r =
      (.ok true,
        ⟨(r.server.add job.name job.data (copyOptions options) now).2.clean rule 1 .failed,
          r.calls + 3⟩) := by
  rw [replayJob, if_pos henabled]
  refine Async.run_tryCatch_of_ok ?_
  refine (Async.run_bind_of_ok (run_getJob_of_stored h hjob)).trans ?_
  refine (Async.run_bind_of_ok (run_call_of_answered hadd)).trans ?_
  exact Async.run_bind_of_ok (run_call_of_answered hclean)

include henabled h hjob in
/-- What becomes of the queue when a stored job is replayed: nothing, or the copy is added, and then
one failed job may be removed. -/
theorem server_replayJob_of_stored :
    ∃ b r', (replayJob dlqConfig rule answers now jobId options).run r = (.ok b, r') ∧
      (r'.server = r.server ∨
        r'.server = (r.server.add job.name job.data (copyOptions options) now).2 ∨
        r'.server =
          (r.server.add job.name job.data (copyOptions options) now).2.clean rule 1 .failed) := by
  cases hadd : answers (r.calls + 1) with
  | rejected e applied =>
    refine ⟨false, _, run_replayJob_of_add_rejected henabled h hjob hadd, ?_⟩
    cases applied with
    | true => exact .inr (.inl rfl)
    | false => exact .inl rfl
  | answered =>
    cases hclean : answers (r.calls + 2) with
    | rejected e applied =>
      refine ⟨false, _, run_replayJob_of_clean_rejected henabled h hjob hadd hclean, ?_⟩
      cases applied with
      | true => exact .inr (.inr rfl)
      | false => exact .inr (.inl rfl)
    | answered =>
      exact ⟨true, _, run_replayJob_of_answered henabled h hjob hadd hclean, .inr (.inr rfl)⟩

include henabled h hjob in
/-- A replay whose `addJob` rejects refuses exactly if no copy was stored. -/
theorem refuses_iff_of_add_rejected (hq : r.server.WellFormed) {e : ε} {applied : Bool}
    (hadd : answers (r.calls + 1) = .rejected e applied) :
    Refuses dlqConfig rule answers now jobId options r ↔
      (applied = true → r.server.duplicate (copyOptions options) ≠ none) := by
  have hn : r.calls ≤ r.calls + 1 ∧ r.calls + 1 < r.calls + 2 ∧
      ¬ (answers (r.calls + 1)).IsAnswered :=
    ⟨Nat.le_succ _, Nat.lt_succ_self _, by rw [hadd]; exact not_false⟩
  rw [refuses_iff_of_rejected (run_replayJob_of_add_rejected henabled h hjob hadd) hn]
  cases applied with
  | false => exact iff_of_true rfl nofun
  | true => exact (jobs_add_eq_iff hq).trans ⟨fun hdup _ => hdup, fun hdup => hdup rfl⟩

include henabled h hjob in
/-- A replay whose `clean` rejects refuses exactly if no copy was stored and no failed job is
gone. -/
theorem refuses_iff_of_clean_rejected (hq : r.server.WellFormed) {e : ε} {applied : Bool}
    (hadd : answers (r.calls + 1) = .answered)
    (hclean : answers (r.calls + 2) = .rejected e applied) :
    Refuses dlqConfig rule answers now jobId options r ↔
      r.server.duplicate (copyOptions options) ≠ none ∧
        (applied = true → r.server.inState .failed = []) := by
  have hn : r.calls ≤ r.calls + 2 ∧ r.calls + 2 < r.calls + 3 ∧
      ¬ (answers (r.calls + 2)).IsAnswered :=
    ⟨Nat.le_add_right _ _, Nat.lt_succ_self _, by rw [hclean]; exact not_false⟩
  rw [refuses_iff_of_rejected (run_replayJob_of_clean_rejected henabled h hjob hadd hclean) hn]
  cases applied with
  | false => exact (jobs_add_eq_iff hq).trans (and_iff_left nofun).symm
  | true =>
    exact (jobs_clean_add_eq_iff rule hq).trans
      (and_congr_right' ⟨fun hnone _ => hnone, fun hnone => hnone rfl⟩)

include henabled h hjob in
/-- A replay without rejections answers `true`, so its job has to be a failed one. -/
theorem refuses_iff_of_answered (hadd : answers (r.calls + 1) = .answered)
    (hclean : answers (r.calls + 2) = .answered) :
    Refuses dlqConfig rule answers now jobId options r ↔ job.state = .failed := by
  have hfailed : IsFailed r.server jobId ↔ job.state = .failed := by
    unfold IsFailed
    rw [hjob]
    simp
  have hnone : ¬ ∃ n, r.calls ≤ n ∧ n < r.calls + 3 ∧ ¬ (answers n).IsAnswered := by
    rintro ⟨n, hle, hlt, hn⟩
    obtain rfl | rfl | rfl : n = r.calls ∨ n = r.calls + 1 ∨ n = r.calls + 2 := by omega
    · exact hn (by rw [h]; trivial)
    · exact hn (by rw [hadd]; trivial)
    · exact hn (by rw [hclean]; trivial)
  rw [refuses_of_run (run_replayJob_of_answered henabled h hjob hadd hclean), hfailed]
  constructor
  · intro hall
    by_contra hstate
    exact absurd (hall (.inl hstate)).1 (by simp)
  · rintro hstate (hnot | hrejects)
    · exact absurd hstate hnot
    · exact absurd hrejects hnone

end Stored

/-- **What a replay does to the queue**: nothing, or it adds a copy, and then it may remove one
failed job. -/
theorem server_replayJob (dlqConfig : Option DLQConfig) (rule : CleanRule) (answers : ℕ → Answer ε)
    (now : ℕ) (jobId : String) (options : Option JobOptions) (r : Remote Queue) :
    ∃ b r', (replayJob dlqConfig rule answers now jobId options).run r = (.ok b, r') ∧
      (r'.server = r.server ∨ ∃ job : Job,
        r'.server = (r.server.add job.name job.data (copyOptions options) now).2 ∨
        r'.server =
          (r.server.add job.name job.data (copyOptions options) now).2.clean rule 1 .failed) := by
  by_cases henabled : isEnabled dlqConfig = true
  swap
  · exact ⟨false, r, run_replayJob_of_disabled henabled, .inl rfl⟩
  by_cases hget : (answers r.calls).IsAnswered
  swap
  · exact ⟨false, _, run_replayJob_of_getJob_rejected henabled hget, .inl rfl⟩
  cases hjob : r.server.getJob jobId with
  | none => exact ⟨false, _, run_replayJob_of_absent henabled hget.eq hjob, .inl rfl⟩
  | some job =>
    obtain ⟨b, r', hrun, hserver⟩ := server_replayJob_of_stored henabled hget.eq hjob
    exact ⟨b, r', hrun, hserver.imp_right fun hadded => ⟨job, hadded⟩⟩

/-- **When a replay refuses as it should**, for every content of the queue, every job and every
rejection: if DLQs are off, `getJob` rejects or the job is not there; if `addJob` rejects or
`clean` does, only where no copy was stored and no failed job is gone; and otherwise for a failed
job only. -/
theorem refuses_iff (hq : r.server.WellFormed) :
    Refuses dlqConfig rule answers now jobId options r ↔
      RefusesWhen dlqConfig answers jobId options r := by
  unfold RefusesWhen
  by_cases henabled : isEnabled dlqConfig = true
  swap
  · exact iff_of_true (refuses_of_unchanged (run_replayJob_of_disabled henabled) rfl)
      fun h => absurd h henabled
  by_cases hget : (answers r.calls).IsAnswered
  swap
  · exact iff_of_true
      (refuses_of_unchanged (run_replayJob_of_getJob_rejected henabled hget) rfl)
      fun _ h => absurd h hget
  cases hjob : r.server.getJob jobId with
  | none =>
    exact iff_of_true
      (refuses_of_unchanged (run_replayJob_of_absent henabled hget.eq hjob) rfl)
      fun _ _ job hmem => absurd hmem (Option.not_mem_none job)
  | some job =>
    have hwhen : (isEnabled dlqConfig = true → (answers r.calls).IsAnswered → ∀ j ∈ some job,
        MayAdd options r.server j (answers (r.calls + 2)) (answers (r.calls + 1))) ↔
        MayAdd options r.server job (answers (r.calls + 2)) (answers (r.calls + 1)) :=
      ⟨fun hall => hall henabled hget job rfl, fun hmay _ _ j hj => Option.some.inj hj ▸ hmay⟩
    rw [hwhen]
    cases hadd : answers (r.calls + 1) with
    | rejected e applied => exact refuses_iff_of_add_rejected henabled hget.eq hjob hq hadd
    | answered =>
      cases hclean : answers (r.calls + 2) with
      | rejected e applied =>
        exact refuses_iff_of_clean_rejected henabled hget.eq hjob hq hadd hclean
      | answered => exact refuses_iff_of_answered henabled hget.eq hjob hadd hclean

end Runs

/-! ## A job in hand -/

/-- A job that a worker is processing. -/
def activeJob : Job where
  id := "1"
  name := "email"
  data := .null
  opts := {}
  attemptsMade := 0
  timestamp := 1
  state := .active

/-- A queue with a job being processed and a failed one. -/
def busyQueue : Queue where
  jobs := [activeJob, { activeJob with id := "2", state := .failed }]
  counter := 2
  defaultJobOptions := {}

theorem wellFormed_busyQueue : busyQueue.WellFormed where
  nodup := by decide
  fresh n hn hmem := by
    have hn : 2 < n := hn
    have hids : busyQueue.ids = [1, 2].map toString := by decide +kernel
    rw [hids, List.mem_map] at hmem
    obtain ⟨k, hk, heq⟩ := hmem
    have hk : k = 1 ∨ k = 2 := by simpa using hk
    have heq := Queue.toString_injective heq
    omega

/-- A replay of the failed job is answered at once. -/
theorem refuses_failed :
    Refuses (ε := Empty) (some { enabled := true }) .oldest (fun _ => .answered) 5 "2" none
      ⟨busyQueue, 0⟩ :=
  (refuses_iff wellFormed_busyQueue).mpr fun _ _ job hjob => by
    obtain rfl : { activeJob with id := "2", state := .failed } = job := Option.some.inj hjob
    rfl

/-- **A job that is being processed is replayed**: there are two of it afterwards, the failed job
has disappeared without a copy, and the answer is `true`. -/
theorem not_refuses_active :
    busyQueue.WellFormed ∧ ∃ r', (replayJob (ε := Empty) (some { enabled := true }) .oldest
        (fun _ => .answered) 5 "1" none).run ⟨busyQueue, 0⟩ = (.ok true, r') ∧
      r'.server.ids = ["3", "1"] ∧
      ¬ Refuses (ε := Empty) (some { enabled := true }) .oldest (fun _ => .answered) 5 "1" none
        ⟨busyQueue, 0⟩ := by
  refine ⟨wellFormed_busyQueue, _, rfl, by decide +kernel, fun hclaim => ?_⟩
  have hnot : ¬ IsFailed busyQueue "1" := by
    rintro ⟨job, hjob, hstate⟩
    obtain rfl : activeJob = job := Option.some.inj hjob
    exact absurd hstate (by decide)
  exact absurd (hclaim _ _ rfl (.inl hnot)).1 (by simp)

end KitiumJobQueue.Dlq
