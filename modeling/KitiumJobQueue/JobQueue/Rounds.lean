import KitiumJobQueue.JobQueue.DeadLetter

/-!
# Rounds through the dead letter queue

A job that fails for good is wrapped into an envelope, and `replayDLQ` puts the envelope back as it
is. So every round wraps the job once more: the job that comes back has the name of the original and
never its data (`not_restored_of_rounds`).
-/

namespace KitiumJobQueue.JobQueue

open Effects JavaScript Bull

variable (config : QueueConfig)

/-- `moveJobToDLQ` places `entry` in the dead letter queue for `job`. -/
def MovesTo (job entry : Job) : Prop :=
  ∃ (s : State) (q q' : Queue) (dlqAdd notification : Answer Thrown) (now : ℕ)
    (timestamp : String) (error : JsError),
    s.dlqQueue = some q ∧
      ((moveJobToDLQ config dlqAdd notification now timestamp job error).run s).2.dlqQueue =
        some q' ∧
      entry ∈ q'.jobs ∧ entry ∉ q.jobs

/-- `replayDLQ` puts `job` into the main queue for `entry`, a job of the dead letter queue: there
are no two of its id. -/
def ReplaysTo (entry job : Job) : Prop :=
  ∃ (s : State) (q : Queue) (answers : ℕ → Answer Thrown) (now limit : ℕ),
    s.dlqQueue = some q ∧ q.ids.Nodup ∧ "" ∉ q.ids ∧ entry ∈ q.jobs ∧
      job ∈ ((replayDLQ config answers now limit).run ⟨s, 0⟩).2.server.queue.jobs ∧
      job ∉ s.queue.jobs ∧ job.id = entry.id

/-- `job'` is what `job` has become after `n` rounds. Between two rounds BullMQ keeps a job's name
and data. -/
inductive Rounds : ℕ → Job → Job → Prop
  | zero {job job' : Job} (hname : job'.name = job.name) (hdata : job'.data = job.data) :
    Rounds 0 job job'
  | succ {n : ℕ} {job failed entry replayed job' : Job} (hbefore : Rounds n job failed)
    (hmove : MovesTo config failed entry) (hreplay : ReplaysTo config entry replayed)
    (hname : job'.name = replayed.name) (hdata : job'.data = replayed.data) :
    Rounds (n + 1) job job'

variable {config} {job job' entry : Job}

/-! ## One round -/

/-- The dead letter queue holds envelopes. -/
theorem MovesTo.eq_envelope (h : MovesTo config job entry) :
    entry.name = job.name ∧
      ∃ error timestamp, entry.data = envelope config job error timestamp := by
  obtain ⟨s, q, q', dlqAdd, notification, now, timestamp, error, hq, hq', hmem, hnew⟩ := h
  rw [dlqQueue_moveJobToDLQ config dlqAdd notification now timestamp job error hq] at hq'
  obtain rfl := Option.some.inj hq'
  split at hmem
  · obtain rfl := (Queue.mem_jobs_add hmem).resolve_left hnew
    exact ⟨rfl, error, timestamp, rfl⟩
  · exact absurd hmem hnew

theorem queue_removeDlqJob (s : State) (jobId : String) :
    (s.removeDlqJob jobId).queue = s.queue := by
  unfold State.removeDlqJob
  split
  · rfl
  · split
    · rfl
    · rfl

/-- After a round the main queue holds no more than before and a copy of the job. -/
theorem mem_queue_afterRound {answers : ℕ → Answer Thrown} {now k : ℕ} {s : State} {j : Job}
    (hid : job.id ≠ "") (h : j ∈ (s.afterRound config answers now k job).queue.jobs) :
    j ∈ s.queue.jobs ∨ (j.id = job.id ∧ j.name = job.name ∧ j.data = job.data) := by
  refine State.afterRound_invariant config answers now (I := fun s' => j ∈ s'.queue.jobs →
    j ∈ s.queue.jobs ∨ (j.id = job.id ∧ j.name = job.name ∧ j.data = job.data))
    .inl (fun hj => ?_) (fun hadd hj => ?_) h
  · rw [State.afterAdd, State.add_queue] at hj
    rcases Queue.mem_jobs_add hj with hj | rfl
    · exact .inl hj
    · have hcustom := JobsOptions.customId_spread (a := s.queue.defaultJobOptions)
        (b := replayOptions config job) rfl hid
      exact .inr ⟨Queue.newJob_id_of_some hcustom _ _ _, rfl, rfl⟩
  · rw [queue_removeDlqJob] at hj
    exact hadd hj

theorem dlqJobs_subset {s : State} {q : Queue} (hq : s.dlqQueue = some q) (limit : ℕ) :
    s.dlqJobs limit ⊆ q.jobs := by
  intro j hj
  unfold State.dlqJobs at hj
  rw [hq] at hj
  exact (List.mem_filter.mp (List.mem_of_mem_take (List.mem_of_mem_drop hj))).1

/-- What is replayed is the entry as it is. -/
theorem ReplaysTo.eq_entry (h : ReplaysTo config entry job) :
    job.name = entry.name ∧ job.data = entry.data := by
  obtain ⟨s, q, answers, now, limit, hq, hnodup, hempty, hentry, hmem, hnew, hid⟩ := h
  have hall : ∀ j ∈ ((replayDLQ config answers now limit).run ⟨s, 0⟩).2.server.queue.jobs,
      j ∈ s.queue.jobs ∨ ∃ d ∈ q.jobs, j.id = d.id ∧ j.name = d.name ∧ j.data = d.data := by
    have hsome : s.dlqQueue.isSome := by rw [hq]; rfl
    rcases run_replayDLQ config answers now (r := ⟨s, 0⟩) limit hsome with
      ⟨-, hrun⟩ | ⟨-, e, hrun⟩
    · rw [hrun]
      refine replayJobs_invariant config answers now
        (I := fun s' => ∀ j ∈ s'.queue.jobs, j ∈ s.queue.jobs ∨
          ∃ d ∈ q.jobs, j.id = d.id ∧ j.name = d.name ∧ j.data = d.data)
        (fun s' k d hd h j hj => ?_) 0 fun j hj => .inl hj
      have hd := dlqJobs_subset hq limit hd
      have hid : d.id ≠ "" := fun heq => hempty (heq ▸ Queue.mem_ids.mpr ⟨d, hd, rfl⟩)
      rcases mem_queue_afterRound hid hj with hj | hj
      · exact h j hj
      · exact .inr ⟨d, hd, hj⟩
    · rw [hrun]
      exact fun j hj => .inl hj
  obtain ⟨d, hd, hjd, hname, hdata⟩ := (hall job hmem).resolve_left hnew
  obtain rfl := Queue.eq_of_id_eq hnodup hd hentry (hjd.symm.trans hid)
  exact ⟨hname, hdata⟩

/-! ## Any number of rounds -/

/-- A job's data is smaller than its envelope. -/
theorem sizeOf_lt_envelope (config : QueueConfig) (job : Job) (error : JsError)
    (timestamp : String) : sizeOf job.data < sizeOf (envelope config job error timestamp) :=
  Json.sizeOf_lt_ofFields (k := "originalData") (by simp)

/-- Every round keeps the name and makes the data larger. -/
theorem Rounds.grow {n : ℕ} (h : Rounds config n job job') :
    job'.name = job.name ∧ sizeOf job.data + n ≤ sizeOf job'.data := by
  induction h with
  | zero hname hdata => exact ⟨hname, by rw [hdata]; rfl⟩
  | @succ n job failed _ _ _ _ hmove hreplay hname hdata ih =>
    obtain ⟨hname₁, hsize₁⟩ := ih
    obtain ⟨hname₂, error, timestamp, hentry⟩ := hmove.eq_envelope
    obtain ⟨hname₃, hdata₃⟩ := hreplay.eq_entry
    have hlt := sizeOf_lt_envelope config failed error timestamp
    rw [← hentry, ← hdata₃, ← hdata] at hlt
    refine ⟨hname.trans (hname₃.trans (hname₂.trans hname₁)), ?_⟩
    omega

/-- **A replay never restores a job.** Whatever the job, and after however many rounds, the job that
comes back has other data than the original. -/
theorem not_restored_of_rounds {n : ℕ} (h : Rounds config (n + 1) job job') :
    ¬ (job'.name = job.name ∧ job'.data = job.data) := by
  intro ⟨_, hdata⟩
  have hsize := h.grow.2
  rw [hdata] at hsize
  omega

/-! ## A round of any job -/

/-- The entry an empty dead letter queue stores for a job. -/
def firstEntry (config : QueueConfig) (job : Job) (error : JsError) (timestamp : String) : Job :=
  newDlqQueue.newJob job.name (envelope config job error timestamp) dlqJobOptions 0

/-- A main queue without jobs. -/
def emptyQueue : Queue where
  jobs := []
  counter := 0
  defaultJobOptions := {}

/-- The job an empty main queue stores for that entry. -/
def firstReplay (config : QueueConfig) (job : Job) (error : JsError) (timestamp : String) : Job :=
  let entry := firstEntry config job error timestamp
  emptyQueue.newJob entry.name entry.data (replayOptions config entry) 0

/-- Every job can go through a round. -/
theorem rounds_firstReplay (config : QueueConfig) (job : Job) (error : JsError)
    (timestamp : String) :
    Rounds config 1 job (firstReplay config job error timestamp) := by
  have hmove : MovesTo config job (firstEntry config job error timestamp) := by
    refine ⟨⟨emptyQueue, some newDlqQueue, []⟩, newDlqQueue, _, .answered, .answered, 0, timestamp,
      error, rfl, dlqQueue_moveJobToDLQ config _ _ 0 timestamp job error rfl, ?_, List.not_mem_nil⟩
    exact List.mem_cons_self
  have hreplay : ReplaysTo config (firstEntry config job error timestamp)
      (firstReplay config job error timestamp) := by
    refine ⟨⟨emptyQueue, some ⟨[firstEntry config job error timestamp], 1, dlqJobOptions⟩, []⟩, _,
      fun _ => .answered, 0, 1, rfl, List.nodup_singleton _, fun hempty => ?_, List.mem_cons_self,
      List.mem_cons_self, List.not_mem_nil, rfl⟩
    have hid : (firstEntry config job error timestamp).id = "1" := rfl
    exact absurd ((List.mem_singleton.mp hempty).trans hid) (by decide)
  exact .succ (.zero rfl rfl) hmove hreplay rfl rfl

/-- A shop with a dead letter queue. -/
def shopConfig : QueueConfig where
  name := "shop"
  dlq := some { enabled := true }

/-- An order to be charged. -/
def orderJob : Job where
  id := "7"
  name := "charge"
  data := .obj [("amount", .num 5)]
  opts := {}
  attemptsMade := 3
  timestamp := 0
  state := .failed

theorem not_restored_orderJob :
    ∃ job', Rounds shopConfig 1 orderJob job' ∧
      ¬ (job'.name = orderJob.name ∧ job'.data = orderJob.data) := by
  have hround := rounds_firstReplay shopConfig orderJob ⟨"declined", none, []⟩ "now"
  exact ⟨_, hround, not_restored_of_rounds hround⟩

/-- **The envelope comes back.** What returns is an object whose `originalData` is the order. -/
theorem envelope_of_orderJob :
    ∃ job', Rounds shopConfig 1 orderJob job' ∧ job'.data.get? "originalData" = some orderJob.data ∧
      ¬ (job'.name = orderJob.name ∧ job'.data = orderJob.data) := by
  refine ⟨_, rounds_firstReplay shopConfig orderJob ⟨"declined", none, []⟩ "now", rfl, ?_⟩
  intro ⟨_, hdata⟩
  have hget := congrArg (fun data => (data.get? "originalData").isSome) hdata
  exact absurd hget (by decide)

end KitiumJobQueue.JobQueue
