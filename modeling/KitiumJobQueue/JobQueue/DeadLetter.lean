import KitiumJobQueue.JobQueue.Basic

/-!
# The dead letter queue of a `JobQueue`

`moveJobToDLQ` wraps a job that has failed into an envelope and adds the envelope to the second
queue. `replayDLQ` takes waiting jobs of the second queue back to the main one: for each of them it
adds a job under the same id and then removes it. Both queues number their jobs on their own, and an
`add` under an id that is stored creates nothing.
-/

namespace KitiumJobQueue.JobQueue

open Effects JavaScript Bull

/-! ## Moving a job -/

/-- What the dead letter queue stores of a job. -/
def envelope (config : QueueConfig) (job : Job) (error : JsError) (timestamp : String) : Json :=
  .ofFields
    [("originalJobId", some (.str job.id)),
      ("originalData", some job.data),
      ("originalQueue", some (.str config.name)),
      ("attempts", some (.num job.attemptsMade)),
      ("maxAttempts", job.opts.attempts.toOption.map fun n => .num n),
      ("error", some (.str error.message)),
      ("stack", error.stack.map .str),
      ("timestamp", some (.str timestamp))]

/-- The options of a job in the dead letter queue; its defaults are the same. -/
def dlqJobOptions : JobsOptions where
  removeOnComplete := .value (.remove false)
  removeOnFail := .value false

/-- `JobQueue.initializeDLQ`: a new dead letter queue. -/
def newDlqQueue : Queue where
  jobs := []
  counter := 0
  defaultJobOptions := dlqJobOptions

/-- `JobQueue.moveJobToDLQ`; the two answers are those of the queue and of the notification handler,
`timestamp` is the time of day as a text. -/
def moveJobToDLQ (config : QueueConfig) (dlqAdd notification : Answer Thrown) (now : ℕ)
    (timestamp : String) (job : Job) (error : JsError) : Async Thrown State Unit := do
  match ← Async.read State.dlqQueue with
  | none => pure ()
  | some dlqQueue => do
    let dlqJob ← perform dlqAdd fun s =>
      let added := dlqQueue.add job.name (envelope config job error timestamp) dlqJobOptions now
      (added.1, { s with dlqQueue := some added.2 })
    if config.hasNotificationHandler then
      tryCatch (perform notification fun s => ((), s.record (.notified dlqJob.id)))
        fun _ => pure ()
    else pure ()

section Moving

variable {τ : Type} {f : State → τ}

/-- The call of the notification handler. -/
theorem keeps_notification (hf : ∀ s id, f (s.record (.notified id)) = f s) (config : QueueConfig)
    (notification : Answer Thrown) (dlqJob : Job) :
    (if config.hasNotificationHandler then
        tryCatch (perform notification fun s => ((), s.record (.notified dlqJob.id)))
          fun _ => pure ()
      else pure () : Async Thrown State Unit).Keeps f := by
  split
  · exact (Async.Keeps.perform (fun s => hf s dlqJob.id) _).handle fun _ => .pure ()
  · exact .pure ()

/-- What becomes of the dead letter queue: the envelope is added if the `add` takes effect, and
nothing that comes after it matters. -/
theorem dlqQueue_moveJobToDLQ (config : QueueConfig) (dlqAdd notification : Answer Thrown) (now : ℕ)
    (timestamp : String) (job : Job) (error : JsError) {s : State} {q : Queue}
    (hq : s.dlqQueue = some q) :
    ((moveJobToDLQ config dlqAdd notification now timestamp job error).run s).2.dlqQueue =
      some (if dlqAdd.TakesEffect then
        (q.add job.name (envelope config job error timestamp) dlqJobOptions now).2 else q) := by
  unfold moveJobToDLQ
  rw [Async.run_bind_of_ok (Async.run_read _ s), hq]
  refine (Async.Keeps.run_bind (f := State.dlqQueue) _ (fun dlqJob => ?_) s).trans ?_
  · exact keeps_notification (fun _ _ => rfl) config notification dlqJob
  · cases dlqAdd with
    | answered => rfl
    | rejected e applied =>
      cases applied with
      | true => rfl
      | false => exact hq

/-- Nothing else is involved. -/
theorem keeps_moveJobToDLQ (hdlq : ∀ s dlqQueue, f { s with dlqQueue := dlqQueue } = f s)
    (hnotified : ∀ s id, f (s.record (.notified id)) = f s) (config : QueueConfig)
    (dlqAdd notification : Answer Thrown) (now : ℕ) (timestamp : String) (job : Job)
    (error : JsError) :
    (moveJobToDLQ config dlqAdd notification now timestamp job error).Keeps f := by
  apply Async.Keeps.bind (.read _)
  intro dlqQueue
  cases dlqQueue with
  | none => exact .pure ()
  | some dlqQueue =>
    apply Async.Keeps.bind (.perform (fun s => hdlq s _) _)
    intro dlqJob
    exact keeps_notification hnotified config notification dlqJob

end Moving

/-! ## Replaying jobs -/

/-- `job.remove` for a job of the dead letter queue. -/
def State.removeDlqJob (s : State) (jobId : String) : State :=
  match s.dlqQueue with
  | none => s
  | some dlqQueue =>
    if jobId ∈ dlqQueue.ids then
      { s with dlqQueue := some (dlqQueue.remove jobId) }.record (.removed jobId)
    else s

/-- The waiting jobs of the dead letter queue, up to `limit` of them. With these BullMQ lists the
paused jobs of a queue, too, but nobody pauses this one. -/
def State.dlqJobs (s : State) (limit : ℕ) : List Job :=
  match s.dlqQueue with
  | none => []
  | some dlqQueue => dlqQueue.getJobs .waiting 0 (limit - 1)

section Replay

variable {ε : Type} (config : QueueConfig) (answers : ℕ → Answer ε) (now : ℕ)

/-- The options a replayed job is added with: the defaults, and the id it has. -/
def replayOptions (job : Job) : JobsOptions :=
  { buildDefaultJobOptions config.defaultJobOptions with jobId := .value job.id }

/-- The loop of `replayDLQ`. -/
def replayJobs : List Job → ℕ → Async ε (Remote State) ℕ
  | [], moved => pure moved
  | job :: jobs, moved => do
    let _ ← call answers fun s => s.add job.name job.data (replayOptions config job) now
    call answers fun s => ((), s.removeDlqJob job.id)
    replayJobs jobs (moved + 1)

/-- `JobQueue.replayDLQ` -/
def replayDLQ (limit : ℕ) : Async ε (Remote State) ℕ := do
  match ← Async.read fun r => r.server.dlqQueue with
  | none => pure 0
  | some _ => do
    let jobs ← call answers fun s => (s.dlqJobs limit, s)
    replayJobs config answers now jobs 0

/-! ## What a replay does -/

/-- The state after the `add` for a job. -/
def State.afterAdd (s : State) (job : Job) : State :=
  (s.add job.name job.data (replayOptions config job) now).2

/-- The state after one round of the loop, whose calls have the numbers `k` and `k + 1`. -/
def State.afterRound (s : State) (k : ℕ) (job : Job) : State :=
  match answers k with
  | .answered =>
    if (answers (k + 1)).TakesEffect then (s.afterAdd config now job).removeDlqJob job.id
    else s.afterAdd config now job
  | .rejected _ applied => if applied then s.afterAdd config now job else s

/-- What the `add` and the removal of a round keep the round keeps. -/
theorem State.afterRound_invariant {I : State → Prop} {s : State} {job : Job} (h : I s)
    (hadd : I (s.afterAdd config now job))
    (hremove : I (s.afterAdd config now job) →
      I ((s.afterAdd config now job).removeDlqJob job.id)) {k : ℕ} :
    I (s.afterRound config answers now k job) := by
  unfold State.afterRound
  split
  · split
    · exact hremove hadd
    · exact hadd
  · split
    · exact hadd
    · exact h

/-- A round with both calls answered is followed by the next one, any other ends the loop. -/
theorem run_replayJobs_cons (job : Job) (jobs : List Job) (moved : ℕ) (r : Remote State) :
    ((answers r.calls).IsAnswered ∧ (answers (r.calls + 1)).IsAnswered ∧
      (replayJobs config answers now (job :: jobs) moved).run r =
        (replayJobs config answers now jobs (moved + 1)).run
          ⟨r.server.afterRound config answers now r.calls job, r.calls + 2⟩) ∨
    (¬ ((answers r.calls).IsAnswered ∧ (answers (r.calls + 1)).IsAnswered) ∧
      ∃ e calls, (replayJobs config answers now (job :: jobs) moved).run r =
        (.error e, ⟨r.server.afterRound config answers now r.calls job, calls⟩)) := by
  rw [replayJobs]
  unfold State.afterRound
  cases hadd : answers r.calls with
  | rejected e applied =>
    right
    exact ⟨fun h => h.1, e, _, Async.run_bind_of_error (run_call_of_rejected hadd)⟩
  | answered =>
    rw [Async.run_bind_of_ok (run_call_of_answered hadd)]
    cases hremove : answers (r.calls + 1) with
    | answered =>
      left
      exact ⟨trivial, trivial, Async.run_bind_of_ok (run_call_of_answered hremove)⟩
    | rejected e applied =>
      right
      exact ⟨fun h => h.2, e, _, Async.run_bind_of_error (run_call_of_rejected hremove)⟩

variable {config answers now}

/-- What every round keeps the loop keeps. -/
theorem replayJobs_invariant (config : QueueConfig) (answers : ℕ → Answer ε) (now : ℕ)
    {I : State → Prop} {jobs : List Job}
    (hround : ∀ s k, ∀ job ∈ jobs, I s → I (s.afterRound config answers now k job)) (moved : ℕ)
    {r : Remote State} (h : I r.server) :
    I ((replayJobs config answers now jobs moved).run r).2.server := by
  induction jobs generalizing moved r with
  | nil => exact h
  | cons job jobs ih =>
    have hfirst := hround r.server r.calls job List.mem_cons_self h
    rcases run_replayJobs_cons config answers now job jobs moved r with
      ⟨-, -, hrun⟩ | ⟨-, e, calls, hrun⟩
    · rw [hrun]
      exact ih (fun s k job hjob => hround s k job (List.mem_cons_of_mem _ hjob)) _ hfirst
    · rw [hrun]
      exact hfirst

/-- With a dead letter queue, `replayDLQ` is the listing and the loop. -/
theorem run_replayDLQ (config : QueueConfig) (answers : ℕ → Answer ε) (now : ℕ)
    {r : Remote State} (limit : ℕ) (h : r.server.dlqQueue.isSome) :
    ((answers r.calls).IsAnswered ∧
      (replayDLQ config answers now limit).run r =
        (replayJobs config answers now (r.server.dlqJobs limit) 0).run
          ⟨r.server, r.calls + 1⟩) ∨
    (¬ (answers r.calls).IsAnswered ∧
      ∃ e, (replayDLQ config answers now limit).run r = (.error e, ⟨r.server, r.calls + 1⟩)) := by
  obtain ⟨q, hq⟩ := Option.isSome_iff_exists.mp h
  unfold replayDLQ
  rw [Async.run_bind_of_ok (Async.run_read _ r), hq]
  cases hlist : answers r.calls with
  | answered => exact .inl ⟨trivial, Async.run_bind_of_ok (run_call_of_answered hlist)⟩
  | rejected e applied =>
    refine .inr ⟨id, e, ?_⟩
    refine (Async.run_bind_of_error (run_call_of_rejected hlist)).trans ?_
    rw [ite_self]

end Replay

end KitiumJobQueue.JobQueue
