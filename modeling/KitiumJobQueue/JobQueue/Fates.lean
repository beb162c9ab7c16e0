import KitiumJobQueue.Bull.Progress
import KitiumJobQueue.JobQueue.Overlapping
import KitiumJobQueue.JobQueue.Rounds

/-!
# What becomes of jobs

However the methods of a `JobQueue` and its workers overlap, and whichever calls fail. A job is
active, completed or failed only if a worker has taken it, and completed only by an attempt that
succeeds, failed only by one that does not (`explained_of_run`). And a job that may still be run
stays so until there is a call that may end it: an attempt at it, `removeJob` of its id, or `drain`
(`staysOpen_of_run`). No addition, retry or replay, no `clear` and no attempt at another job takes
it away.
-/

namespace KitiumJobQueue.JobQueue.Overlapping

open Effects JavaScript Bull

/-! ## What is claimed -/

/-- A job in this state waits for a worker. -/
def Waits (st : JobState) : Prop := st = .waiting ∨ st = .delayed ∨ st = .prioritized

/-- The calls that may end a job. -/
def Call.Ends (id : String) : Call → Prop
  | .removeJob jobId _ | .work jobId _ _ => id = jobId
  | .drain => True
  | .addJob _ _ _ _ _ | .retryJob _ _ _ | .replayDLQ _ | .clear | .promote _ => False

section

variable (config : QueueConfig) (q : Queue) (Called : Call → Prop)

/-- How a job has come to its state, unless it was in it at first: a job that does not wait was
worked on, with success if it is completed and without if it failed. -/
def Explained (job : Job) : Prop :=
  job ∈ q.jobs ∨ Waits job.state ∨ ∃ attempt isDelayed, Called (.work job.id attempt isDelayed) ∧
    (job.state = .active ∨ job.state = .completed ∧ attempt.Succeeds config ∨
      job.state = .failed ∧ ¬ attempt.Succeeds config)

/-- Ids are used once, and the states of all jobs are explained. -/
structure Orderly (s : Server) : Prop where
  nodup : s.queue.ids.Nodup
  explained : ∀ job ∈ s.queue.jobs, Explained config q Called job

/-- While others keep the queue orderly, the method does so, too, ends no other jobs than the call
may, and resolves with what meets `Q`. -/
abbrev Fares (rule : CleanRule) (call : Call) {α : Type} (Q : α → Prop) (method : Method α) :
    Prop :=
  Ensures (serve rule) (fun w => Orderly config q Called w.server)
    (fun s s' => s.queue.KeepsOpen s'.queue fun id => call.Ends id) Q method

end

variable {config : QueueConfig} {q : Queue} {Called : Call → Prop} {rule : CleanRule} {call : Call}
  {c : Command} {s : Server} {now : ℕ}

/-! ## Commands -/

/-- The jobs a command may end. -/
def Command.Ends (id : String) : Command → Prop
  | .removeJob jobId | .settle jobId _ _ => id = jobId
  | .drain => True
  | .add _ _ _ | .getJob _ | .moveToWait _ | .clean | .getDlqJobs _ | .addDlq _ _
  | .removeDlqJob _ | .notify _ | .start _ | .promote _ => False

/-- The states a command may bring a job to, other than those in which it waits. -/
def Command.Brings (job : Job) : Command → Prop
  | .start jobId => job.id = jobId ∧ job.state = .active
  | .settle jobId completed _ =>
    job.id = jobId ∧ job.state = if completed then .completed else .failed
  | .add _ _ _ | .getJob _ | .moveToWait _ | .removeJob _ | .clean | .drain | .getDlqJobs _
  | .addDlq _ _ | .removeDlqJob _ | .notify _ | .promote _ => False

theorem waits_initialState (opts : JobsOptions) : Waits (Queue.initialState opts) := by
  unfold Queue.initialState
  split
  · exact .inr (.inl rfl)
  · split
    · exact .inr (.inr rfl)
    · exact .inl rfl

theorem waits_readyState (job : Job) : Waits (Queue.readyState job) := by
  unfold Queue.readyState
  split
  · exact .inr (.inr rfl)
  · exact .inl rfl

theorem queue_respond_clean :
    (respond rule now .clean s).2.queue = s.queue.clean rule 10000 .completed := by
  rw [respond]

theorem keepsOpen_respond (hs : s.queue.ids.Nodup) (c : Command) :
    s.queue.KeepsOpen (respond rule now c s).2.queue fun id => c.Ends id := by
  cases c with
  | add jobName data opts => exact Queue.keepsOpen_add s.queue jobName data opts now
  | getJob | getDlqJobs | addDlq | removeDlqJob | notify => exact .refl s.queue
  | moveToWait jobId => exact Queue.keepsOpen_getD fun _ => Queue.keepsOpen_moveToWait
  | removeJob jobId => exact Queue.keepsOpen_getD fun _ => Queue.keepsOpen_removeUnlocked
  | clean =>
    rw [queue_respond_clean]
    exact Queue.keepsOpen_clean hs rule 10000 rfl
  | drain => exact fun _ _ => .inr trivial
  | start jobId => exact Queue.keepsOpen_getD fun _ => Queue.keepsOpen_start
  | settle jobId completed isDelayed =>
    refine Queue.keepsOpen_getD ?_
    split
    · exact fun _ => Queue.keepsOpen_complete
    · exact fun _ => Queue.keepsOpen_fail
  | promote jobId => exact Queue.keepsOpen_getD fun _ => Queue.keepsOpen_promote

theorem moves_respond (s : Server) (c : Command) :
    s.queue.Moves (respond rule now c s).2.queue fun job => Waits job.state ∨ c.Brings job := by
  have hready {job : Job} (h : ∃ job' : Job, job.state = Queue.readyState job') :
      Waits job.state := by
    obtain ⟨job', hst⟩ := h
    exact hst ▸ waits_readyState job'
  cases c with
  | add jobName data opts =>
    refine (Queue.moves_add s.queue jobName data opts now).mono fun job ⟨opts, hst⟩ => .inl ?_
    exact hst ▸ waits_initialState opts
  | getJob | getDlqJobs | addDlq | removeDlqJob | notify => exact fun _ => .inl
  | moveToWait jobId =>
    exact Queue.moves_getD fun _ h => (Queue.moves_moveToWait h).mono fun _ hst => .inl (hready hst)
  | removeJob jobId => exact Queue.moves_getD fun _ => Queue.moves_removeUnlocked
  | clean =>
    rw [queue_respond_clean]
    exact Queue.moves_clean s.queue rule 10000 .completed
  | drain => exact Queue.moves_filter s.queue _
  | start jobId =>
    exact Queue.moves_getD fun _ h => (Queue.moves_start h).mono fun _ hst => .inr hst
  | settle jobId completed isDelayed =>
    refine Queue.moves_getD fun q' h => ?_
    cases completed with
    | true => exact (Queue.moves_complete h).mono fun _ hst => .inr hst
    | false =>
      refine (Queue.moves_fail h).mono fun job ⟨hid, hst⟩ => ?_
      rcases hst with hst | hst | hst
      · exact .inr ⟨hid, hst⟩
      · exact .inl (.inr (.inl hst))
      · exact .inl (hready hst)
  | promote jobId =>
    exact Queue.moves_getD fun _ h => (Queue.moves_promote h).mono fun _ hst => .inl (hready hst)

theorem nodup_add {p : Queue} (hp : p.ids.Nodup) (name : String) (data : Json) (opts : JobsOptions)
    (now : ℕ) : (p.add name data opts now).2.ids.Nodup := by
  cases hdup : p.duplicate opts with
  | some job =>
    rw [Queue.add_of_duplicate_eq_some hdup]
    exact hp
  | none =>
    rw [Queue.add_eq_put hdup]
    exact Queue.nodup_put hp _

theorem nodup_moveToWait {p p' : Queue} {jobId : String} (hp : p.ids.Nodup)
    (h : p.moveToWait jobId = some p') : p'.ids.Nodup := by
  obtain ⟨job, -, -, -, h⟩ := Queue.step_eq_some h
  obtain rfl := Option.some.inj h
  exact Queue.nodup_put hp _

theorem nodup_afterStep {step : Option Queue} (hs : s.queue.ids.Nodup)
    (h : ∀ p, step = some p → p.ids.Nodup) : (s.afterStep step).queue.ids.Nodup := by
  cases step with
  | none => exact hs
  | some p => exact h p rfl

theorem nodup_respond (hs : s.queue.ids.Nodup) (c : Command) :
    (respond rule now c s).2.queue.ids.Nodup := by
  cases c with
  | add jobName data opts => exact nodup_add hs jobName data opts now
  | getJob | getDlqJobs | addDlq | removeDlqJob | notify => exact hs
  | moveToWait jobId => exact nodup_afterStep hs fun _ => nodup_moveToWait hs
  | removeJob jobId => exact nodup_afterStep hs fun _ h => (Queue.narrows_removeUnlocked hs h).nodup
  | clean =>
    rw [queue_respond_clean]
    exact (Queue.narrows_clean hs rule 10000 .completed).nodup
  | drain => exact (Queue.narrows_drain hs).nodup
  | start jobId => exact nodup_afterStep hs fun _ h => (Queue.narrows_start hs h).nodup
  | settle jobId completed isDelayed =>
    refine nodup_afterStep hs fun p h => ?_
    cases completed with
    | true => exact (Queue.closes_complete hs h).narrows.nodup
    | false => exact (Queue.narrows_fail hs h).nodup
  | promote jobId => exact nodup_afterStep hs fun _ h => (Queue.narrows_promote hs h).nodup

/-- The rule of commands. -/
theorem fares_ask {Q : Reply c → Prop} (hends : ∀ id, c.Ends id → call.Ends id)
    (hbrings : ∀ job, c.Brings job → Explained config q Called job)
    (hQ : ∀ now s, Q (respond rule now c s).1) : Fares config q Called rule call Q (ask c) := by
  refine .perform (fun _ _ => rfl) (fun v _ s hs => ⟨⟨?_, fun job hjob => ?_⟩, .inr ?_⟩)
    fun v _ s _ => hQ v.now s
  · exact nodup_respond hs.nodup c
  · rcases moves_respond s c job hjob with hold | hwaits | hnew
    · exact hs.explained job hold
    · exact .inr (.inl hwaits)
    · exact hbrings job hnew
  · exact Queue.KeepsOpen.mono (keepsOpen_respond hs.nodup c) hends

/-- A command that neither ends a job nor brings one to an end. -/
theorem fares_other (hends : ∀ id, ¬ c.Ends id) (hbrings : ∀ job, ¬ c.Brings job) :
    Fares config q Called rule call (fun _ => True) (ask c) :=
  fares_ask (fun id h => (hends id h).elim) (fun job h => (hbrings job h).elim) fun _ _ => trivial

/-- A job that is looked up has the id it is looked up by. -/
theorem fares_getJob (jobId : String) :
    Fares config q Called rule call (fun job => ∀ j ∈ job, j.id = jobId) (ask (.getJob jobId)) :=
  fares_ask (fun _ h => h.elim) (fun _ h => h.elim) fun _ _ _ hj => Queue.getJob_id hj

theorem fares_settleWith {α : Type} (r : Except Thrown α) :
    Fares config q Called rule call (fun a => r = .ok a) (settleWith r) := by
  cases r with
  | ok a => exact .pure rfl
  | error e => exact .throw e

/-! ## Methods -/

theorem fares_addJob (metric : Answer Thrown) (random : ℚ) (jobName : String) (data : Json)
    (options : Option JobOptions) :
    Fares config q Called rule call (fun _ => True)
      (addJob config metric random jobName data options) :=
  .bind (fares_other (fun _ => id) fun _ => id) fun _ _ =>
    .bind (fares_settleWith _) fun _ _ => .pure trivial

theorem fares_retryJob (stack : String) (missing : Thrown) (jobId : String) :
    Fares config q Called rule call (fun _ => True) (retryJob stack missing jobId) := by
  refine .bind (fares_getJob jobId) fun job _ => ?_
  cases job with
  | none => exact .throw _
  | some job =>
    refine .bind (fares_other (fun _ => id) fun _ => id) fun moved _ => ?_
    split
    · exact .pure trivial
    · exact .throw _

theorem fares_removeJob (locked : Thrown) (jobId : String) :
    Fares config q Called rule (.removeJob jobId locked) (fun _ => True)
      (removeJob locked jobId) := by
  refine .bind (fares_getJob jobId) fun job hjob => ?_
  cases job with
  | none => exact .pure trivial
  | some job =>
    have hid : job.id = jobId := hjob job rfl
    refine .bind (P := fun _ => True) (fares_ask (fun id h => h.trans hid) (fun _ h => h.elim)
      fun _ _ => trivial) fun removed _ => ?_
    split
    · exact .pure trivial
    · exact .throw _

theorem fares_replayJobs (jobs : List Job) (moved : ℕ) :
    Fares config q Called rule call (fun _ => True) (replayJobs config jobs moved) := by
  induction jobs generalizing moved with
  | nil => exact .pure trivial
  | cons job jobs ih =>
    exact .bind (fares_other (fun _ => id) fun _ => id) fun _ _ =>
      .bind (fares_other (fun _ => id) fun _ => id) fun _ _ => ih _

theorem fares_replayDLQ (limit : ℕ) :
    Fares config q Called rule call (fun _ => True) (replayDLQ config limit) := by
  unfold replayDLQ
  split
  · exact .bind (fares_other (fun _ => id) fun _ => id) fun jobs _ => fares_replayJobs jobs 0
  · exact .pure trivial

/-! ## Attempts -/

theorem callAdapter_eq_ok {configured : Bool} {answer : Answer Thrown} :
    callAdapter configured answer = .ok () ↔ (configured → answer.IsAnswered) := by
  cases answer with
  | answered => exact iff_of_true rfl fun _ => trivial
  | rejected e applied =>
    cases configured with
    | true => exact iff_of_false (fun h => by cases h) fun h => h rfl
    | false => exact iff_of_true rfl fun h => absurd h Bool.false_ne_true

/-- What is reported as a success is one. -/
theorem complete_eq_ok {attempt : Attempt} {processor : ProcessorRun} :
    (∃ result, complete config attempt processor = .ok result) ↔ processor.outcome.isOk ∧
      (config.metrics → (attempt.answers .completedIncrement).IsAnswered) ∧
      (config.metrics → (attempt.answers .completedObserve).IsAnswered) ∧
      (config.telemetry → (attempt.answers .completedSpanEnd).IsAnswered) := by
  simp only [← callAdapter_eq_ok, complete]
  cases processor.outcome with
  | error e => exact iff_of_false (fun ⟨_, h⟩ => by cases h) fun h => by cases h.1
  | ok result =>
    cases callAdapter config.metrics (attempt.answers .completedIncrement) with
    | error e => exact iff_of_false (fun ⟨_, h⟩ => by cases h) fun h => by cases h.2.1
    | ok u =>
      cases callAdapter config.metrics (attempt.answers .completedObserve) with
      | error e => exact iff_of_false (fun ⟨_, h⟩ => by cases h) fun h => by cases h.2.2.1
      | ok u =>
        cases callAdapter config.telemetry (attempt.answers .completedSpanEnd) with
        | error e => exact iff_of_false (fun ⟨_, h⟩ => by cases h) fun h => by cases h.2.2.2
        | ok u => exact iff_of_true ⟨result, rfl⟩ ⟨rfl, rfl, rfl, rfl⟩

section

variable {attempt : Attempt}

theorem processJob_of_succeeds (h : attempt.Succeeds config) (job : Job) :
    ∃ result, processJob config attempt job = pure result := by
  obtain ⟨⟨-, hincrement, hspan⟩, ⟨processor, hprocessor, hoks⟩, hreported⟩ := h
  obtain ⟨result, hcomplete⟩ := complete_eq_ok.mpr ⟨hoks, hreported⟩
  refine ⟨result, ?_⟩
  unfold processJob
  rw [hprocessor, callAdapter_eq_ok.mpr hincrement, callAdapter_eq_ok.mpr hspan]
  dsimp only
  rw [hcomplete]
  rfl

theorem fares_moveJobToDLQ (timestamp : String) (job : Job) (error : JsError) :
    Fares config q Called rule call (fun _ => True) (moveJobToDLQ config timestamp job error) := by
  unfold moveJobToDLQ
  split
  · refine .bind (fares_other (fun _ => id) fun _ => id) fun dlqJob _ => ?_
    split
    · exact .handle (fares_other (fun _ => id) fun _ => id) fun _ => .pure trivial
    · exact .pure trivial
  · exact .pure trivial

theorem fares_adapter (r : Except Thrown Unit) :
    Fares config q Called rule call (fun _ => True) (settleWith r) :=
  (fares_settleWith r).mono fun _ _ => trivial

theorem fares_handleJobFailure (job : Job) (error : JsError) :
    Fares config q Called rule call (fun _ => True)
      (handleJobFailure config attempt job error) := by
  refine .bind (P := fun _ => True) ?_ fun _ _ => .bind (fares_adapter _) fun _ _ =>
    .bind (fares_adapter _) fun _ _ => fares_adapter _
  unfold retryOrMove
  dsimp only
  split
  · split
    · exact .bind (fares_moveJobToDLQ _ job error) fun _ _ => fares_adapter _
    · exact fares_adapter _
  · split
    · exact fares_adapter _
    · exact .pure trivial

/-- An attempt that does not succeed rejects. -/
theorem fares_processJob_of_not_succeeds (h : ¬ attempt.Succeeds config) (job : Job) :
    Fares config q Called rule call (fun _ => False) (processJob config attempt job) := by
  unfold processJob
  split
  · exact .throw _
  · next processor hprocessor =>
    refine .bind (fares_settleWith _) fun _ hincrement =>
      .bind (fares_settleWith _) fun _ hspan => ?_
    split
    · next result hresult =>
      obtain ⟨hoks, hreported⟩ := complete_eq_ok.mp ⟨result, hresult⟩
      have henters : attempt.Enters config := by
        refine ⟨?_, callAdapter_eq_ok.mp hincrement, callAdapter_eq_ok.mp hspan⟩
        rw [hprocessor, Option.isSome_some]
      exact absurd ⟨henters, ⟨processor, hprocessor, hoks⟩, hreported⟩ h
    · exact .bind (fares_handleJobFailure job _) fun _ _ => .throw _

variable {jobId : String} {isDelayed : Bool}

/-- A worker tells BullMQ of a success exactly if the attempt succeeds. -/
theorem fares_attempt (job : Job) :
    Fares config q Called rule call (fun completed => completed = true ↔ attempt.Succeeds config)
      (tryCatch
        (do
          let _ ← processJob config attempt job
          pure true)
        fun _ => pure false) := by
  by_cases h : attempt.Succeeds config
  · obtain ⟨result, hresult⟩ := processJob_of_succeeds h job
    rw [hresult]
    exact .pure (iff_of_true rfl h)
  · exact .handle (.bind (fares_processJob_of_not_succeeds h job) fun _ hfalse => hfalse.elim)
      fun _ => .pure (iff_of_false Bool.false_ne_true h)

theorem fares_work (hcalled : Called (.work jobId attempt isDelayed)) :
    Fares config q Called rule (.work jobId attempt isDelayed) (fun _ => True)
      (work config attempt isDelayed jobId) := by
  refine .bind (P := fun job => ∀ j ∈ job, j.id = jobId) (fares_ask (fun _ h => h.elim)
    (fun job hjob => ?_) fun now s j hj => ?_) fun job hjob => ?_
  · obtain ⟨rfl, hactive⟩ := hjob
    exact .inr (.inr ⟨attempt, isDelayed, hcalled, .inl hactive⟩)
  · obtain ⟨p, -, hj⟩ := Option.bind_eq_some_iff.mp hj
    exact Queue.getJob_id hj
  · cases job with
    | none => exact .pure trivial
    | some job =>
      obtain rfl : job.id = jobId := hjob job rfl
      refine .bind (fares_attempt job) fun completed hcompleted =>
        fares_ask (fun _ => id) (fun job' ⟨hid, hst⟩ => ?_) fun _ _ => trivial
      refine .inr (.inr ⟨attempt, isDelayed, hid ▸ hcalled, .inr ?_⟩)
      cases completed with
      | true => exact .inl ⟨hst, hcompleted.mp rfl⟩
      | false => exact .inr ⟨hst, fun h => Bool.false_ne_true (hcompleted.mpr h)⟩

end

/-! ## Calls and runs -/

theorem fares_method (hcalled : Called call) :
    Fares config q Called rule call (fun _ => True) (call.method config) := by
  cases call with
  | addJob jobName data options random metric =>
    exact .bind (fares_addJob metric random jobName data options) fun _ _ => .pure trivial
  | retryJob jobId stack missing =>
    exact .bind (fares_retryJob stack missing jobId) fun _ _ => .pure trivial
  | removeJob jobId locked => exact .bind (fares_removeJob locked jobId) fun _ _ => .pure trivial
  | replayDLQ limit => exact .bind (fares_replayDLQ limit) fun _ _ => .pure trivial
  | clear => exact .bind (fares_other (fun _ => id) fun _ => id) fun _ _ => .pure trivial
  | drain =>
    refine .bind (P := fun _ => True) ?_ fun _ _ => .pure trivial
    exact fares_ask (fun _ => id) (fun _ h => h.elim) fun _ _ => trivial
  | promote jobId => exact .bind (fares_other (fun _ => id) fun _ => id) fun _ _ => .pure trivial
  | work jobId attempt isDelayed => exact .bind (fares_work hcalled) fun _ _ => .pure trivial

section

variable {d : Queue} {es es' : List (PoolEvent Call (Effects.Choice Thrown))} {p p' : World}
  (hq : q.ids.Nodup)
include hq

/-- **No job is done that was not worked on.** However the methods of a `JobQueue` and its workers
overlap, and whichever calls fail: an active job was taken by a worker, a completed one by a worker
whose attempt succeeds, and a failed one by a worker whose attempt does not, unless the job was
there as it is from the first. -/
theorem explained_of_run (h : (system rule config).runFrom ⟨⟨(), ⟨q, d, []⟩⟩, []⟩ es = some p) :
    ∀ job ∈ p.server.queue.jobs, Explained config q (fun call => .spawn call ∈ es) job :=
  (ensures_of_run (P := fun call => .spawn call ∈ es) (fun _ hcalled => fares_method hcalled)
    ⟨hq, fun _ hjob => .inl hjob⟩ (fun _ hcalled => hcalled) h).1.explained

end

/-! ## Two workers at one job -/

/-- A queue with an order to be charged now and one to be charged later. -/
def openOrders : Queue where
  jobs := [{ orderJob with attemptsMade := 0, state := .waiting },
    { orderJob with id := "8", attemptsMade := 0, state := .delayed }]
  counter := 8
  defaultJobOptions := {}

/-- An attempt at an order, which is charged. -/
def charging : Attempt where
  processor := some { outcome := .ok .null }
  answers _ := .answered
  stack := ""
  now := 0
  timestamp := "now"

/-- A worker takes the first order. -/
def takingRun : List (PoolEvent Call (Effects.Choice Thrown)) :=
  [.spawn (.work "7" charging false), .exec 0 {}, .resume 0]

/-- The order is put back and taken by a second worker, which is told nothing; the first completes
it. -/
def puttingBackRun : List (PoolEvent Call (Effects.Choice Thrown)) :=
  [.spawn (.retryJob "7" "" (.value "missing")), .exec 1 {}, .resume 1, .exec 1 {}, .resume 1,
    .spawn (.work "7" charging false),
    .exec 2 { answer := .rejected (.value "closed") true }, .resume 2, .exec 0 {}, .resume 0]

theorem isSome_workingRun :
    ((system .oldest shopConfig).runFrom ⟨⟨(), ⟨openOrders, newDlqQueue, []⟩⟩, []⟩
      (takingRun ++ puttingBackRun)).isSome := by
  decide +kernel

/-- The first order is completed, and was charged. -/
theorem explained_of_workingRun :
    ∃ p, (system .oldest shopConfig).runFrom ⟨⟨(), ⟨openOrders, newDlqQueue, []⟩⟩, []⟩
        (takingRun ++ puttingBackRun) = some p ∧
      ∀ job ∈ p.server.queue.jobs, Explained shopConfig openOrders
        (fun call => .spawn call ∈ takingRun ++ puttingBackRun) job :=
  ⟨_, (Option.some_get isSome_workingRun).symm,
    explained_of_run (by decide) (Option.some_get isSome_workingRun).symm⟩

end KitiumJobQueue.JobQueue.Overlapping
