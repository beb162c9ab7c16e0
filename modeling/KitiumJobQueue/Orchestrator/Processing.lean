import KitiumJobQueue.JobQueue.Processing

/-!
# The processing orchestrator

`JobProcessingOrchestrator.processJob` with the services it calls. `EventCoordinator` catches the
errors of event handlers, `JobMetricsCollector` those of the metrics adapter, and
`JobTelemetryService` goes on without a span when none can be started; an error of the retry
strategy ends the handling of a failure before anything is announced. The span itself is called
bare, inside the `try` and in the handler.

`reports_iff` tells from the calls of the span and of the strategy whether an attempt ends as its
processor did and announces that once.
-/

namespace KitiumJobQueue.Orchestrator

open Effects JavaScript Bull
open JobQueue (ProcessorRun)

/-! ## The services -/

/-- The calls of one attempt that may fail. -/
inductive Site
  /-- A handler of an event, by its place among the handlers. -/
  | handler (event : QueueEvent) (place : ℕ)
  | increment (metric : String)
  | observe (metric : String)
  | startSpan
  | completedSpanEnd
  | recordException
  | failedSpanEnd
  | shouldRetry
  | calculateDelay
  deriving DecidableEq

/-- What the orchestrator does to the world. -/
inductive Effect
  /-- An event is emitted, with the job's id and an error. -/
  | emitted (event : QueueEvent) (jobId : String) (error : Option JsError)
  | incremented (metric jobName : String)
  | observed (metric jobName : String)
  | spanStarted (name jobId jobName attempt : String)
  | exceptionRecorded (error : JsError)
  | spanEnded
  | progressUpdated (percentage : ℚ)
  deriving DecidableEq

/-- What is registered and configured besides the processor. -/
structure Collaborators where
  handlers : QueueEvent → ℕ
  metrics : Bool
  telemetry : Bool

/-- What one attempt meets: the processor registered for the job's name, the fate of the calls, what
the retry strategy decides, and the stack text an error made here would have. -/
structure Attempt where
  processor : Option ProcessorRun
  answers : Site → Answer Thrown
  willRetry : Bool
  stack : String

/-- What has been done so far, the latest first. -/
abbrev Trace := List Effect

/-- Add to the trace. -/
def record (effect : Effect) : Async Thrown Trace Unit := .modify (effect :: ·)

/-- A call, if there is one to make; it may throw. -/
def callIf (made : Bool) (a : Answer Thrown) (effect : Effect) : Async Thrown Trace Unit :=
  if made then perform a fun t => ((), effect :: t) else pure ()

section

variable (collaborators : Collaborators) (attempt : Attempt)

/-- The loop of `EventCoordinator.emit` over the handlers from `place` on. -/
def callHandlers (event : QueueEvent) : (remaining place : ℕ) → Async Thrown Trace Unit
  | 0, _ => pure ()
  | remaining + 1, place => do
    tryCatch (perform (attempt.answers (.handler event place)) fun t => ((), t)) fun _ => pure ()
    callHandlers event remaining (place + 1)

/-- `EventCoordinator.emit` -/
def emit (event : QueueEvent) (job : Job) (error : Option JsError) : Async Thrown Trace Unit := do
  record (.emitted event job.id error)
  callHandlers attempt event (collaborators.handlers event) 0

/-- `this.metrics?.increment` -/
def increment (metric : String) (job : Job) : Async Thrown Trace Unit :=
  callIf collaborators.metrics (attempt.answers (.increment metric)) (.incremented metric job.name)

/-- `this.metrics?.observe` -/
def observe (metric : String) (job : Job) : Async Thrown Trace Unit :=
  callIf collaborators.metrics (attempt.answers (.observe metric)) (.observed metric job.name)

/-- `JobMetricsCollector.recordJobStarted` -/
def recordJobStarted (job : Job) : Async Thrown Trace Unit :=
  tryCatch (increment collaborators attempt "jobqueue.job.started" job) fun _ => pure ()

/-- `JobMetricsCollector.recordJobCompleted` -/
def recordJobCompleted (job : Job) : Async Thrown Trace Unit :=
  tryCatch
    (do
      increment collaborators attempt "jobqueue.job.completed" job
      observe collaborators attempt "jobqueue.job.duration" job)
    fun _ => pure ()

/-- `JobMetricsCollector.recordJobFailed` -/
def recordJobFailed (job : Job) : Async Thrown Trace Unit :=
  tryCatch
    (do
      increment collaborators attempt "jobqueue.job.failed" job
      observe collaborators attempt "jobqueue.job.duration" job)
    fun _ => pure ()

/-- `JobMetricsCollector.recordJobRetry` -/
def recordJobRetry (job : Job) : Async Thrown Trace Unit :=
  tryCatch (increment collaborators attempt "jobqueue.job.retried" job) fun _ => pure ()

/-- `JobTelemetryService.startJobSpan`, and whether the span it returns is one of the adapter. -/
def startJobSpan (job : Job) : Async Thrown Trace Bool :=
  if collaborators.telemetry then
    tryCatch
      (perform (attempt.answers .startSpan) fun t =>
        (true, .spanStarted ("jobqueue.process." ++ job.name) job.id job.name
          (toString job.attemptsMade) :: t))
      fun _ => pure false
  else pure false

/-- `JobRetryCoordinator.handleFailure` -/
def handleFailure : Async Thrown Trace Bool := do
  let shouldRetry ← perform (attempt.answers .shouldRetry) fun t => (attempt.willRetry, t)
  if shouldRetry then do
    perform (attempt.answers .calculateDelay) fun t => ((), t)
    pure true
  else pure false

/-! ## The orchestrator -/

/-- `JobProcessingOrchestrator.onJobStarted` -/
def onJobStarted (job : Job) : Async Thrown Trace Unit := do
  emit collaborators attempt .jobStarted job none
  recordJobStarted collaborators attempt job

/-- The error for a job without a processor. -/
def processorNotFound (jobName stack : String) : JsError where
  message := "No processor registered for job \"" ++ jobName ++ "\""
  stack := some stack

/-- `JobProcessingOrchestrator.getProcessorOrThrow` -/
def getProcessorOrThrow (job : Job) : Async Thrown Trace ProcessorRun :=
  match attempt.processor with
  | some processor => pure processor
  | none => throw (.error (processorNotFound job.name attempt.stack))

/-- The calls of the progress reporter. -/
def reportProgress (job : Job) : List ℚ → Async Thrown Trace Unit
  | [] => pure ()
  | percentage :: percentages => do
    record (.progressUpdated percentage)
    tryCatch (emit collaborators attempt .jobProgress job none) fun _ => pure ()
    reportProgress job percentages

/-- `JobProcessingOrchestrator.executeProcessor` -/
def executeProcessor (job : Job) (processor : ProcessorRun) : Async Thrown Trace Json := do
  reportProgress collaborators attempt job processor.progress
  match processor.outcome with
  | .ok result => pure result
  | .error e => throw e

/-- `JobProcessingOrchestrator.onJobCompleted` -/
def onJobCompleted (job : Job) : Async Thrown Trace Unit := do
  emit collaborators attempt .jobCompleted job none
  recordJobCompleted collaborators attempt job

/-- The two branches of `handleJobFailure`. -/
def announceFailure (job : Job) (error : JsError) (shouldRetry : Bool) :
    Async Thrown Trace Unit :=
  if shouldRetry then do
    emit collaborators attempt .jobRetrying job (some error)
    recordJobRetry collaborators attempt job
  else do
    emit collaborators attempt .jobFailed job (some error)
    recordJobFailed collaborators attempt job

/-- `JobProcessingOrchestrator.handleJobFailure`, which `onJobFailed` calls. -/
def handleJobFailure (job : Job) (error : JsError) : Async Thrown Trace Unit :=
  tryCatch
    (do
      let shouldRetry ← handleFailure attempt
      announceFailure collaborators attempt job error shouldRetry)
    fun _ => pure ()

/-- What `processJob` does inside its `try`. -/
def complete (hasSpan : Bool) (job : Job) : Async Thrown Trace Json := do
  onJobStarted collaborators attempt job
  let processor ← getProcessorOrThrow attempt job
  let result ← executeProcessor collaborators attempt job processor
  onJobCompleted collaborators attempt job
  callIf hasSpan (attempt.answers .completedSpanEnd) .spanEnded
  pure result

/-- What `processJob` does with an error. -/
def recover (hasSpan : Bool) (job : Job) (error : Thrown) : Async Thrown Trace Json := do
  let error_ := error.toError attempt.stack
  callIf hasSpan (attempt.answers .recordException) (.exceptionRecorded error_)
  callIf hasSpan (attempt.answers .failedSpanEnd) .spanEnded
  handleJobFailure collaborators attempt job error_
  throw (.error error_)

/-- `JobProcessingOrchestrator.processJob` -/
def processJob (job : Job) : Async Thrown Trace Json := do
  let hasSpan ← startJobSpan collaborators attempt job
  tryCatch (complete collaborators attempt hasSpan job)
    (recover collaborators attempt hasSpan job)

/-! ## What is to be reported -/

/-- The events that tell how an attempt ended. -/
def verdict : Effect → Option QueueEvent
  | .emitted .jobCompleted _ _ => some .jobCompleted
  | .emitted .jobRetrying _ _ => some .jobRetrying
  | .emitted .jobFailed _ _ => some .jobFailed
  | _ => none

/-- The verdicts given, the latest first. -/
def verdicts (t : Trace) : List QueueEvent := t.filterMap verdict

/-- How the attempt should end: as its processor does, or for want of one. -/
def Attempt.expected (job : Job) : Except JsError Json :=
  match attempt.processor with
  | none => .error (processorNotFound job.name attempt.stack)
  | some processor => processor.outcome.mapError (Thrown.toError attempt.stack)

/-- The attempt ends as expected and announces that, once. -/
def Reports (expected : Except JsError Json) (r : Except Thrown Json × Trace) : Prop :=
  match expected with
  | .ok result => r.1 = .ok result ∧ verdicts r.2 = [.jobCompleted]
  | .error e =>
    r.1 = .error (.error e) ∧ (verdicts r.2 = [.jobRetrying] ∨ verdicts r.2 = [.jobFailed])

/-- There is a span of the telemetry adapter. -/
def Attempt.HasSpan : Prop := collaborators.telemetry ∧ (attempt.answers .startSpan).IsAnswered

/-- No call of the span or of the retry strategy diverts the attempt. -/
def Attempt.Undiverted (job : Job) : Prop :=
  match attempt.expected job with
  | .ok _ => attempt.HasSpan collaborators → (attempt.answers .completedSpanEnd).IsAnswered
  | .error _ =>
    (attempt.HasSpan collaborators → (attempt.answers .recordException).IsAnswered ∧
      (attempt.answers .failedSpanEnd).IsAnswered) ∧
    (attempt.answers .shouldRetry).IsAnswered ∧
    (attempt.willRetry → (attempt.answers .calculateDelay).IsAnswered)

end

/-! ## What the services do to the verdicts -/

section

variable {collaborators : Collaborators} {attempt : Attempt} {job : Job}

/-- `m` resolves and gives no verdict. -/
structure Silent {α : Type} (m : Async Thrown Trace α) : Prop where
  resolves : m.Resolves
  keeps : m.Keeps verdicts

namespace Silent

variable {α β : Type}

theorem pure (a : α) : Silent (Pure.pure a) := ⟨.pure a, .pure a⟩

theorem bind {m : Async Thrown Trace α} {k : α → Async Thrown Trace β} (hm : Silent m)
    (hk : ∀ a, Silent (k a)) : Silent (m >>= k) :=
  ⟨hm.resolves.bind fun a => (hk a).resolves, hm.keeps.bind fun a => (hk a).keeps⟩

/-- What is caught and ignored resolves. -/
theorem handled {m : Async Thrown Trace α} (hm : m.Keeps verdicts) (a : α) :
    Silent (tryCatch m fun _ => Pure.pure a) :=
  ⟨.handled m a, hm.handle fun _ => .pure a⟩

theorem record {effect : Effect} (h : verdict effect = none) :
    Silent (Orchestrator.record effect) :=
  ⟨.modify _, fun _ => List.filterMap_cons_none h⟩

end Silent

theorem keeps_callIf {effect : Effect} (h : verdict effect = none) (made : Bool)
    (a : Answer Thrown) : (callIf made a effect).Keeps verdicts := by
  unfold callIf
  split
  · exact .perform (fun _ => List.filterMap_cons_none h) a
  · exact .pure ()

theorem silent_callHandlers (event : QueueEvent) (remaining place : ℕ) :
    Silent (callHandlers attempt event remaining place) := by
  induction remaining generalizing place with
  | zero => exact .pure ()
  | succ remaining ih =>
    exact (Silent.handled (.perform (fun _ => rfl) _) ()).bind fun _ => ih (place + 1)

/-- The handlers of an event do not matter. -/
theorem resolves_emit (event : QueueEvent) (error : Option JsError) :
    (emit collaborators attempt event job error).Resolves :=
  .bind (.modify _) fun _ => (silent_callHandlers event _ _).resolves

theorem acts_emit (event : QueueEvent) (error : Option JsError) :
    (emit collaborators attempt event job error).Acts verdicts
      ((verdict (.emitted event job.id error)).toList ++ ·) := by
  apply Async.Acts.bind_keeps _ fun _ => (silent_callHandlers event _ _).keeps
  intro t
  cases h : verdict (.emitted event job.id error) with
  | none => exact List.filterMap_cons_none h
  | some event' => exact List.filterMap_cons_some h

theorem silent_emit {event : QueueEvent} {error : Option JsError}
    (h : verdict (.emitted event job.id error) = none) :
    Silent (emit collaborators attempt event job error) := by
  refine ⟨resolves_emit event error, fun t => ?_⟩
  rw [acts_emit event error t, h]
  rfl

theorem silent_onJobStarted : Silent (onJobStarted collaborators attempt job) :=
  (silent_emit rfl).bind fun _ => .handled (keeps_callIf rfl _ _) ()

theorem silent_recordJobCompleted : Silent (recordJobCompleted collaborators attempt job) :=
  .handled (.bind (keeps_callIf rfl _ _) fun _ => keeps_callIf rfl _ _) ()

theorem silent_recordJobFailed : Silent (recordJobFailed collaborators attempt job) :=
  .handled (.bind (keeps_callIf rfl _ _) fun _ => keeps_callIf rfl _ _) ()

theorem silent_recordJobRetry : Silent (recordJobRetry collaborators attempt job) :=
  .handled (keeps_callIf rfl _ _) ()

theorem silent_reportProgress (percentages : List ℚ) :
    Silent (reportProgress collaborators attempt job percentages) := by
  induction percentages with
  | nil => exact .pure ()
  | cons percentage percentages ih =>
    exact (Silent.record rfl).bind fun _ =>
      (Silent.handled (silent_emit rfl).keeps ()).bind fun _ => ih

theorem resolves_callIf {made : Bool} {a : Answer Thrown} (h : made → a.IsAnswered)
    (effect : Effect) : (callIf made a effect).Resolves := by
  unfold callIf
  split
  · next hmade => exact .perform (h hmade) _
  · exact .pure ()

theorem rejects_callIf {made : Bool} {a : Answer Thrown} (h : ¬ (made → a.IsAnswered))
    (effect : Effect) : (callIf made a effect).Rejects := by
  obtain ⟨hmade, ha⟩ := Classical.not_imp.mp h
  rw [callIf, if_pos hmade]
  exact .perform ha _

/-- A span that cannot be started is done without. -/
theorem run_startJobSpan (collaborators : Collaborators) (attempt : Attempt) (job : Job)
    (t : Trace) :
    ∃ hasSpan t', (startJobSpan collaborators attempt job).run t = (.ok hasSpan, t') ∧
      (hasSpan = true ↔ attempt.HasSpan collaborators) ∧ verdicts t' = verdicts t := by
  unfold startJobSpan Attempt.HasSpan
  by_cases htelemetry : collaborators.telemetry
  · rw [if_pos htelemetry]
    generalize attempt.answers .startSpan = a
    cases a with
    | answered =>
      exact ⟨true, _, rfl, iff_of_true rfl ⟨htelemetry, trivial⟩, List.filterMap_cons_none rfl⟩
    | rejected e applied =>
      refine ⟨false, _, rfl, iff_of_false Bool.false_ne_true fun h => h.2, ?_⟩
      split
      · exact List.filterMap_cons_none rfl
      · rfl
  · rw [if_neg htelemetry]
    exact ⟨false, t, rfl, iff_of_false Bool.false_ne_true fun h => htelemetry h.1, rfl⟩

/-- The strategy decides. -/
def Attempt.Decides (attempt : Attempt) : Prop :=
  (attempt.answers .shouldRetry).IsAnswered ∧
    (attempt.willRetry → (attempt.answers .calculateDelay).IsAnswered)

instance : Decidable attempt.Decides := inferInstanceAs (Decidable (_ ∧ _))

theorem keeps_handleFailure : (handleFailure attempt).Keeps verdicts := by
  apply Async.Keeps.bind (.perform (fun _ => rfl) _)
  intro shouldRetry
  split
  · exact .bind (.perform (fun _ => rfl) _) fun _ => .pure true
  · exact .pure false

theorem run_handleFailure (h : attempt.Decides) (t : Trace) :
    (handleFailure attempt).run t = (.ok attempt.willRetry, t) := by
  unfold handleFailure
  rw [h.1.eq, Async.run_bind_of_ok (run_perform_answered _ t)]
  cases hretry : attempt.willRetry with
  | false => rfl
  | true =>
    rw [if_pos rfl, (h.2 hretry).eq]
    rfl

theorem rejects_handleFailure (h : ¬ attempt.Decides) : (handleFailure attempt).Rejects := by
  by_cases hanswered : (attempt.answers .shouldRetry).IsAnswered
  · intro t
    obtain ⟨hretry, hdelay⟩ := Classical.not_imp.mp fun himp => h ⟨hanswered, himp⟩
    unfold handleFailure
    rw [hanswered.eq, Async.run_bind_of_ok (run_perform_answered _ t), if_pos hretry]
    exact Async.Rejects.bind (.perform hdelay _) _ t
  · exact .bind (.perform hanswered _) _

/-- What is announced of a failure. -/
def Attempt.failureVerdict (attempt : Attempt) : QueueEvent :=
  if attempt.willRetry then .jobRetrying else .jobFailed

theorem resolves_announceFailure (error : JsError) (shouldRetry : Bool) :
    (announceFailure collaborators attempt job error shouldRetry).Resolves := by
  unfold announceFailure
  split
  · exact .bind (resolves_emit _ _) fun _ => silent_recordJobRetry.resolves
  · exact .bind (resolves_emit _ _) fun _ => silent_recordJobFailed.resolves

theorem acts_announceFailure (error : JsError) :
    (announceFailure collaborators attempt job error attempt.willRetry).Acts verdicts
      (attempt.failureVerdict :: ·) := by
  unfold announceFailure Attempt.failureVerdict
  split
  · exact .bind_keeps (acts_emit _ _) fun _ => silent_recordJobRetry.keeps
  · exact .bind_keeps (acts_emit _ _) fun _ => silent_recordJobFailed.keeps

/-- A failure is announced if the strategy decides, and passed over otherwise. -/
theorem acts_handleJobFailure (error : JsError) :
    (handleJobFailure collaborators attempt job error).Acts verdicts
      (if attempt.Decides then (attempt.failureVerdict :: ·) else id) := by
  unfold handleJobFailure
  split
  · next hdecides =>
    intro t
    obtain ⟨_, t', hrun⟩ := resolves_announceFailure error attempt.willRetry t
    have hbody := (Async.run_bind_of_ok (run_handleFailure hdecides t)).trans hrun
    rw [Async.run_tryCatch_of_ok hbody]
    exact (acts_announceFailure error).of_run hrun
  · next hdecides =>
    have hrejects := rejects_handleFailure hdecides
    exact Async.Keeps.handle (.bind_of_rejects keeps_handleFailure hrejects _) fun _ => .pure ()

theorem resolves_handleJobFailure (error : JsError) :
    (handleJobFailure collaborators attempt job error).Resolves :=
  .handled _ ()

/-! ## How an attempt ends -/

/-- The calls of the span in the handler are answered. -/
def Attempt.ClosesSpan (attempt : Attempt) (hasSpan : Bool) : Prop :=
  hasSpan → (attempt.answers .recordException).IsAnswered ∧
    (attempt.answers .failedSpanEnd).IsAnswered

theorem rejects_recover (hasSpan : Bool) (e : Thrown) :
    (recover collaborators attempt hasSpan job e).Rejects := by
  apply Async.Rejects.bind_right
  intro
  apply Async.Rejects.bind_right
  intro
  exact .bind_right _ fun _ => .throw _

/-- The handler throws the error again, once the failure is announced. -/
theorem run_recover {hasSpan : Bool} (h : attempt.ClosesSpan hasSpan) (e : Thrown) (t : Trace) :
    ∃ t', (recover collaborators attempt hasSpan job e).run t =
        (.error (.error (e.toError attempt.stack)), t') ∧
      verdicts t' =
        (if attempt.Decides then (attempt.failureVerdict :: ·) else id) (verdicts t) := by
  obtain ⟨_, t₁, hrun₁⟩ := resolves_callIf (fun hspan => (h hspan).1)
    (.exceptionRecorded (e.toError attempt.stack)) t
  obtain ⟨_, t₂, hrun₂⟩ := resolves_callIf (fun hspan => (h hspan).2) .spanEnded t₁
  have hhandle : (handleJobFailure collaborators attempt job
    (e.toError attempt.stack)).Resolves := resolves_handleJobFailure _
  obtain ⟨_, t₃, hrun₃⟩ := hhandle t₂
  refine ⟨t₃, ?_, ?_⟩
  · unfold recover
    rw [Async.run_bind_of_ok hrun₁, Async.run_bind_of_ok hrun₂, Async.run_bind_of_ok hrun₃]
    rfl
  · rw [(acts_handleJobFailure _).of_run hrun₃, (keeps_callIf rfl _ _).of_run hrun₂,
      (keeps_callIf rfl _ _).of_run hrun₁]

/-- A span that fails keeps the failure from being announced. -/
theorem keeps_recover {hasSpan : Bool} (h : ¬ attempt.ClosesSpan hasSpan) (e : Thrown) :
    (recover collaborators attempt hasSpan job e).Keeps verdicts := by
  by_cases hrecord : hasSpan → (attempt.answers .recordException).IsAnswered
  · have hend : ¬ (hasSpan → (attempt.answers .failedSpanEnd).IsAnswered) :=
      fun hend => h fun hspan => ⟨hrecord hspan, hend hspan⟩
    exact .bind (keeps_callIf rfl _ _) fun _ =>
      .bind_of_rejects (keeps_callIf rfl _ _) (rejects_callIf hend _) _
  · exact .bind_of_rejects (keeps_callIf rfl _ _) (rejects_callIf hrecord _) _

theorem expected_eq_ok {result : Json} :
    attempt.expected job = .ok result ↔
      ∃ processor, attempt.processor = some processor ∧ processor.outcome = .ok result := by
  unfold Attempt.expected
  cases attempt.processor with
  | none => simp
  | some processor => cases houtcome : processor.outcome <;> simp [Except.mapError, houtcome]

theorem expected_eq_error {e : JsError} :
    attempt.expected job = .error e ↔
      (attempt.processor = none ∧ processorNotFound job.name attempt.stack = e) ∨
        ∃ processor e', attempt.processor = some processor ∧ processor.outcome = .error e' ∧
          e'.toError attempt.stack = e := by
  unfold Attempt.expected
  cases attempt.processor with
  | none => simp
  | some processor => cases houtcome : processor.outcome <;> simp [Except.mapError, houtcome]

theorem run_getProcessorOrThrow {processor : ProcessorRun} (h : attempt.processor = some processor)
    (t : Trace) : (getProcessorOrThrow attempt job).run t = (.ok processor, t) := by
  unfold getProcessorOrThrow
  rw [h]
  rfl

/-- A processor ends as it does. -/
theorem run_executeProcessor (collaborators : Collaborators) (attempt : Attempt) (job : Job)
    (processor : ProcessorRun) (t : Trace) :
    ∃ t', (executeProcessor collaborators attempt job processor).run t = (processor.outcome, t') ∧
      verdicts t' = verdicts t := by
  have hreports : Silent (reportProgress collaborators attempt job processor.progress) :=
    silent_reportProgress _
  obtain ⟨_, t', hrun⟩ := hreports.resolves t
  refine ⟨t', ?_, hreports.keeps.of_run hrun⟩
  unfold executeProcessor
  rw [Async.run_bind_of_ok hrun]
  cases processor.outcome with
  | ok result => rfl
  | error e => rfl

/-- An attempt that should fail leaves the `try` with the error. -/
theorem run_complete_of_error {e : JsError} (h : attempt.expected job = .error e) (hasSpan : Bool)
    (t : Trace) :
    ∃ e' t', (complete collaborators attempt hasSpan job).run t = (.error e', t') ∧
      e'.toError attempt.stack = e ∧ verdicts t' = verdicts t := by
  have hstarted : Silent (onJobStarted collaborators attempt job) := silent_onJobStarted
  obtain ⟨_, t₁, hrun₁⟩ := hstarted.resolves t
  have hkept₁ := hstarted.keeps.of_run hrun₁
  unfold complete
  rw [Async.run_bind_of_ok hrun₁]
  rcases expected_eq_error.mp h with ⟨hp, rfl⟩ | ⟨processor, e', hp, houtcome, rfl⟩
  · unfold getProcessorOrThrow
    rw [hp]
    exact ⟨_, t₁, rfl, rfl, hkept₁⟩
  · obtain ⟨t₂, hrun₂, hkept₂⟩ := run_executeProcessor collaborators attempt job
      processor t₁
    rw [houtcome] at hrun₂
    rw [Async.run_bind_of_ok (run_getProcessorOrThrow hp t₁), Async.run_bind_of_error hrun₂]
    exact ⟨e', t₂, rfl, rfl, hkept₂.trans hkept₁⟩

/-- An attempt that should succeed announces this and gets to the end of the span. -/
theorem run_complete_of_ok (collaborators : Collaborators) {result : Json}
    (h : attempt.expected job = .ok result) (hasSpan : Bool) (t : Trace) :
    ∃ t', verdicts t' = .jobCompleted :: verdicts t ∧
      (complete collaborators attempt hasSpan job).run t =
        (do
          callIf hasSpan (attempt.answers .completedSpanEnd) .spanEnded
          pure result : Async Thrown Trace Json).run t' := by
  have hstarted : Silent (onJobStarted collaborators attempt job) := silent_onJobStarted
  obtain ⟨_, t₁, hrun₁⟩ := hstarted.resolves t
  have hkept₁ := hstarted.keeps.of_run hrun₁
  obtain ⟨processor, hp, houtcome⟩ := expected_eq_ok.mp h
  obtain ⟨t₂, hrun₂, hkept₂⟩ := run_executeProcessor collaborators attempt job
    processor t₁
  rw [houtcome] at hrun₂
  have hemit : (emit collaborators attempt .jobCompleted job none).Resolves := resolves_emit _ _
  obtain ⟨_, t₃, hrun₃⟩ := hemit t₂
  have hrecorded : Silent (recordJobCompleted collaborators attempt job) :=
    silent_recordJobCompleted
  obtain ⟨_, t₄, hrun₄⟩ := hrecorded.resolves t₃
  have hcompleted : (onJobCompleted collaborators attempt job).run t₂ = (.ok (), t₄) :=
    (Async.run_bind_of_ok hrun₃).trans hrun₄
  refine ⟨t₄, ?_, ?_⟩
  · rw [hrecorded.keeps.of_run hrun₄, (acts_emit _ _).of_run hrun₃, hkept₂, hkept₁]
    rfl
  · unfold complete
    rw [Async.run_bind_of_ok hrun₁, Async.run_bind_of_ok (run_getProcessorOrThrow hp t₁),
      Async.run_bind_of_ok hrun₂, Async.run_bind_of_ok hcompleted]

/-! ## The main result -/

section

variable {hasSpan : Bool} {t : Trace} (ht : verdicts t = [])
include ht

/-- A success is reported exactly if the span can be ended. -/
theorem reports_ok_iff {result : Json} (h : attempt.expected job = .ok result) :
    Reports (.ok result) ((tryCatch (complete collaborators attempt hasSpan job)
        (recover collaborators attempt hasSpan job) : Async Thrown Trace Json).run t) ↔
      (hasSpan → (attempt.answers .completedSpanEnd).IsAnswered) := by
  obtain ⟨t₁, hverdicts, hrun⟩ := run_complete_of_ok collaborators h hasSpan t
  by_cases hend : hasSpan → (attempt.answers .completedSpanEnd).IsAnswered
  · obtain ⟨_, t₂, hrun₂⟩ := resolves_callIf hend .spanEnded t₁
    rw [Async.run_bind_of_ok hrun₂] at hrun
    rw [Async.run_tryCatch_of_ok hrun]
    refine iff_of_true ⟨rfl, ?_⟩ hend
    rw [(keeps_callIf rfl _ _).of_run hrun₂, hverdicts, ht]
  · -- the attempt is taken for a failure
    obtain ⟨e, t₂, hrun₂⟩ := rejects_callIf hend .spanEnded t₁
    rw [Async.run_bind_of_error hrun₂] at hrun
    rw [Async.run_tryCatch_of_error hrun]
    obtain ⟨e', t₃, hrun₃⟩ := rejects_recover hasSpan e t₂
    rw [hrun₃]
    exact iff_of_false (fun hreports => nomatch hreports.1) hend

/-- A failure is reported exactly if the span can be closed and the strategy decides. -/
theorem reports_error_iff {e : JsError} (h : attempt.expected job = .error e) :
    Reports (.error e) ((tryCatch (complete collaborators attempt hasSpan job)
        (recover collaborators attempt hasSpan job) : Async Thrown Trace Json).run t) ↔
      attempt.ClosesSpan hasSpan ∧ attempt.Decides := by
  obtain ⟨e', t₁, hrun, rfl, hkept⟩ := run_complete_of_error h hasSpan t
  rw [Async.run_tryCatch_of_error hrun]
  by_cases hcloses : attempt.ClosesSpan hasSpan
  · obtain ⟨t₂, hrun₂, hverdicts⟩ := run_recover hcloses e' t₁
    rw [hrun₂]
    rw [hkept, ht] at hverdicts
    by_cases hdecides : attempt.Decides
    · rw [if_pos hdecides] at hverdicts
      refine iff_of_true ⟨rfl, ?_⟩ ⟨hcloses, hdecides⟩
      unfold Attempt.failureVerdict at hverdicts
      cases hretry : attempt.willRetry with
      | true =>
        rw [hretry] at hverdicts
        exact .inl hverdicts
      | false =>
        rw [hretry] at hverdicts
        exact .inr hverdicts
    · rw [if_neg hdecides] at hverdicts
      refine iff_of_false (fun hreports => ?_) fun h => hdecides h.2
      rcases hreports.2 with hverdict | hverdict
      · exact nomatch hverdicts.symm.trans hverdict
      · exact nomatch hverdicts.symm.trans hverdict
  · have hverdicts : verdicts ((recover collaborators attempt hasSpan job e').run t₁).2 =
        verdicts t₁ := keeps_recover hcloses e' t₁
    rw [hkept, ht] at hverdicts
    refine iff_of_false (fun hreports => ?_) fun h => hcloses h.1
    rcases hreports.2 with hverdict | hverdict
    · exact nomatch hverdicts.symm.trans hverdict
    · exact nomatch hverdicts.symm.trans hverdict

end

/-- **An attempt ends as its processor does and announces that exactly if no call of the span or of
the retry strategy diverts it.** -/
theorem reports_iff (collaborators : Collaborators) (attempt : Attempt) (job : Job) :
    Reports (attempt.expected job) ((processJob collaborators attempt job).run []) ↔
      attempt.Undiverted collaborators job := by
  obtain ⟨hasSpan, t, hrun, hspan, hverdicts⟩ := run_startJobSpan collaborators attempt job []
  have hprocess : (processJob collaborators attempt job).run [] =
      (tryCatch (complete collaborators attempt hasSpan job)
        (recover collaborators attempt hasSpan job) : Async Thrown Trace Json).run t :=
    Async.run_bind_of_ok hrun
  rw [hprocess]
  unfold Attempt.Undiverted
  rw [← hspan]
  cases hexpected : attempt.expected job with
  | ok result => exact reports_ok_iff hverdicts hexpected
  | error e => exact reports_error_iff hverdicts hexpected

end

/-! ## A diverted attempt -/

/-- A telemetry adapter is all there is. -/
def telemetryOnly : Collaborators where
  handlers _ := 0
  metrics := false
  telemetry := true

/-- The processor resolves, and its span cannot be ended. -/
def attemptFailingAt (site : Site) : Attempt where
  processor := some { outcome := .ok .null }
  answers s := if s = site then .rejected (.value "span closed") false else .answered
  willRetry := true
  stack := ""

/-- A job of two attempts. -/
def sampleJob : Job where
  id := "1"
  name := "send"
  data := .null
  opts := { attempts := .value 2 }
  attemptsMade := 0
  timestamp := 0
  state := .active

/-- **A span that cannot be ended makes a failure of a success.** The completion has been announced
when the attempt rejects, and a retry is announced after it. -/
theorem not_reports_completedSpanEnd :
    ¬ ∀ (collaborators : Collaborators) (attempt : Attempt) (job : Job),
      Reports (attempt.expected job) ((processJob collaborators attempt job).run []) := by
  intro hclaim
  have hreports := hclaim telemetryOnly (attemptFailingAt .completedSpanEnd) sampleJob
  have hverdicts : verdicts ((processJob telemetryOnly (attemptFailingAt .completedSpanEnd)
    sampleJob).run []).2 = [.jobRetrying, .jobCompleted] := by decide
  exact absurd (hverdicts.symm.trans hreports.2) (by decide)

end KitiumJobQueue.Orchestrator
