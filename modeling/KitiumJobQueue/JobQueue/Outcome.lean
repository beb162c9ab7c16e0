import KitiumJobQueue.JobQueue.Retries

/-!
# The outcome of an attempt

The processor decides how an attempt ends, and `processJob` should pass that on: resolve or reject
with what the processor did, announce a completion only where there is one, and end the span it
started. The calls around the processor are not guarded. One that throws while the success is
being reported sends the attempt to `handleJobFailure` although the job is done; one that throws
there replaces the error of the processor and may leave the span open.

`truthful_iff` lists the calls that must not do so. Which calls are made after a failure is read off
the configuration (`movingSites`, `failureSites`).
-/

namespace KitiumJobQueue.JobQueue

open Effects JavaScript Bull

/-! ## What is passed on -/

/-- The events that tell how an attempt ended. -/
def verdict : Effect → Option QueueEvent
  | .emitted .jobCompleted _ _ => some .jobCompleted
  | .emitted .jobFailed _ _ => some .jobFailed
  | .emitted .jobRetrying _ _ => some .jobRetrying
  | .emitted .jobDlq _ _ => some .jobDlq
  | _ => none

/-- A span is started. -/
def isSpanStart : Effect → Bool
  | .spanStarted _ _ _ => true
  | _ => false

/-- A span is ended. -/
def isSpanEnd : Effect → Bool
  | .spanEnded => true
  | _ => false

/-- The verdicts given, the latest first. -/
def State.verdicts (s : State) : List QueueEvent := s.trace.filterMap verdict

/-- The number of spans started. -/
def State.spansStarted (s : State) : ℕ := s.trace.countP isSpanStart

/-- The number of spans ended. -/
def State.spansEnded (s : State) : ℕ := s.trace.countP isSpanEnd

/-- The attempt passes on what the processor did, and every span it started is ended, once. -/
def Truthful (outcome : Except Thrown Json) (r : Except Thrown Json × State) : Prop :=
  match outcome with
  | .ok result =>
    r.1 = .ok result ∧ r.2.verdicts = [.jobCompleted] ∧ r.2.spansEnded = r.2.spansStarted
  | .error (.error e) =>
    r.1 = .error (.error e) ∧ .jobCompleted ∉ r.2.verdicts ∧ r.2.spansEnded = r.2.spansStarted
  | .error (.value _) => True

/-! ## The calls that are made -/

section

variable (config : QueueConfig) (attempt : Attempt) (job : Job)

/-- The calls before the processor. -/
def startSites : List Site :=
  (if config.metrics then [.startedIncrement] else []) ++
    (if config.telemetry then [.startSpan] else [])

/-- The calls of a failure that move the job or announce another attempt. -/
def movingSites (hasDlqQueue : Bool) : List Site :=
  if config.isDlqEnabled ∧ job.attemptsMade ≥ job.opts.attempts.getD 3 then
    (if hasDlqQueue then [.dlqAdd] else []) ++ (if config.metrics then [.dlqIncrement] else [])
  else if config.metrics ∧ job.attemptsMade < job.opts.attempts.getD 3 then [.retryingIncrement]
  else []

/-- The calls of a failure. -/
def failureSites (hasDlqQueue : Bool) : List Site :=
  movingSites config job hasDlqQueue ++
    ((if config.telemetry then [.recordException] else []) ++
      ((if config.telemetry then [.failedSpanEnd] else []) ++
        (if config.metrics then [.failedObserve] else [])))

/-- A span comes to be, as far as the telemetry adapter is concerned. -/
def Attempt.StartsSpan : Prop :=
  config.telemetry ∧ (config.metrics → (attempt.answers .startedIncrement).IsAnswered) ∧
    (attempt.answers .startSpan).TakesEffect

/-- The span is there, and the calls of a failure get as far as ending it. -/
def Attempt.EndsSpan (hasDlqQueue : Bool) : Prop :=
  (attempt.answers .startSpan).IsAnswered ∧
    (∀ site ∈ movingSites config job hasDlqQueue, (attempt.answers site).IsAnswered) ∧
    (attempt.answers .recordException).IsAnswered ∧ (attempt.answers .failedSpanEnd).TakesEffect

instance : Decidable (attempt.StartsSpan config) := inferInstanceAs (Decidable (_ ∧ _ ∧ _))

instance (hasDlqQueue : Bool) : Decidable (attempt.EndsSpan config job hasDlqQueue) :=
  inferInstanceAs (Decidable (_ ∧ _ ∧ _ ∧ _))

/-- No call diverts an attempt whose processor rejects with `e`: the first one to throw throws `e`
again, and the span is ended if there is one. -/
structure Attempt.PassesOn (hasDlqQueue : Bool) (e : JsError) : Prop where
  error : ∀ e' ∈ Answer.firstError attempt.answers
    (startSites config ++ failureSites config job hasDlqQueue), e' = .error e
  span : attempt.StartsSpan config → attempt.EndsSpan config job hasDlqQueue

/-- No call diverts the attempt. -/
def Attempt.Undiverted (hasDlqQueue : Bool) (outcome : Except Thrown Json) : Prop :=
  match outcome with
  | .ok _ => attempt.Succeeds config
  | .error (.error e) => attempt.PassesOn config job hasDlqQueue e
  | .error (.value _) => True

end

/-! ## Successes -/

section

variable {config : QueueConfig} {attempt : Attempt} {job : Job}

/-- An attempt that does not succeed rejects. -/
theorem rejects_processJob (job : Job) (h : ¬ attempt.Succeeds config) :
    (processJob config attempt job).Rejects := by
  by_cases henters : attempt.Enters config
  · obtain ⟨processor, hp⟩ := Option.isSome_iff_exists.mp henters.1
    have hcomplete := rejects_complete job hp henters h
    unfold processJob
    rw [hp]
    apply Async.Rejects.bind_right
    intro
    apply Async.Rejects.bind_right
    intro
    apply Async.Rejects.bind_right
    intro
    exact hcomplete.handle fun e => .bind_right _ fun _ => .throw _
  · exact (processJob_of_not_enters job henters).1

/-- What `complete` resolves with is the result of the processor. -/
theorem outcome_of_complete {processor : ProcessorRun} {s s' : State} {result : Json}
    (h : (complete config attempt processor job).run s = (.ok result, s')) :
    processor.outcome = .ok result := by
  obtain ⟨a, s₁, hrun, h⟩ := Async.run_bind_eq_ok.mp h
  obtain ⟨_, s₂, -, h⟩ := Async.run_bind_eq_ok.mp h
  obtain ⟨_, s₃, -, h⟩ := Async.run_bind_eq_ok.mp h
  obtain ⟨_, s₄, -, h⟩ := Async.run_bind_eq_ok.mp h
  obtain ⟨_, s₅, -, h⟩ := Async.run_bind_eq_ok.mp h
  obtain rfl : a = result := Except.ok.inj (Prod.mk.inj h).1
  obtain ⟨_, s₆, -, hrun⟩ := Async.run_bind_eq_ok.mp hrun
  cases houtcome : processor.outcome with
  | ok a' =>
    rw [houtcome] at hrun
    exact congrArg Except.ok (Except.ok.inj (Prod.mk.inj hrun).1)
  | error e =>
    rw [houtcome] at hrun
    cases hrun

/-- What an attempt resolves with is the result of its processor. -/
theorem outcome_of_processJob {processor : ProcessorRun} (hp : attempt.processor = some processor)
    {s s' : State} {result : Json}
    (h : (processJob config attempt job).run s = (.ok result, s')) :
    processor.outcome = .ok result := by
  unfold processJob at h
  rw [hp] at h
  obtain ⟨_, s₁, -, h⟩ := Async.run_bind_eq_ok.mp h
  obtain ⟨_, s₂, -, h⟩ := Async.run_bind_eq_ok.mp h
  obtain ⟨_, s₃, -, h⟩ := Async.run_bind_eq_ok.mp h
  cases hrun : (complete config attempt processor job).run s₃ with
  | mk r s₄ =>
    cases r with
    | ok result' =>
      rw [Async.run_tryCatch_of_ok hrun] at h
      rw [outcome_of_complete hrun, Except.ok.inj (Prod.mk.inj h).1]
    | error e =>
      rw [Async.run_tryCatch_of_error hrun] at h
      obtain ⟨_, s₅, -, h⟩ := Async.run_bind_eq_ok.mp h
      cases h

/-! ## What an attempt tells -/

/-- The verdicts given, and the numbers of spans started and ended. -/
def State.told (s : State) : List QueueEvent × ℕ × ℕ :=
  (s.verdicts, s.spansStarted, s.spansEnded)

/-- What an effect adds to what is told. -/
def tell (effect : Effect) (told : List QueueEvent × ℕ × ℕ) : List QueueEvent × ℕ × ℕ :=
  ((verdict effect).toList ++ told.1, told.2.1 + (isSpanStart effect).toNat,
    told.2.2 + (isSpanEnd effect).toNat)

theorem told_record (effect : Effect) (s : State) :
    (s.record effect).told = tell effect s.told := by
  have hverdicts : (s.record effect).verdicts = (verdict effect).toList ++ s.verdicts := by
    unfold State.verdicts State.record
    cases h : verdict effect with
    | none => rw [List.filterMap_cons_none h, Option.toList_none, List.nil_append]
    | some event => rw [List.filterMap_cons_some h, Option.toList_some, List.singleton_append]
  have hcount (p : Effect → Bool) :
      (s.record effect).trace.countP p = s.trace.countP p + (p effect).toNat := by
    unfold State.record
    cases h : p effect with
    | false => exact List.countP_cons_of_neg (by simp [h])
    | true => exact List.countP_cons_of_pos h
  rw [tell, State.told, hverdicts]
  exact congrArg (Prod.mk _) (Prod.ext (hcount _) (hcount _))

/-- An effect that tells nothing. -/
def Effect.IsQuiet (effect : Effect) : Prop :=
  verdict effect = none ∧ isSpanStart effect = false ∧ isSpanEnd effect = false

theorem told_record_of_isQuiet {effect : Effect} (h : effect.IsQuiet) (s : State) :
    (s.record effect).told = s.told := by
  rw [told_record, tell, h.1, h.2.1, h.2.2]
  rfl

theorem keeps_told_emit {event : QueueEvent} {jobId : Option String} {error : Option JsError}
    (h : (Effect.emitted event jobId error).IsQuiet) :
    (emit event jobId error).Keeps State.told :=
  told_record_of_isQuiet h

theorem keeps_told_adapter {effect : Effect} (h : effect.IsQuiet) (configured : Bool)
    (a : Answer Thrown) : (callAdapter configured a effect).Keeps State.told :=
  keeps_callAdapter (told_record_of_isQuiet h) configured a

theorem keeps_told_runProcessor (processor : ProcessorRun) :
    (runProcessor processor job).Keeps State.told :=
  keeps_runProcessor job (fun _ => told_record_of_isQuiet ⟨rfl, rfl, rfl⟩)
    (told_record_of_isQuiet ⟨rfl, rfl, rfl⟩) processor

/-- A span more is started. -/
def startMore (told : List QueueEvent × ℕ × ℕ) : List QueueEvent × ℕ × ℕ :=
  (told.1, told.2.1 + 1, told.2.2)

/-- A span more is ended. -/
def endMore (told : List QueueEvent × ℕ × ℕ) : List QueueEvent × ℕ × ℕ :=
  (told.1, told.2.1, told.2.2 + 1)

theorem acts_startSpan (a : Answer Thrown) (name jobName : String) :
    (startSpan config a name jobName).Acts State.told
      (if config.telemetry ∧ a.TakesEffect then startMore else id) :=
  acts_callAdapter (told_record _) _ _

theorem acts_endSpan (a : Answer Thrown) :
    (endSpan config a).Acts State.told
      (if config.telemetry ∧ a.TakesEffect then endMore else id) :=
  acts_callAdapter (told_record _) _ _

/-- The success of the processor is announced. -/
def completeMore (told : List QueueEvent × ℕ × ℕ) : List QueueEvent × ℕ × ℕ :=
  (.jobCompleted :: told.1, told.2)

theorem acts_emit_jobCompleted (jobId : Option String) :
    (emit .jobCompleted jobId none).Acts State.told completeMore :=
  told_record _

theorem acts_complete {processor : ProcessorRun} {result : Json}
    (hok : processor.outcome = .ok result) (h : attempt.Succeeds config) :
    (complete config attempt processor job).Acts State.told
      ((if config.telemetry ∧ (attempt.answers .completedSpanEnd).TakesEffect then endMore
          else id) ∘
        completeMore) := by
  obtain ⟨-, -, hincrement, hobserve, hend⟩ := h
  have hrun : (runProcessor processor job).Resolves := by
    apply Async.Resolves.bind (resolves_reportProgress _)
    intro
    rw [hok]
    exact .pure result
  apply Async.Keeps.bind_acts (keeps_told_runProcessor processor) hrun
  intro
  apply Async.Acts.bind (acts_emit_jobCompleted _) (resolves_emit _ _ _)
  intro
  apply Async.Keeps.bind_acts (keeps_told_adapter ⟨rfl, rfl, rfl⟩ _ _)
    (resolves_callAdapter hincrement _)
  intro
  apply Async.Keeps.bind_acts (keeps_told_adapter ⟨rfl, rfl, rfl⟩ _ _)
    (resolves_callAdapter hobserve _)
  intro
  exact (acts_endSpan _).bind_keeps fun _ => .pure _

/-- What a successful attempt tells. -/
theorem told_processJob_of_succeeds (h : attempt.Succeeds config) (s : State) :
    ((processJob config attempt job).run { s with trace := [] }).2.told =
      ([.jobCompleted], if config.telemetry then 1 else 0, if config.telemetry then 1 else 0) := by
  have hsucceeds := h
  obtain ⟨⟨-, hstarted, hspan⟩, ⟨processor, hp, hok⟩, -, -, hend⟩ := h
  cases houtcome : processor.outcome with
  | error e =>
    rw [houtcome] at hok
    exact nomatch hok
  | ok result =>
    have hacts : (processJob config attempt job).Acts State.told
        (((if config.telemetry ∧ (attempt.answers .completedSpanEnd).TakesEffect then endMore
            else id) ∘ completeMore) ∘
          if config.telemetry ∧ (attempt.answers .startSpan).TakesEffect then startMore
          else id) := by
      unfold processJob
      rw [hp]
      apply Async.Keeps.bind_acts (keeps_told_emit ⟨rfl, rfl, rfl⟩) (resolves_emit _ _ _)
      intro
      apply Async.Keeps.bind_acts (keeps_told_adapter ⟨rfl, rfl, rfl⟩ _ _)
        (resolves_callAdapter hstarted _)
      intro
      apply Async.Acts.bind (acts_startSpan _ _ _) (resolves_callAdapter hspan _)
      intro
      exact (acts_complete houtcome hsucceeds).handle_of_resolves
        (resolves_complete job hp hsucceeds) _
    rw [hacts]
    cases htelemetry : config.telemetry with
    | false => rfl
    | true =>
      rw [(hspan htelemetry).eq, (hend htelemetry).eq]
      rfl

/-! ## Failures -/

theorem rejection_moveJobToDLQ (dlqAdd notification : Answer Thrown) (now : ℕ) (timestamp : String)
    (error : JsError) (s : State) :
    (moveJobToDLQ config dlqAdd notification now timestamp job error).rejection s =
      if s.dlqQueue.isSome then dlqAdd.error? else none := by
  unfold moveJobToDLQ
  refine (Async.rejection_bind fun dlqQueue s' hread => ?_).trans (Option.none_or)
  obtain ⟨hdlq, rfl⟩ := Prod.mk.inj hread
  obtain rfl := Except.ok.inj hdlq
  cases s.dlqQueue with
  | none => rfl
  | some dlqQueue =>
    rw [Option.isSome_some, if_pos rfl]
    refine (Async.rejection_bind_of_none fun dlqJob s' _ => ?_).trans
      (Async.rejection_perform dlqAdd _ _)
    -- an error of the notification handler is logged
    split
    · cases notification <;> rfl
    · rfl

theorem rejection_retryOrMove (error : JsError) (s : State) :
    (retryOrMove config attempt job error).rejection s =
      Answer.firstError attempt.answers (movingSites config job s.dlqQueue.isSome) := by
  have hretrying (s : State) : (announceRetrying config attempt job).rejection s =
      if config.metrics then (attempt.answers .retryingIncrement).error? else none :=
    (Async.rejection_bind fun _ s' _ => rejection_callAdapter _ _ _ s').trans Option.none_or
  have hfailed (s : State) : (do
      emit .jobFailed (some job.id) (some error)
      announceRetrying config attempt job).rejection s =
      if config.metrics then (attempt.answers .retryingIncrement).error? else none :=
    (Async.rejection_bind fun _ s' _ => hretrying s').trans Option.none_or
  unfold retryOrMove movingSites
  dsimp only
  by_cases hleft : job.attemptsMade < job.opts.attempts.getD 3
  · -- attempts are left: with or without a dead letter queue another one is announced
    simp only [ge_iff_le, Nat.not_le.mpr hleft, hleft, if_false, if_true, and_false, and_true,
      ite_self, hfailed]
    cases config.metrics with
    | false => rfl
    | true => exact (Answer.firstError_singleton _ _).symm
  · simp only [ge_iff_le, Nat.not_lt.mp hleft, hleft, if_false, if_true, and_false, and_true]
    cases config.isDlqEnabled with
    | false => rfl
    | true =>
      rw [if_pos rfl, if_pos rfl, Answer.firstError_append, Answer.firstError_ite,
        Answer.firstError_ite, ← rejection_moveJobToDLQ]
      refine Async.rejection_bind fun _ s' _ => ?_
      exact (Async.rejection_bind fun _ s'' _ => rejection_callAdapter _ _ _ s'').trans
        Option.none_or

/-- A failure is reported up to the first call that throws. -/
theorem rejection_handleJobFailure (error : JsError) (s : State) :
    (handleJobFailure config attempt job error).rejection s =
      Answer.firstError attempt.answers (failureSites config job s.dlqQueue.isSome) := by
  simp only [failureSites, Answer.firstError_append, Answer.firstError_ite,
    ← rejection_retryOrMove error s]
  refine Async.rejection_bind fun _ s₁ _ => ?_
  rw [← rejection_callAdapter config.telemetry (attempt.answers .recordException)
    (.exceptionRecorded error) s₁]
  refine Async.rejection_bind fun _ s₂ _ => ?_
  rw [← rejection_callAdapter config.telemetry (attempt.answers .failedSpanEnd) .spanEnded s₂]
  exact Async.rejection_bind fun _ s₃ _ => rejection_callAdapter _ _ _ s₃

/-! ## What a failure leaves told -/

/-- The number of completions announced, and the numbers of spans started and ended. -/
def State.marks (s : State) : ℕ × ℕ × ℕ :=
  (s.verdicts.count .jobCompleted, s.spansStarted, s.spansEnded)

/-- The marks in what is told. -/
def marksOf (told : List QueueEvent × ℕ × ℕ) : ℕ × ℕ × ℕ := (told.1.count .jobCompleted, told.2)

theorem keeps_marks_of_told {α : Type} {m : Async Thrown State α} (h : m.Keeps State.told) :
    m.Keeps State.marks := by
  intro s
  have htold : (m.run s).2.told = s.told := h s
  exact congrArg marksOf htold

/-- Only a completion and a span leave a mark. -/
theorem marks_record {effect : Effect} (hverdict : verdict effect ≠ some .jobCompleted)
    (hstart : isSpanStart effect = false) (hend : isSpanEnd effect = false) (s : State) :
    (s.record effect).marks = s.marks := by
  have htold := told_record effect s
  rw [tell, hstart, hend] at htold
  have hcount : (verdict effect).toList.count .jobCompleted = 0 := by
    rw [List.count_eq_zero, Option.mem_toList]
    exact hverdict
  have hmarks : (s.record effect).marks = marksOf (s.record effect).told := rfl
  rw [hmarks, htold, marksOf, List.count_append, hcount, Nat.zero_add]
  rfl

theorem keeps_marks_emit {event : QueueEvent} (h : event ≠ .jobCompleted) (jobId : Option String)
    (error : Option JsError) : (emit event jobId error).Keeps State.marks := by
  refine marks_record ?_ rfl rfl
  unfold verdict
  split
  · next heq =>
    cases heq
    exact absurd rfl h
  all_goals simp

theorem keeps_marks_adapter {effect : Effect} (hverdict : verdict effect ≠ some .jobCompleted)
    (hstart : isSpanStart effect = false) (hend : isSpanEnd effect = false) (configured : Bool)
    (a : Answer Thrown) : (callAdapter configured a effect).Keeps State.marks :=
  keeps_callAdapter (marks_record hverdict hstart hend) configured a

theorem keeps_marks_retryOrMove (error : JsError) :
    (retryOrMove config attempt job error).Keeps State.marks := by
  have hretrying : (announceRetrying config attempt job).Keeps State.marks :=
    .bind (keeps_marks_emit (by decide) _ _) fun _ =>
      keeps_marks_adapter (by simp [verdict]) rfl rfl _ _
  simp only [retryOrMove]
  split
  · split
    · apply Async.Keeps.bind (keeps_moveJobToDLQ (fun _ _ => rfl)
        (fun s _ => marks_record (by simp [verdict]) rfl rfl s) _ _ _ _ _ _ _)
      intro
      apply Async.Keeps.bind (keeps_marks_emit (by decide) _ _)
      intro
      exact keeps_marks_adapter (by simp [verdict]) rfl rfl _ _
    · exact .bind (keeps_marks_emit (by decide) _ _) fun _ => hretrying
  · apply Async.Keeps.bind (keeps_marks_emit (by decide) _ _)
    intro
    split
    · exact hretrying
    · exact .pure ()

/-- A span more is started. -/
def startMark (marks : ℕ × ℕ × ℕ) : ℕ × ℕ × ℕ := (marks.1, marks.2.1 + 1, marks.2.2)

/-- A span more is ended. -/
def endMark (marks : ℕ × ℕ × ℕ) : ℕ × ℕ × ℕ := (marks.1, marks.2.1, marks.2.2 + 1)

theorem acts_marks_startSpan (a : Answer Thrown) (name jobName : String) :
    (startSpan config a name jobName).Acts State.marks
      (if config.telemetry ∧ a.TakesEffect then startMark else id) :=
  acts_callAdapter
    (fun s => congrArg marksOf (told_record (.spanStarted name jobName config.name) s)) _ _

theorem acts_marks_endSpan (a : Answer Thrown) :
    (endSpan config a).Acts State.marks
      (if config.telemetry ∧ a.TakesEffect then endMark else id) :=
  acts_callAdapter (fun s => congrArg marksOf (told_record .spanEnded s)) _ _

/-- The end of `handleJobFailure`. -/
theorem acts_marks_closing (error : JsError) :
    (do
      recordException config (attempt.answers .recordException) error
      endSpan config (attempt.answers .failedSpanEnd)
      observeDuration config (attempt.answers .failedObserve) "jobqueue.job.duration_ms"
        job.name : Async Thrown State Unit).Acts State.marks
      (if config.telemetry ∧ (attempt.answers .recordException).IsAnswered ∧
        (attempt.answers .failedSpanEnd).TakesEffect then endMark else id) := by
  have hobserve : (observeDuration config (attempt.answers .failedObserve)
      "jobqueue.job.duration_ms" job.name).Keeps State.marks :=
    keeps_marks_adapter (by simp [verdict]) rfl rfl _ _
  have hrecord : (recordException config (attempt.answers .recordException) error).Keeps
      State.marks := keeps_marks_adapter (by simp [verdict]) rfl rfl _ _
  by_cases hanswered : config.telemetry → (attempt.answers .recordException).IsAnswered
  · have hguard : (config.telemetry ∧ (attempt.answers .recordException).IsAnswered ∧
        (attempt.answers .failedSpanEnd).TakesEffect) ↔
        config.telemetry ∧ (attempt.answers .failedSpanEnd).TakesEffect :=
      ⟨fun h => ⟨h.1, h.2.2⟩, fun h => ⟨h.1, hanswered h.1, h.2⟩⟩
    simp only [hguard]
    apply Async.Keeps.bind_acts hrecord (resolves_callAdapter hanswered _)
    intro
    exact (acts_marks_endSpan _).bind_keeps fun _ => hobserve
  · rw [if_neg fun h => hanswered fun _ => h.2.1]
    exact Async.Keeps.bind_of_rejects hrecord (rejects_callAdapter hanswered _) _

/-- A failure ends the span if the calls before that are answered. -/
theorem marks_handleJobFailure (error : JsError) (s : State) :
    ((handleJobFailure config attempt job error).run s).2.marks =
      if (∀ site ∈ movingSites config job s.dlqQueue.isSome, (attempt.answers site).IsAnswered) ∧
          config.telemetry ∧ (attempt.answers .recordException).IsAnswered ∧
          (attempt.answers .failedSpanEnd).TakesEffect then endMark s.marks
      else s.marks := by
  have hmoved : (retryOrMove config attempt job error).rejection s = none ↔ _ :=
    (rejection_retryOrMove error s).congr_left.trans Answer.firstError_eq_none
  have hkept : ((retryOrMove config attempt job error).run s).2.marks = s.marks :=
    keeps_marks_retryOrMove error s
  unfold handleJobFailure
  cases hrun : (retryOrMove config attempt job error).run s with
  | mk r s' =>
    rw [hrun] at hkept
    unfold Async.rejection at hmoved
    rw [hrun] at hmoved
    cases r with
    | error e =>
      have hnot := fun hall => Option.some_ne_none e (hmoved.mpr hall)
      rw [Async.run_bind_of_error hrun, if_neg fun h => hnot h.1]
      exact hkept
    | ok _ =>
      have hkept : s'.marks = s.marks := hkept
      rw [Async.run_bind_of_ok hrun, acts_marks_closing, hkept,
        apply_ite (fun g : ℕ × ℕ × ℕ → ℕ × ℕ × ℕ => g s.marks)]
      exact if_congr (and_iff_right (hmoved.mp rfl)).symm rfl rfl

section

variable {processor : ProcessorRun} {e : Thrown} (hp : attempt.processor = some processor)
  (hfails : processor.outcome = .error e)

include hfails in
/-- A processor that rejects ends the `try`. -/
theorem run_complete_of_error (config : QueueConfig) (attempt : Attempt) (job : Job) (s : State) :
    ∃ s', (complete config attempt processor job).run s = (.error e, s') ∧
      s'.dlqQueue = s.dlqQueue ∧ s'.marks = s.marks := by
  have hreports : (reportProgress job processor.progress).Resolves := resolves_reportProgress _
  obtain ⟨_, s', hrun⟩ := hreports s
  have hprocessor : (runProcessor processor job).run s = (.error e, s') := by
    unfold runProcessor
    rw [Async.run_bind_of_ok hrun, hfails]
    rfl
  have hdlq : (runProcessor processor job).Keeps State.dlqQueue :=
    keeps_runProcessor job (fun _ _ => rfl) (fun _ => rfl) processor
  exact ⟨s', Async.run_bind_of_error hprocessor, hdlq.of_run hprocessor,
    (keeps_marks_of_told (keeps_told_runProcessor processor)).of_run hprocessor⟩

include hp hfails

/-- An attempt whose processor rejects rejects with the first error there is: of a call before the
processor, of a call of the failure, or the processor's, turned into an error object. -/
theorem rejection_processJob_of_error (s : State) :
    (processJob config attempt job).rejection s =
      (Answer.firstError attempt.answers
        (startSites config ++ failureSites config job s.dlqQueue.isSome)).or
        (some (.error (e.toError attempt.stack))) := by
  have hincrement : (increment config (attempt.answers .startedIncrement) "jobqueue.job.started"
      job.name).Keeps State.dlqQueue := keeps_callAdapter (fun _ => rfl) _ _
  have hspan : (startSpan config (attempt.answers .startSpan) "jobqueue.process"
      job.name).Keeps State.dlqQueue := keeps_callAdapter (fun _ => rfl) _ _
  unfold processJob
  rw [hp, startSites, Answer.firstError_append, Answer.firstError_append, Answer.firstError_ite,
    Answer.firstError_ite, Option.or_assoc, Option.or_assoc]
  refine (Async.rejection_bind fun _ s₁ hrun => ?_).trans Option.none_or
  have hdlq₁ : s₁.dlqQueue = s.dlqQueue := by
    cases hrun
    rfl
  rw [← rejection_callAdapter config.metrics (attempt.answers .startedIncrement)
    (.incremented "jobqueue.job.started" job.name) s₁]
  refine Async.rejection_bind fun _ s₂ hrun => ?_
  have hdlq₂ : s₂.dlqQueue = s.dlqQueue := (hincrement.of_run hrun).trans hdlq₁
  rw [← rejection_callAdapter config.telemetry (attempt.answers .startSpan)
    (.spanStarted "jobqueue.process" job.name config.name) s₂]
  refine Async.rejection_bind fun _ s₃ hrun => ?_
  have hdlq₃ : s₃.dlqQueue = s.dlqQueue := (hspan.of_run hrun).trans hdlq₂
  obtain ⟨s₄, hcomplete, hdlq, -⟩ := run_complete_of_error hfails config attempt job s₃
  rw [Async.rejection_tryCatch_of_error hcomplete, ← hdlq₃, ← hdlq,
    ← rejection_handleJobFailure (e.toError attempt.stack) s₄]
  exact Async.rejection_bind fun _ _ _ => rfl

omit hp in
/-- Where the `try` leaves the span. -/
theorem marks_try_of_error (s : State) :
    ((tryCatch (complete config attempt processor job) fun error => do
        let error_ := error.toError attempt.stack
        handleJobFailure config attempt job error_
        throw (.error error_) : Async Thrown State Json).run s).2.marks =
      if (∀ site ∈ movingSites config job s.dlqQueue.isSome, (attempt.answers site).IsAnswered) ∧
          config.telemetry ∧ (attempt.answers .recordException).IsAnswered ∧
          (attempt.answers .failedSpanEnd).TakesEffect then endMark s.marks
      else s.marks := by
  obtain ⟨s', hcomplete, hdlq, hmarks⟩ := run_complete_of_error hfails config attempt job s
  rw [Async.run_tryCatch_of_error hcomplete, ← hdlq, ← hmarks,
    ← marks_handleJobFailure (e.toError attempt.stack) s']
  exact Async.Keeps.run_bind _ (fun _ => .throw _) s'

omit hp in
/-- Where the attempt leaves the span that it starts. -/
theorem marks_spanned_of_error (s : State) :
    ((do
        startSpan config (attempt.answers .startSpan) "jobqueue.process" job.name
        tryCatch (complete config attempt processor job) fun error => do
          let error_ := error.toError attempt.stack
          handleJobFailure config attempt job error_
          throw (.error error_) : Async Thrown State Json).run s).2.marks =
      if config.telemetry ∧ (attempt.answers .startSpan).TakesEffect then
        if attempt.EndsSpan config job s.dlqQueue.isSome then endMark (startMark s.marks)
        else startMark s.marks
      else s.marks := by
  have hspanDlq : (startSpan config (attempt.answers .startSpan) "jobqueue.process"
      job.name).Keeps State.dlqQueue := keeps_callAdapter (fun _ => rfl) _ _
  have hspan : (startSpan config (attempt.answers .startSpan) "jobqueue.process"
      job.name).Acts State.marks _ := acts_marks_startSpan _ _ _
  by_cases hcalled : config.telemetry → (attempt.answers .startSpan).IsAnswered
  · have hresolves : (startSpan config (attempt.answers .startSpan) "jobqueue.process"
        job.name).Resolves := resolves_callAdapter hcalled _
    obtain ⟨_, s', hrun⟩ := hresolves s
    have hmarks := hspan.of_run hrun
    rw [Async.run_bind_of_ok hrun, marks_try_of_error hfails, hspanDlq.of_run hrun]
    by_cases htelemetry : config.telemetry
    · have hanswered := hcalled htelemetry
      have heffect : (attempt.answers .startSpan).TakesEffect := by
        rw [hanswered.eq]
        trivial
      have hstarts : config.telemetry ∧ (attempt.answers .startSpan).TakesEffect :=
        ⟨htelemetry, heffect⟩
      rw [if_pos hstarts] at hmarks
      rw [if_pos hstarts, hmarks]
      exact if_congr ⟨fun ⟨hmoved, _, h⟩ => ⟨hanswered, hmoved, h⟩,
        fun ⟨_, hmoved, h⟩ => ⟨hmoved, htelemetry, h⟩⟩ rfl rfl
    · rw [if_neg fun h => htelemetry h.1] at hmarks
      rw [if_neg fun h => htelemetry h.2.1, if_neg fun h => htelemetry h.1]
      exact hmarks
  · obtain ⟨-, hnot⟩ := Classical.not_imp.mp hcalled
    have hrejects : (startSpan config (attempt.answers .startSpan) "jobqueue.process"
        job.name).Rejects := rejects_callAdapter hcalled _
    obtain ⟨e', s', hrun⟩ := hrejects s
    rw [Async.run_bind_of_error hrun, if_neg fun h : attempt.EndsSpan config job _ => hnot h.1,
      hspan.of_run hrun, apply_ite (fun g : ℕ × ℕ × ℕ → ℕ × ℕ × ℕ => g s.marks)]
    rfl

/-- Where an attempt whose processor rejects leaves its span. -/
theorem marks_processJob_of_error (s : State) :
    ((processJob config attempt job).run s).2.marks =
      if attempt.StartsSpan config then
        if attempt.EndsSpan config job s.dlqQueue.isSome then endMark (startMark s.marks)
        else startMark s.marks
      else s.marks := by
  have hincrementDlq : (increment config (attempt.answers .startedIncrement) "jobqueue.job.started"
      job.name).Keeps State.dlqQueue := keeps_callAdapter (fun _ => rfl) _ _
  have hincrement : (increment config (attempt.answers .startedIncrement) "jobqueue.job.started"
      job.name).Keeps State.marks := keeps_marks_adapter (by simp [verdict]) rfl rfl _ _
  have hmarks₁ : (s.record (.emitted .jobStarted (some job.id) none)).marks = s.marks :=
    marks_record (by simp [verdict]) rfl rfl s
  have hrun₁ : (emit .jobStarted (some job.id) none).run s =
    (.ok (), s.record (.emitted .jobStarted (some job.id) none)) := rfl
  have hdlq₁ : (s.record (.emitted .jobStarted (some job.id) none)).dlqQueue = s.dlqQueue := rfl
  unfold processJob
  rw [hp]
  dsimp only
  rw [Async.run_bind_of_ok hrun₁]
  generalize s.record (.emitted .jobStarted (some job.id) none) = s₁ at *
  by_cases hstarted : config.metrics → (attempt.answers .startedIncrement).IsAnswered
  · have hresolves : (increment config (attempt.answers .startedIncrement) "jobqueue.job.started"
        job.name).Resolves := resolves_callAdapter hstarted _
    obtain ⟨_, s₂, hrun₂⟩ := hresolves s₁
    have hmarks₂ := (hincrement.of_run hrun₂).trans hmarks₁
    have hdlq₂ := (hincrementDlq.of_run hrun₂).trans hdlq₁
    rw [Async.run_bind_of_ok hrun₂, marks_spanned_of_error hfails, hmarks₂, hdlq₂]
    exact if_congr ⟨fun h => ⟨h.1, hstarted, h.2⟩, fun h => ⟨h.1, h.2.2⟩⟩ rfl rfl
  · rw [if_neg fun h : attempt.StartsSpan config => hstarted h.2.1, ← hmarks₁]
    exact Async.Keeps.bind_of_rejects hincrement (rejects_callAdapter hstarted _) _ s₁

end

/-! ## The main result -/

/-- A success is passed on exactly if the attempt succeeds. -/
theorem truthful_ok_iff (job : Job) {processor : ProcessorRun} {result : Json}
    (hp : attempt.processor = some processor) (hok : processor.outcome = .ok result) (s : State) :
    Truthful (.ok result) ((processJob config attempt job).run { s with trace := [] }) ↔
      attempt.Succeeds config := by
  constructor
  · intro htruthful
    by_contra hnot
    obtain ⟨e, s', hrun⟩ := rejects_processJob job hnot { s with trace := [] }
    rw [hrun] at htruthful
    cases htruthful.1
  · intro hsucceeds
    have htold : ((processJob config attempt job).run { s with trace := [] }).2.told = _ :=
      told_processJob_of_succeeds hsucceeds s
    obtain ⟨result', s', hrun⟩ := (processJob_of_succeeds job hsucceeds).1 { s with trace := [] }
    have hresult := (outcome_of_processJob hp hrun).symm.trans hok
    rw [hrun] at htold ⊢
    have hspans := congrArg Prod.snd htold
    exact ⟨hresult, congrArg Prod.fst htold,
      (congrArg Prod.snd hspans).trans (congrArg Prod.fst hspans).symm⟩

/-- A failure is passed on exactly if no other error takes its place and the span is ended. -/
theorem truthful_error_iff (job : Job) {processor : ProcessorRun} {e : JsError}
    (hp : attempt.processor = some processor) (hfails : processor.outcome = .error (.error e))
    (s : State) :
    Truthful (.error (.error e)) ((processJob config attempt job).run { s with trace := [] }) ↔
      attempt.PassesOn config job s.dlqQueue.isSome e := by
  have herror := Async.rejection_eq_some (e := Thrown.error e)
    (m := processJob config attempt job) (s := { s with trace := [] })
  rw [rejection_processJob_of_error hp hfails] at herror
  have hmarks : ((processJob config attempt job).run { s with trace := [] }).2.marks =
      if attempt.StartsSpan config then
        if attempt.EndsSpan config job s.dlqQueue.isSome then endMark (startMark (0, 0, 0))
        else startMark (0, 0, 0)
      else (0, 0, 0) := marks_processJob_of_error hp hfails { s with trace := [] }
  unfold Truthful
  generalize (processJob config attempt job).run { s with trace := [] } = r at herror hmarks ⊢
  have hcompleted : .jobCompleted ∉ r.2.verdicts := by
    rw [← List.count_eq_zero]
    refine (congrArg Prod.fst hmarks).trans ?_
    split_ifs
    · rfl
    · rfl
    · rfl
  have hspans : r.2.spansEnded = r.2.spansStarted ↔
      (attempt.StartsSpan config → attempt.EndsSpan config job s.dlqQueue.isSome) := by
    have hstarted : r.2.spansStarted = _ :=
      congrArg (fun marks : ℕ × ℕ × ℕ => marks.2.1) hmarks
    have hended : r.2.spansEnded = _ := congrArg (fun marks : ℕ × ℕ × ℕ => marks.2.2) hmarks
    rw [hstarted, hended]
    split_ifs with hstarts hends
    · exact iff_of_true rfl fun _ => hends
    · exact iff_of_false (by simp [startMark]) fun h => hends (h hstarts)
    · exact iff_of_true rfl fun h => absurd h hstarts
  have hpassed : r.1 = .error (.error e) ↔ ∀ e' ∈ Answer.firstError attempt.answers
      (startSites config ++ failureSites config job s.dlqQueue.isSome), e' = .error e := by
    rw [← herror]
    cases Answer.firstError attempt.answers
        (startSites config ++ failureSites config job s.dlqQueue.isSome) with
    | none => simp [Thrown.toError]
    | some e' => simp
  exact ⟨fun ⟨h, _, h'⟩ => ⟨hpassed.mp h, hspans.mp h'⟩,
    fun h => ⟨hpassed.mpr h.error, hcompleted, hspans.mpr h.span⟩⟩

/-- **An attempt passes on what its processor did exactly if no call diverts it.** -/
theorem truthful_iff (job : Job) {processor : ProcessorRun}
    (hp : attempt.processor = some processor) (s : State) :
    Truthful processor.outcome ((processJob config attempt job).run { s with trace := [] }) ↔
      attempt.Undiverted config job s.dlqQueue.isSome processor.outcome := by
  cases houtcome : processor.outcome with
  | ok result => exact truthful_ok_iff job hp houtcome s
  | error e =>
    cases e with
    | value text => exact Iff.rfl
    | error e => exact truthful_error_iff job hp houtcome s

/-- A queue with metrics and telemetry. -/
def observedConfig : QueueConfig where
  name := "mail"
  metrics := true
  telemetry := true

/-- An attempt in which the processor resolves and one of the calls fails. -/
def attemptFailingAt (site : Site) : Attempt :=
  { attemptEnding (.ok .null) with
    answers := fun s => if s = site then .rejected (.value "down") false else .answered }

/-- A call that a success does not make cannot divert it. -/
theorem truthful_attemptFailingAt_failedSpanEnd :
    Truthful (.ok .null) ((processJob observedConfig (attemptFailingAt .failedSpanEnd) mailJob).run
      { mailState with trace := [] }) := by
  have hsucceeds : (attemptFailingAt .failedSpanEnd).Succeeds observedConfig := by decide
  have hp : (attemptFailingAt .failedSpanEnd).processor = some { outcome := .ok .null } := rfl
  exact (truthful_iff mailJob hp mailState).mpr hsucceeds

/-- A counter that fails sends a finished job back. -/
theorem not_truthful_attemptFailingAt_completedIncrement :
    ¬ ∀ (config : QueueConfig) (attempt : Attempt) (job : Job) (processor : ProcessorRun)
        (s : State), attempt.processor = some processor →
      Truthful processor.outcome
        ((processJob config attempt job).run { s with trace := [] }) := by
  intro hclaim
  have htruthful := hclaim observedConfig (attemptFailingAt .completedIncrement) mailJob _
    mailState rfl
  have hdiverted : ¬ (attemptFailingAt .completedIncrement).Succeeds observedConfig := by decide
  obtain ⟨e, s', hrun⟩ := rejects_processJob mailJob hdiverted { mailState with trace := [] }
  rw [hrun] at htruthful
  cases htruthful.1

end

end KitiumJobQueue.JobQueue
