import KitiumJobQueue.JobQueue.Processing

/-!
# The attempts at a job

BullMQ calls `processJob` with the number of attempts that have finished before, so with `0` the
first time, and again after a rejection until an attempt resolves or as many have rejected as the
job allows. `handleJobFailure` compares that number with the number of attempts allowed, which it
never reaches: no job is moved to the dead letter queue, and the last failure announces another
attempt. An attempt that fails before its processor is called announces nothing.

`handlesRetries_iff` tells when the attempts at a job are nevertheless reported rightly.
-/

namespace KitiumJobQueue.JobQueue

open Effects JavaScript Bull

/-! ## What an attempt announces -/

/-- The announcements made, the latest first. -/
def State.announced (s : State) : List QueueEvent := s.trace.filterMap announcement

/-- What an attempt leaves behind: the dead letter queue and the announcements. -/
def State.outcome (s : State) : Option Queue × List QueueEvent := (s.dlqQueue, s.announced)

theorem outcome_record {effect : Effect} (h : announcement effect = none) (s : State) :
    (s.record effect).outcome = s.outcome := by
  simp only [State.outcome, State.announced, State.record, List.filterMap_cons_none h]

/-- The outcome with another attempt announced. -/
def withRetry (o : Option Queue × List QueueEvent) : Option Queue × List QueueEvent :=
  (o.1, .jobRetrying :: o.2)

section

variable {config : QueueConfig} {attempt : Attempt} {job : Job}

theorem keeps_emit {event : QueueEvent} {jobId : Option String} {error : Option JsError}
    (h : announcement (.emitted event jobId error) = none) :
    (emit event jobId error).Keeps State.outcome :=
  outcome_record h

theorem acts_emit_jobRetrying (jobId : Option String) (error : Option JsError) :
    (emit .jobRetrying jobId error).Acts State.outcome withRetry := fun _ => rfl

theorem resolves_emit (event : QueueEvent) (jobId : Option String) (error : Option JsError) :
    (emit event jobId error).Resolves := .modify _

theorem keeps_adapter {effect : Effect} (h : announcement effect = none) (configured : Bool)
    (a : Answer Thrown) : (callAdapter configured a effect).Keeps State.outcome :=
  keeps_callAdapter (outcome_record h) configured a

theorem resolves_reportProgress (percentages : List ℚ) :
    (reportProgress job percentages).Resolves := by
  induction percentages with
  | nil => exact .pure ()
  | cons percentage percentages ih =>
    exact .bind (.modify _) fun _ => .bind (resolves_emit _ _ _) fun _ => ih

/-- The success of an attempt that reaches its processor. -/
theorem resolves_complete (job : Job) {processor : ProcessorRun}
    (hp : attempt.processor = some processor)
    (h : attempt.Succeeds config) : (complete config attempt processor job).Resolves := by
  obtain ⟨-, ⟨p, hmem, hok⟩, hincrement, hobserve, hend⟩ := h
  obtain rfl := Option.some.inj (hmem.symm.trans hp)
  apply Async.Resolves.bind
  · apply Async.Resolves.bind (resolves_reportProgress _)
    intro
    cases houtcome : p.outcome with
    | ok result => exact .pure result
    | error e =>
      rw [houtcome] at hok
      exact nomatch hok
  · intro
    apply Async.Resolves.bind (resolves_emit _ _ _)
    intro
    apply Async.Resolves.bind (resolves_callAdapter hincrement _)
    intro
    apply Async.Resolves.bind (resolves_callAdapter hobserve _)
    intro
    apply Async.Resolves.bind (resolves_callAdapter hend _)
    intro
    exact .pure _

theorem rejects_complete (job : Job) {processor : ProcessorRun}
    (hp : attempt.processor = some processor)
    (henters : attempt.Enters config) (h : ¬ attempt.Succeeds config) :
    (complete config attempt processor job).Rejects := by
  cases houtcome : processor.outcome with
  | error e =>
    apply Async.Rejects.bind
    apply Async.Rejects.bind_right
    intro
    rw [houtcome]
    exact .throw e
  | ok result =>
    apply Async.Rejects.bind_right
    intro
    apply Async.Rejects.bind_right
    intro
    by_cases hincrement : config.metrics → (attempt.answers .completedIncrement).IsAnswered
    · apply Async.Rejects.bind_right
      intro
      by_cases hobserve : config.metrics → (attempt.answers .completedObserve).IsAnswered
      · apply Async.Rejects.bind_right
        intro
        apply Async.Rejects.bind
        apply rejects_callAdapter
        intro hend
        exact h ⟨henters, ⟨processor, hp, by rw [houtcome]; rfl⟩, hincrement, hobserve, hend⟩
      · exact .bind (rejects_callAdapter hobserve _) _
    · exact .bind (rejects_callAdapter hincrement _) _

/-- With attempts left, a failure announces another one, and this is all it does. -/
theorem acts_handleJobFailure (error : JsError)
    (hleft : job.attemptsMade < job.opts.attempts.getD 3) :
    (handleJobFailure config attempt job error).Acts State.outcome withRetry := by
  have hretrying : (do
      emit .jobFailed (some job.id) (some error)
      announceRetrying config attempt job).Acts State.outcome withRetry := by
    apply Async.Keeps.bind_acts (keeps_emit rfl) (resolves_emit _ _ _)
    intro
    exact .bind_keeps (acts_emit_jobRetrying _ _) fun _ => keeps_adapter rfl _ _
  apply Async.Acts.bind_keeps
  · simp only [retryOrMove, ge_iff_le, if_neg (Nat.not_le.mpr hleft), if_pos hleft]
    split
    · exact hretrying
    · exact hretrying
  · intro
    apply Async.Keeps.bind (keeps_adapter rfl _ _)
    intro
    apply Async.Keeps.bind (keeps_adapter rfl _ _)
    intro
    exact keeps_adapter rfl _ _

theorem processJob_of_not_enters (job : Job) (h : ¬ attempt.Enters config) :
    (processJob config attempt job).Rejects ∧
      (processJob config attempt job).Keeps State.outcome := by
  unfold processJob
  cases hp : attempt.processor with
  | none => exact ⟨.throw _, .throw _⟩
  | some processor =>
    by_cases hstarted : config.metrics → (attempt.answers .startedIncrement).IsAnswered
    · have hspan : ¬ (config.telemetry → (attempt.answers .startSpan).IsAnswered) :=
        fun hspan => h ⟨by rw [hp]; rfl, hstarted, hspan⟩
      have hrej := rejects_callAdapter hspan
        (.spanStarted "jobqueue.process" job.name config.name)
      constructor
      · apply Async.Rejects.bind_right
        intro
        apply Async.Rejects.bind_right
        intro
        exact .bind hrej _
      · apply Async.Keeps.bind (keeps_emit rfl)
        intro
        apply Async.Keeps.bind (keeps_adapter rfl _ _)
        intro
        exact .bind_of_rejects (keeps_adapter rfl _ _) hrej _
    · have hrej := rejects_callAdapter hstarted (.incremented "jobqueue.job.started" job.name)
      constructor
      · apply Async.Rejects.bind_right
        intro
        exact .bind hrej _
      · apply Async.Keeps.bind (keeps_emit rfl)
        intro
        exact .bind_of_rejects (keeps_adapter rfl _ _) hrej _

theorem processJob_of_succeeds (job : Job) (h : attempt.Succeeds config) :
    (processJob config attempt job).Resolves ∧
      (processJob config attempt job).Keeps State.outcome := by
  obtain ⟨hp, hstarted, hspan⟩ := h.1
  obtain ⟨processor, hp⟩ := Option.isSome_iff_exists.mp hp
  have hcomplete := resolves_complete job hp h
  unfold processJob
  rw [hp]
  constructor
  · apply Async.Resolves.bind (resolves_emit _ _ _)
    intro
    apply Async.Resolves.bind (resolves_callAdapter hstarted _)
    intro
    apply Async.Resolves.bind (resolves_callAdapter hspan _)
    intro
    exact hcomplete.handle _
  · apply Async.Keeps.bind (keeps_emit rfl)
    intro
    apply Async.Keeps.bind (keeps_adapter rfl _ _)
    intro
    apply Async.Keeps.bind (keeps_adapter rfl _ _)
    intro
    exact (keeps_complete _ _ (fun _ => outcome_record) _ _).handle_of_resolves hcomplete _

theorem processJob_of_enters (job : Job) (henters : attempt.Enters config)
    (h : ¬ attempt.Succeeds config)
    (hleft : job.attemptsMade < job.opts.attempts.getD 3) :
    (processJob config attempt job).Rejects ∧
      (processJob config attempt job).Acts State.outcome withRetry := by
  have ⟨hp, hstarted, hspan⟩ := henters
  obtain ⟨processor, hp⟩ := Option.isSome_iff_exists.mp hp
  have hcomplete := rejects_complete job hp henters h
  unfold processJob
  rw [hp]
  constructor
  · apply Async.Rejects.bind_right
    intro
    apply Async.Rejects.bind_right
    intro
    apply Async.Rejects.bind_right
    intro
    exact hcomplete.handle fun e => .bind_right _ fun _ => .throw _
  · apply Async.Keeps.bind_acts (keeps_emit rfl) (resolves_emit _ _ _)
    intro
    apply Async.Keeps.bind_acts (keeps_adapter rfl _ _) (resolves_callAdapter hstarted _)
    intro
    apply Async.Keeps.bind_acts (keeps_adapter rfl _ _) (resolves_callAdapter hspan _)
    intro
    apply (keeps_complete _ _ (fun _ => outcome_record) _ _).handle_acts hcomplete
    intro e
    exact .bind_keeps (acts_handleJobFailure _ hleft) fun _ => .throw _

end

/-! ## The attempts at a job -/

/-- What BullMQ sees of an attempt, and what the attempt did. -/
structure AttemptRecord where
  failed : Bool
  trace : List Effect

/-- The announcements of an attempt. -/
def AttemptRecord.announced (r : AttemptRecord) : List QueueEvent := r.trace.filterMap announcement

section

variable (config : QueueConfig) (attempts : ℕ → Attempt) (job : Job)

/-- BullMQ runs up to `remaining` attempts, the first of them numbered `k`: it goes on until one
resolves. -/
def drive : (remaining k : ℕ) → State → List AttemptRecord × State
  | 0, _, s => ([], s)
  | remaining + 1, k, s =>
    match (processJob config (attempts k) { job with attemptsMade := k }).run
        { s with trace := [] } with
    | (.ok _, s') => ([⟨false, s'.trace⟩], s')
    | (.error _, s') =>
      (⟨true, s'.trace⟩ :: (drive remaining (k + 1) s').1, (drive remaining (k + 1) s').2)

end

/-- The jobs of the dead letter queue. -/
def State.entries (s : State) : ℕ := s.dlqQueue.elim 0 fun q => q.jobs.length

/-- All of the `n` attempts have failed. -/
def AllFailed (n : ℕ) (records : List AttemptRecord) : Prop :=
  records.length = n ∧ ∀ r ∈ records, r.failed

/-- A failed attempt announces another one exactly if another one follows. -/
def Announces : List AttemptRecord → Prop
  | [] => True
  | r :: rs => (r.failed → (.jobRetrying ∈ r.announced ↔ rs ≠ [])) ∧ Announces rs

/-- The attempts at a job are reported rightly. -/
structure Reported (config : QueueConfig) (n : ℕ) (before : State)
    (run : List AttemptRecord × State) : Prop where
  deadLetter : config.isDlqEnabled → AllFailed n run.1 →
    run.2.entries = before.entries + 1 ∧ (run.1.flatMap (·.announced)).count .jobDlq = 1
  noDeadLetter : config.isDlqEnabled → ¬ AllFailed n run.1 →
    run.2.entries = before.entries ∧ (run.1.flatMap (·.announced)).count .jobDlq = 0
  retrying : Announces run.1

section Runs

variable {config : QueueConfig} {attempts : ℕ → Attempt} {job : Job} {k : ℕ} (remaining : ℕ)

/-- A successful attempt is the last. -/
theorem drive_of_succeeds (job : Job) (remaining : ℕ) (h : (attempts k).Succeeds config)
    (s : State) :
    ∃ trace s', drive config attempts job (remaining + 1) k s = ([⟨false, trace⟩], s') ∧
      s'.dlqQueue = s.dlqQueue ∧ trace.filterMap announcement = [] := by
  obtain ⟨hres, hkeeps⟩ := processJob_of_succeeds { job with attemptsMade := k } h
  obtain ⟨result, s', hrun⟩ := hres { s with trace := [] }
  have hs' := hkeeps { s with trace := [] }
  rw [hrun] at hs'
  obtain ⟨hdlq, htrace⟩ := Prod.mk.inj hs'
  refine ⟨s'.trace, s', ?_, hdlq, htrace⟩
  rw [drive, hrun]

/-- What an attempt that rejects leaves behind. -/
theorem drive_of_rejects {g : Option Queue × List QueueEvent → Option Queue × List QueueEvent}
    (hrej : (processJob config (attempts k) { job with attemptsMade := k }).Rejects)
    (hacts : (processJob config (attempts k) { job with attemptsMade := k }).Acts State.outcome g)
    (s : State) :
    ∃ r s', drive config attempts job (remaining + 1) k s =
        (r :: (drive config attempts job remaining (k + 1) s').1,
          (drive config attempts job remaining (k + 1) s').2) ∧
      r.failed ∧ (s'.dlqQueue, r.announced) = g (s.dlqQueue, []) := by
  obtain ⟨e, s', hrun⟩ := hrej { s with trace := [] }
  have hs' := hacts { s with trace := [] }
  rw [hrun] at hs'
  refine ⟨⟨true, s'.trace⟩, s', ?_, rfl, hs'⟩
  rw [drive, hrun]

/-- A failed attempt, with attempts left by its number, announces another one exactly if it reaches
its processor. -/
theorem drive_of_fails (h : ¬ (attempts k).Succeeds config) (hk : k < job.opts.attempts.getD 3)
    (s : State) :
    ∃ r s', drive config attempts job (remaining + 1) k s =
        (r :: (drive config attempts job remaining (k + 1) s').1,
          (drive config attempts job remaining (k + 1) s').2) ∧
      r.failed ∧ s'.dlqQueue = s.dlqQueue ∧ .jobDlq ∉ r.announced ∧
      (.jobRetrying ∈ r.announced ↔ (attempts k).Enters config) := by
  by_cases henters : (attempts k).Enters config
  · obtain ⟨hrej, hacts⟩ := processJob_of_enters { job with attemptsMade := k } henters h hk
    obtain ⟨r, s', hrun, hfailed, houtcome⟩ := drive_of_rejects remaining hrej hacts s
    obtain ⟨hdlq, hannounced⟩ : s'.dlqQueue = s.dlqQueue ∧ r.announced = [.jobRetrying] :=
      Prod.mk.inj houtcome
    refine ⟨r, s', hrun, hfailed, hdlq, ?_, ?_⟩
    · rw [hannounced]
      decide
    · rw [hannounced]
      exact iff_of_true List.mem_cons_self henters
  · obtain ⟨hrej, hkeeps⟩ := processJob_of_not_enters { job with attemptsMade := k } henters
    obtain ⟨r, s', hrun, hfailed, houtcome⟩ := drive_of_rejects remaining hrej hkeeps s
    obtain ⟨hdlq, hannounced⟩ := Prod.mk.inj houtcome
    refine ⟨r, s', hrun, hfailed, hdlq, ?_, ?_⟩
    · rw [hannounced]
      exact List.not_mem_nil
    · rw [hannounced]
      exact iff_of_false List.not_mem_nil henters

/-- However the attempts go, the dead letter queue is left alone and `JOB_DLQ` is not emitted. -/
theorem drive_quiet (hk : k + remaining ≤ job.opts.attempts.getD 3) (s : State) :
    (drive config attempts job remaining k s).2.dlqQueue = s.dlqQueue ∧
      ∀ r ∈ (drive config attempts job remaining k s).1, .jobDlq ∉ r.announced := by
  induction remaining generalizing k s with
  | zero => exact ⟨rfl, fun r hr => absurd hr List.not_mem_nil⟩
  | succ remaining ih =>
    by_cases h : (attempts k).Succeeds config
    · obtain ⟨trace, s', hrun, hdlq, htrace⟩ := drive_of_succeeds job remaining h s
      rw [hrun]
      refine ⟨hdlq, fun r hr => ?_⟩
      rw [List.mem_singleton.mp hr, AttemptRecord.announced, htrace]
      exact List.not_mem_nil
    · have hleft : k < job.opts.attempts.getD 3 := by omega
      obtain ⟨r, s', hrun, -, hdlq, hquiet, -⟩ := drive_of_fails remaining h hleft s
      obtain ⟨hdlq', hquiet'⟩ := ih (k := k + 1) (by omega) s'
      rw [hrun]
      refine ⟨hdlq'.trans hdlq, fun r' hr' => ?_⟩
      rcases List.mem_cons.mp hr' with rfl | hr'
      · exact hquiet
      · exact hquiet' r' hr'

/-- All attempts fail if none of them succeeds. -/
theorem allFailed_drive_iff (hk : k + remaining ≤ job.opts.attempts.getD 3) (s : State) :
    AllFailed remaining (drive config attempts job remaining k s).1 ↔
      ∀ i, k ≤ i → i < k + remaining → ¬ (attempts i).Succeeds config := by
  induction remaining generalizing k s with
  | zero =>
    refine iff_of_true ⟨rfl, fun r hr => absurd hr List.not_mem_nil⟩ fun i hki hi => ?_
    omega
  | succ remaining ih =>
    by_cases h : (attempts k).Succeeds config
    · obtain ⟨trace, s', hrun, -, -⟩ := drive_of_succeeds job remaining h s
      rw [hrun]
      refine iff_of_false (fun hall => ?_) fun hall => hall k le_rfl (by omega) h
      exact Bool.false_ne_true (hall.2 _ List.mem_cons_self)
    · have hleft : k < job.opts.attempts.getD 3 := by omega
      obtain ⟨r, s', hrun, hfailed, -⟩ := drive_of_fails remaining h hleft s
      have ih := ih (k := k + 1) (by omega) s'
      rw [hrun]
      unfold AllFailed at ih ⊢
      rw [List.length_cons, List.forall_mem_cons, Nat.add_right_cancel_iff]
      constructor
      · intro ⟨hlength, _, hall⟩ i hki hi
        rcases Nat.eq_or_lt_of_le hki with rfl | hki
        · exact h
        · exact ih.mp ⟨hlength, hall⟩ i hki (by omega)
      · intro hall
        obtain ⟨hlength, hall⟩ := ih.mpr fun i hki hi => hall i (by omega) (by omega)
        exact ⟨hlength, hfailed, hall⟩

theorem drive_ne_nil (hk : k < job.opts.attempts.getD 3) (s : State) :
    (drive config attempts job (remaining + 1) k s).1 ≠ [] := by
  by_cases h : (attempts k).Succeeds config
  · obtain ⟨trace, s', hrun, -⟩ := drive_of_succeeds job remaining h s
    rw [hrun]
    exact List.cons_ne_nil _ _
  · obtain ⟨r, s', hrun, -⟩ := drive_of_fails remaining h hk s
    rw [hrun]
    exact List.cons_ne_nil _ _

/-- Of the attempts from `k` to `last` one succeeds and the earlier ones reach the processor, or
none succeeds and the last one alone fails before the processor. -/
def AnnouncedRightly (config : QueueConfig) (attempts : ℕ → Attempt) (k last : ℕ) : Prop :=
  (∃ j, k ≤ j ∧ j ≤ last ∧ (attempts j).Succeeds config ∧
    ∀ i, k ≤ i → i < j → (attempts i).Enters config) ∨
  ((∀ i, k ≤ i → i ≤ last → ¬ (attempts i).Succeeds config) ∧
    (∀ i, k ≤ i → i < last → (attempts i).Enters config) ∧ ¬ (attempts last).Enters config)

section Announced

variable {last : ℕ}

theorem announcedRightly_of_succeeds (h : (attempts k).Succeeds config) (hk : k ≤ last) :
    AnnouncedRightly config attempts k last :=
  .inl ⟨k, le_rfl, hk, h, fun i hki hi => by omega⟩

theorem announcedRightly_self_iff (h : ¬ (attempts k).Succeeds config) :
    AnnouncedRightly config attempts k k ↔ ¬ (attempts k).Enters config := by
  constructor
  · intro hright
    rcases hright with ⟨j, hkj, hj, hsucceeds, -⟩ | ⟨-, -, hnot⟩
    · obtain rfl : j = k := by omega
      exact absurd hsucceeds h
    · exact hnot
  · intro hnot
    refine .inr ⟨fun i hki hi => ?_, fun i hki hi => by omega, hnot⟩
    obtain rfl : i = k := by omega
    exact h

/-- The first attempt does not succeed, and is not the last. -/
theorem announcedRightly_iff_of_lt (h : ¬ (attempts k).Succeeds config) (hk : k < last) :
    AnnouncedRightly config attempts k last ↔
      (attempts k).Enters config ∧ AnnouncedRightly config attempts (k + 1) last := by
  constructor
  · intro hright
    rcases hright with ⟨j, hkj, hj, hsucceeds, hbefore⟩ | ⟨hfails, hbefore, hnot⟩
    · have hkj : k < j := by
        rcases Nat.eq_or_lt_of_le hkj with rfl | hkj
        · exact absurd hsucceeds h
        · exact hkj
      exact ⟨hbefore k le_rfl hkj,
        .inl ⟨j, hkj, hj, hsucceeds, fun i hki hi => hbefore i (by omega) hi⟩⟩
    · exact ⟨hbefore k le_rfl hk, .inr ⟨fun i hki hi => hfails i (by omega) hi,
        fun i hki hi => hbefore i (by omega) hi, hnot⟩⟩
  · intro ⟨henters, hright⟩
    have hall : ∀ {m}, (∀ i, k + 1 ≤ i → i < m → (attempts i).Enters config) →
        ∀ i, k ≤ i → i < m → (attempts i).Enters config := by
      intro m hlater i hki hi
      rcases Nat.eq_or_lt_of_le hki with rfl | hki
      · exact henters
      · exact hlater i hki hi
    rcases hright with ⟨j, hkj, hj, hsucceeds, hlater⟩ | ⟨hfails, hlater, hnot⟩
    · exact .inl ⟨j, by omega, hj, hsucceeds, hall hlater⟩
    · refine .inr ⟨fun i hki hi => ?_, hall hlater, hnot⟩
      rcases Nat.eq_or_lt_of_le hki with rfl | hki
      · exact h
      · exact hfails i hki hi

end Announced

/-- When the announcements of a sequence of attempts are right. -/
theorem announces_drive_iff (hk : k + remaining < job.opts.attempts.getD 3) (s : State) :
    Announces (drive config attempts job (remaining + 1) k s).1 ↔
      AnnouncedRightly config attempts k (k + remaining) := by
  induction remaining generalizing k s with
  | zero =>
    by_cases h : (attempts k).Succeeds config
    · obtain ⟨trace, s', hrun, -⟩ := drive_of_succeeds job 0 h s
      rw [hrun]
      exact iff_of_true ⟨fun hfailed => (nomatch hfailed), trivial⟩
        (announcedRightly_of_succeeds h le_rfl)
    · obtain ⟨r, s', hrun, hfailed, -, -, hretry⟩ := drive_of_fails 0 h hk s
      rw [hrun, k.add_zero, announcedRightly_self_iff h, ← hretry]
      constructor
      · intro ⟨hr, _⟩ hmem
        exact (hr hfailed).mp hmem rfl
      · intro hnot
        exact ⟨fun _ => iff_of_false hnot fun hne => hne rfl, trivial⟩
  | succ remaining ih =>
    by_cases h : (attempts k).Succeeds config
    · obtain ⟨trace, s', hrun, -⟩ := drive_of_succeeds job (remaining + 1) h s
      rw [hrun]
      exact iff_of_true ⟨fun hfailed => (nomatch hfailed), trivial⟩
        (announcedRightly_of_succeeds h (by omega))
    · have hleft : k < job.opts.attempts.getD 3 := by omega
      obtain ⟨r, s', hrun, hfailed, -, -, hretry⟩ := drive_of_fails (remaining + 1) h hleft s
      have hrest : (drive config attempts job (remaining + 1) (k + 1) s').1 ≠ [] :=
        drive_ne_nil remaining (by omega) s'
      have ih := ih (k := k + 1) (by omega) s'
      have hlast : k + 1 + remaining = k + (remaining + 1) := by omega
      rw [hlast] at ih
      rw [hrun, announcedRightly_iff_of_lt h (by omega), ← hretry, ← ih]
      constructor
      · intro ⟨hr, hrs⟩
        exact ⟨(hr hfailed).mpr hrest, hrs⟩
      · intro ⟨hmem, hrs⟩
        exact ⟨fun _ => iff_of_true hmem hrest, hrs⟩

/-- As nothing is ever moved, the reports are right if not all attempts fail where there is a dead
letter queue, and the announcements are right. -/
theorem reported_drive_iff (hk : remaining ≤ job.opts.attempts.getD 3) (s : State) :
    Reported config remaining s (drive config attempts job remaining 0 s) ↔
      (config.isDlqEnabled → ¬ AllFailed remaining (drive config attempts job remaining 0 s).1) ∧
        Announces (drive config attempts job remaining 0 s).1 := by
  obtain ⟨hdlq, hquiet⟩ : _ ∧ ∀ r ∈ (drive config attempts job remaining 0 s).1, _ :=
    drive_quiet remaining (by omega) s
  have hentries : (drive config attempts job remaining 0 s).2.entries = s.entries := by
    rw [State.entries, hdlq]
    rfl
  have hcount : ((drive config attempts job remaining 0 s).1.flatMap (·.announced)).count .jobDlq =
      0 := by
    apply List.count_eq_zero.mpr
    intro hmem
    obtain ⟨r, hr, hmem⟩ := List.mem_flatMap.mp hmem
    exact hquiet r hr hmem
  constructor
  · intro h
    refine ⟨fun henabled hall => ?_, h.retrying⟩
    have := (h.deadLetter henabled hall).2
    omega
  · intro ⟨hall, hannounces⟩
    exact ⟨fun henabled h => absurd h (hall henabled), fun _ _ => ⟨hentries, hcount⟩, hannounces⟩

/-- **When the attempts at a job are reported rightly.** For a job that allows `n` attempts and any
behaviour of processors, adapters and queues: the dead letter queue and the announcements are as
they should be exactly if an attempt succeeds and all before it reach their processor, or if there
is no dead letter queue and, of `n` failing attempts, the last one alone fails before its
processor. -/
theorem reported_iff {n : ℕ} (hn : job.opts.attempts = .value n) (hpos : 1 ≤ n) (s : State) :
    Reported config n s (drive config attempts job n 0 s) ↔
      (∃ k < n, (attempts k).Succeeds config ∧ ∀ i < k, (attempts i).Enters config) ∨
      (¬ config.isDlqEnabled ∧ (∀ i < n, ¬ (attempts i).Succeeds config) ∧
        (∀ i < n - 1, (attempts i).Enters config) ∧ ¬ (attempts (n - 1)).Enters config) := by
  have hmax : job.opts.attempts.getD 3 = n := by rw [hn]; rfl
  obtain ⟨m, rfl⟩ : ∃ m, n = m + 1 := ⟨n - 1, by omega⟩
  rw [reported_drive_iff _ (by omega), allFailed_drive_iff _ (by omega),
    announces_drive_iff _ (by omega), AnnouncedRightly, Nat.zero_add, Nat.zero_add,
    Nat.add_sub_cancel]
  constructor
  · intro ⟨hsome, hcond⟩
    rcases hcond with ⟨k, _, hk, hsucceeds, hbefore⟩ | ⟨hfails, hbefore, hnot⟩
    · exact .inl ⟨k, by omega, hsucceeds, fun i hi => hbefore i (Nat.zero_le i) hi⟩
    · refine .inr ⟨fun henabled => hsome henabled fun i _ hi => hfails i (Nat.zero_le i) (by omega),
        fun i hi => hfails i (Nat.zero_le i) (by omega), fun i hi => hbefore i (Nat.zero_le i) hi,
        hnot⟩
  · intro hcond
    rcases hcond with ⟨k, hk, hsucceeds, hbefore⟩ | ⟨hdisabled, hfails, hbefore, hnot⟩
    · exact ⟨fun _ hfails => hfails k (Nat.zero_le k) hk hsucceeds,
        .inl ⟨k, Nat.zero_le k, by omega, hsucceeds, fun i _ hi => hbefore i hi⟩⟩
    · exact ⟨fun henabled => absurd henabled hdisabled,
        .inr ⟨fun i _ hi => hfails i (by omega), fun i _ hi => hbefore i hi, hnot⟩⟩

end Runs

/-! ## Two attempts -/

/-- A queue with a dead letter queue, and nothing else. -/
def mailConfig : QueueConfig where
  name := "mail"
  dlq := some { enabled := true }

/-- Both queues are empty; the job at hand is with the worker. -/
def mailState : State where
  queue := { jobs := [], counter := 1, defaultJobOptions := buildDefaultJobOptions none }
  dlqQueue := some newDlqQueue

/-- A job with two attempts. -/
def mailJob : Job where
  id := "1"
  name := "send"
  data := .obj [("to", .str "a")]
  opts := { attempts := .value 2 }
  attemptsMade := 0
  timestamp := 0
  state := .active

/-- An attempt in which only the processor may fail. -/
def attemptEnding (outcome : Except Thrown Json) : Attempt where
  processor := some { outcome := outcome }
  answers _ := .answered
  stack := "Error"
  now := 0
  timestamp := "1970-01-01T00:00:00.000Z"

/-- The first attempt fails, the second succeeds. -/
def failThenSucceed (i : ℕ) : Attempt :=
  attemptEnding (if i = 0 then .error (.value "unreachable") else .ok .null)

theorem reported_failThenSucceed :
    Reported mailConfig 2 mailState (drive mailConfig failThenSucceed mailJob 2 0 mailState) := by
  have henters : ∀ i, (failThenSucceed i).Enters mailConfig := fun i => ⟨rfl, nofun, nofun⟩
  apply (reported_iff rfl (by decide) mailState).mpr
  refine .inl ⟨1, by decide, ?_, fun i _ => henters i⟩
  exact ⟨henters 1, ⟨_, rfl, rfl⟩, nofun, nofun, nofun⟩

/-- Every attempt fails. -/
def alwaysFail (_ : ℕ) : Attempt := attemptEnding (.error (.value "unreachable"))

/-- **No job reaches the dead letter queue.** Both attempts fail, both announce another one, and the
dead letter queue stays empty. -/
theorem not_reported_alwaysFail :
    AllFailed 2 (drive mailConfig alwaysFail mailJob 2 0 mailState).1 ∧
      (drive mailConfig alwaysFail mailJob 2 0 mailState).2.entries = 0 ∧
      (drive mailConfig alwaysFail mailJob 2 0 mailState).1.map AttemptRecord.announced =
        [[.jobRetrying], [.jobRetrying]] ∧
      ¬ Reported mailConfig 2 mailState (drive mailConfig alwaysFail mailJob 2 0 mailState) := by
  have hall : AllFailed 2 (drive mailConfig alwaysFail mailJob 2 0 mailState).1 :=
    ⟨rfl, by decide⟩
  refine ⟨hall, rfl, rfl, fun h => ?_⟩
  exact absurd (h.deadLetter rfl hall).1 (by decide)

end KitiumJobQueue.JobQueue
