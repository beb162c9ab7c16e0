import KitiumJobQueue.Foundations.Systems
import KitiumJobQueue.JobQueue.Retries
import Mathlib.Data.List.Count

/-!
# Jobs with an idempotency key

`addJob` turns an idempotency key into the id of the job, and BullMQ ignores an `add` under an id
that is still stored. What is remembered of a key is therefore the stored job, which by default is
deleted when it completes. An empty key is taken for none.

`onceEach_of_run` tells when a name and a key nevertheless lead to one successful execution.
-/

namespace KitiumJobQueue.JobQueue

open Effects JavaScript Bull

/-- The arguments of an `addJob`, and what the call meets. -/
structure AddCall where
  jobName : String
  data : Json
  options : Option JobOptions
  random : ℚ
  now : ℕ
  add : Answer Thrown
  metric : Answer Thrown

namespace AddCall

variable (call : AddCall) (config : QueueConfig)

/-- The idempotency key of a call. -/
def key : Option String := (call.options.getD {}).idempotencyKey.toOption

/-- The options the job is added with. -/
def jobOptions : JobsOptions := addJobOptions config call.random call.options

/-- The call of `addJob`. -/
def perform : Async Thrown State String :=
  addJob config call.add call.metric call.random call.now call.jobName call.data call.options

theorem queue_perform (s : State) :
    ((call.perform config).run s).2.queue =
      if call.add.TakesEffect then
        (s.queue.add call.jobName call.data (call.jobOptions config) call.now).2
      else s.queue :=
  queue_addJob _ _ _ _ _ _ _ _ _

end AddCall

/-- The processor is called and resolves. -/
def Attempt.Executes (config : QueueConfig) (attempt : Attempt) : Prop :=
  attempt.Enters config ∧ ∃ processor ∈ attempt.processor, processor.outcome.isOk

instance (config : QueueConfig) (attempt : Attempt) : Decidable (attempt.Executes config) :=
  inferInstanceAs (Decidable (_ ∧ _))

/-! ## Runs -/

/-- What happens to the jobs of one `JobQueue`. -/
inductive JobEvent
  | addJob (call : AddCall)
  /-- The delay of a job has passed. -/
  | promote (jobId : String)
  /-- A worker takes a job. -/
  | start (jobId : String)
  /-- A worker makes its attempt at a job, and BullMQ settles it. -/
  | process (jobId : String) (attempt : Attempt) (isDelayed : Bool)
  | removeJob (jobId : String) (getJob remove : Answer Thrown) (locked : Thrown)
  | clear (rule : CleanRule) (clean : Answer Thrown)
  | drain (answer : Answer Thrown)

/-- The `JobQueue`, the name and key that the job stored under an id was added with, and the
name and key of every successful execution so far. -/
structure Tally where
  state : State
  origin : String → Option (String × String) := fun _ => none
  successes : List (String × String) := []

namespace Tally

variable (config : QueueConfig) (t : Tally)

/-- The jobs with a name and key that may still be run. -/
def pending (nk : String × String) : ℕ :=
  t.state.queue.openCount fun jobId => decide (t.origin jobId = some nk)

/-- The call creates a job. -/
def Creates (call : AddCall) : Prop :=
  call.add.TakesEffect ∧ t.state.queue.duplicate (call.jobOptions config) = none

instance (call : AddCall) : Decidable (t.Creates config call) :=
  inferInstanceAs (Decidable (_ ∧ _))

/-- The job the call creates. -/
def created (call : AddCall) : Job :=
  t.state.queue.newJob call.jobName call.data (call.jobOptions config) call.now

/-- An `addJob`. -/
def addJob (call : AddCall) : Tally where
  state := ((call.perform config).run t.state).2
  origin :=
    if t.Creates config call then
      Function.update t.origin (t.created config call).id (call.key.map (call.jobName, ·))
    else t.origin
  successes := t.successes

/-- An attempt, and what BullMQ does when it settles. -/
def process (jobId : String) (attempt : Attempt) (isDelayed : Bool) : Option Tally :=
  (t.state.queue.getJob jobId).bind fun job =>
    let run := (processJob config attempt job).run t.state
    let settled :=
      if run.1.isOk then run.2.queue.complete jobId else run.2.queue.fail jobId isDelayed
    settled.map fun queue =>
      { t with
        state := { run.2 with queue := queue }
        successes :=
          if attempt.Executes config then (t.origin jobId).toList ++ t.successes else t.successes }

/-- A change of the stored jobs alone. -/
def withQueue (queue : Queue) : Tally := { t with state := { t.state with queue := queue } }

/-- One event. -/
def step (t : Tally) : JobEvent → Option Tally
  | .addJob call => some (t.addJob config call)
  | .promote jobId => (t.state.queue.promote jobId).map t.withQueue
  | .start jobId => (t.state.queue.start jobId).map t.withQueue
  | .process jobId attempt isDelayed => t.process config jobId attempt isDelayed
  | .removeJob jobId getJob remove locked =>
    some { t with state := ((JobQueue.removeJob getJob remove locked jobId).run t.state).2 }
  | .clear rule clean => some { t with state := ((JobQueue.clear rule clean).run t.state).2 }
  | .drain answer => some { t with state := ((JobQueue.drain answer).run t.state).2 }

/-- The runs of a `JobQueue`. -/
def system : System Tally JobEvent where
  step := step config

/-! ## At most one success -/

variable {t}

/-- A job stored under a key came with that key, and a name and key stand for one job that may still
be run or one success. -/
structure Inv (t : Tally) : Prop where
  nodup : t.state.queue.ids.Nodup
  keyed : ∀ jobId ∈ t.state.queue.ids, ∀ name key,
    t.origin jobId = some (name, key) → key ≠ "" → jobId = key
  once : ∀ nk, t.pending nk + t.successes.count nk ≤ 1

/-- What becomes of the stored jobs when none is added. -/
theorem Inv.of_narrows (h : t.Inv) {state : State} {successes : List (String × String)}
    (hqueue : t.state.queue.Narrows state.queue)
    (honce : ∀ nk, Tally.pending ⟨state, t.origin, successes⟩ nk + successes.count nk ≤
      t.pending nk + t.successes.count nk) : Inv ⟨state, t.origin, successes⟩ where
  nodup := hqueue.nodup
  keyed jobId hmem := h.keyed jobId (hqueue.subset hmem)
  once nk := (honce nk).trans (h.once nk)

theorem Inv.withState (h : t.Inv) {state : State} (hqueue : t.state.queue.Narrows state.queue) :
    Inv { t with state := state } :=
  h.of_narrows hqueue fun _ => Nat.add_le_add_right (hqueue.openCount_le _) _

/-- A job closed with a success. -/
theorem Inv.of_closes (h : t.Inv) {state : State} {jobId : String}
    (hcloses : t.state.queue.Closes jobId state.queue) :
    Inv ⟨state, t.origin, (t.origin jobId).toList ++ t.successes⟩ := by
  apply h.of_narrows hcloses.narrows
  intro nk
  have hclosed := hcloses.openCount_add_le fun jobId => decide (t.origin jobId = some nk)
  have hcount : (t.origin jobId).toList.count nk = if t.origin jobId = some nk then 1 else 0 := by
    cases t.origin jobId with
    | none => rfl
    | some nk' => simp [List.count_singleton]
  simp only [decide_eq_true_eq] at hclosed
  simp only [pending, List.count_append, hcount]
  omega

/-! ### A new job -/

section Adding

variable {config} {call : AddCall} {key : String}

/-- The options of a call with a key name it as the job id. -/
theorem customId_of_key (defaults : JobsOptions) (hkey : call.key = some key) (hne : key ≠ "") :
    (defaults.spread (call.jobOptions config)).customId = some key := by
  have hjobId : (call.jobOptions config).jobId = .value key :=
    (applyJitter_jobId _ _ _).trans (buildJobOptions_jobId_of_key config hkey hne)
  exact JobsOptions.customId_spread hjobId hne

theorem created_id (hkey : call.key = some key) (hne : key ≠ "") :
    (t.created config call).id = key :=
  Queue.newJob_id_of_some (customId_of_key _ hkey hne) _ _ _

/-- A call with a key creates a job only if nothing is stored under the key. -/
theorem Creates.key_not_mem (h : t.Creates config call) (hkey : call.key = some key)
    (hne : key ≠ "") :
    key ∉ t.state.queue.ids := by
  have hdup := h.2
  rw [Queue.duplicate, customId_of_key _ hkey hne] at hdup
  exact Queue.getJob_eq_none.mp hdup

/-- A name and key nothing is stored under are not waiting to be run. -/
theorem Inv.pending_eq_zero (h : t.Inv) (hne : key ≠ "") (hmem : key ∉ t.state.queue.ids)
    (name : String) : t.pending (name, key) = 0 := by
  apply List.countP_eq_zero.mpr
  intro job hjob hopen
  have horigin : t.origin job.id = some (name, key) := by
    simpa using (Bool.and_eq_true_iff.mp hopen).2
  have hid : job.id ∈ t.state.queue.ids := Queue.mem_ids.mpr ⟨job, hjob, rfl⟩
  exact hmem (h.keyed _ hid _ _ horigin hne ▸ hid)

/-- What becomes of the stored jobs. -/
theorem jobs_addJob_of_creates (h : t.Creates config call) :
    (t.addJob config call).state.queue.jobs =
      (t.state.queue.put (t.created config call)).jobs := by
  refine (congrArg Queue.jobs (call.queue_perform config t.state)).trans ?_
  rw [if_pos h.1, Queue.add_eq_put h.2]
  rfl

theorem ids_addJob_of_creates (h : t.Creates config call) :
    (t.addJob config call).state.queue.ids = (t.state.queue.put (t.created config call)).ids :=
  congrArg (List.map Job.id) (jobs_addJob_of_creates h)

theorem narrows_addJob_of_not_creates (hnodup : t.state.queue.ids.Nodup)
    (h : ¬ t.Creates config call) :
    t.state.queue.Narrows (t.addJob config call).state.queue := by
  have hqueue : (t.addJob config call).state.queue = _ := call.queue_perform config t.state
  rw [hqueue]
  split
  · next htakes =>
    obtain ⟨job, hdup⟩ := Option.ne_none_iff_exists'.mp fun hnone => h ⟨htakes, hnone⟩
    rw [Queue.add_of_duplicate_eq_some hdup]
    exact ⟨hnodup, fun _ => id, fun _ => le_rfl⟩
  · exact .refl hnodup

/-- Besides the jobs pending before at most the new one is. -/
theorem pending_addJob_le (h : t.Creates config call) (nk : String × String) :
    (t.addJob config call).pending nk ≤
      t.pending nk + if call.key.map (call.jobName, ·) = some nk then 1 else 0 := by
  set job := t.created config call
  have horigin : (t.addJob config call).origin =
      Function.update t.origin job.id (call.key.map (call.jobName, ·)) := if_pos h
  have hothers : (t.state.queue.remove job.id).openCount
        (fun jobId => decide ((t.addJob config call).origin jobId = some nk)) =
      (t.state.queue.remove job.id).openCount fun jobId => decide (t.origin jobId = some nk) := by
    apply Queue.openCount_congr
    intro jobId hmem
    rw [horigin, Function.update_of_ne (Queue.mem_ids_remove.mp hmem).2]
  have hnew : (t.addJob config call).origin job.id = call.key.map (call.jobName, ·) := by
    rw [horigin, Function.update_self]
  have hput : (t.addJob config call).pending nk = (t.state.queue.put job).openCount
      fun jobId => decide ((t.addJob config call).origin jobId = some nk) := by
    rw [pending, Queue.openCount, jobs_addJob_of_creates h]
    rfl
  rw [hput]
  refine (Queue.openCount_put job).le.trans (Nat.add_le_add ?_ ?_)
  · rw [hothers]
    exact Queue.openCount_remove_le
  · rw [hnew]
    split
    · next hcond => rw [if_pos (of_decide_eq_true (Bool.and_eq_true_iff.mp hcond).2)]
    · exact Nat.zero_le _

end Adding

/-! ### Runs -/

/-- The condition: an `addJob` with a key that creates a job comes before any success under its
name and key, the empty key is not used again while such a job may still be run, jobs do not repeat,
and an attempt whose processor resolves succeeds or is the last. -/
def Meets (t : Tally) : JobEvent → Prop
  | .addJob call =>
    (t.created config call).opts.repeatConfig.toOption = none ∧
      ∀ key ∈ call.key, key ∉ t.state.queue.ids ∨ key = "" →
        (call.jobName, key) ∉ t.successes ∧ (key = "" → t.pending (call.jobName, key) = 0)
  | .process jobId attempt _ =>
    attempt.Executes config →
      attempt.Succeeds config ∨ ∀ job ∈ t.state.queue.getJob jobId, ¬ job.hasNextAttempt
  | .promote _ | .start _ | .removeJob _ _ _ _ | .clear _ _ | .drain _ => True

instance (config : QueueConfig) (t : Tally) : DecidablePred (t.Meets config)
  | .addJob _ => inferInstanceAs (Decidable (_ ∧ _))
  | .process _ _ _ => inferInstanceAs (Decidable (_ → _ ∨ _))
  | .promote _ | .start _ | .removeJob _ _ _ _ | .clear _ _ | .drain _ => .isTrue trivial

/-- A new job. -/
theorem Inv.addJob_of_creates {config : QueueConfig} (h : t.Inv) {call : AddCall}
    (hcreates : t.Creates config call) (hmeets : t.Meets config (.addJob call)) :
    (t.addJob config call).Inv := by
  have hids := ids_addJob_of_creates hcreates
  have horigin : (t.addJob config call).origin = _ := if_pos hcreates
  constructor
  · rw [hids]
    exact Queue.nodup_put h.nodup _
  · intro jobId hmem name key hkey hne
    rw [hids] at hmem
    rw [horigin] at hkey
    rcases Queue.mem_ids_put.mp hmem with rfl | ⟨hmem, hid⟩
    · rw [Function.update_self, Option.map_eq_some_iff] at hkey
      obtain ⟨key', hkey, heq⟩ := hkey
      obtain ⟨-, rfl⟩ := Prod.mk.inj heq
      exact created_id hkey hne
    · rw [Function.update_of_ne hid] at hkey
      exact h.keyed jobId hmem name key hkey hne
  · intro nk
    have hpending := pending_addJob_le hcreates nk
    have hold := h.once nk
    change _ + t.successes.count nk ≤ 1
    split at hpending
    · next hnk =>
      obtain ⟨key, hkey, rfl⟩ := Option.map_eq_some_iff.mp hnk
      obtain ⟨hsuccess, hempty⟩ : _ ∧ (key = "" → _) := by
        refine hmeets.2 key hkey ?_
        by_cases hne : key = ""
        · exact .inr hne
        · exact .inl (hcreates.key_not_mem hkey hne)
      have hnone : t.pending (call.jobName, key) = 0 := by
        by_cases hne : key = ""
        · exact hempty hne
        · exact h.pending_eq_zero hne (hcreates.key_not_mem hkey hne) _
      have hcount := List.count_eq_zero.mpr hsuccess
      omega
    · omega

theorem Inv.addJob_of_not_creates {config : QueueConfig} (h : t.Inv) {call : AddCall}
    (hcreates : ¬ t.Creates config call) : (t.addJob config call).Inv := by
  have horigin : (t.addJob config call).origin = t.origin := if_neg hcreates
  have hinv := h.withState (narrows_addJob_of_not_creates h.nodup hcreates)
  rw [← horigin] at hinv
  exact hinv

/-- A settled attempt closes its job if its processor was successful, and opens none anyway. -/
theorem Inv.process {config : QueueConfig} (h : t.Inv) {jobId : String} {attempt : Attempt}
    {isDelayed : Bool} {t' : Tally} (hmeets : t.Meets config (.process jobId attempt isDelayed))
    (hs : t.process config jobId attempt isDelayed = some t') : t'.Inv := by
  obtain ⟨job, hjob, hs⟩ := Option.bind_eq_some_iff.mp hs
  obtain ⟨queue, hsettled, rfl⟩ := Option.map_eq_some_iff.mp hs
  rw [keeps_queue_processJob config attempt job t.state] at hsettled
  have hcloses : attempt.Executes config → t.state.queue.Closes jobId queue := by
    intro hexecutes
    split at hsettled
    · exact Queue.closes_complete h.nodup hsettled
    · next hrejected =>
      rcases Queue.closes_or_narrows_fail h.nodup hsettled with hcloses | ⟨-, job', hjob', hnext⟩
      · exact hcloses
      · exfalso
        rcases hmeets hexecutes with hsucceeds | hlast
        · obtain ⟨result, s', hrun⟩ := (processJob_of_succeeds job hsucceeds).1 t.state
          rw [hrun] at hrejected
          exact hrejected rfl
        · exact hlast job' hjob' hnext
  have hnarrows : t.state.queue.Narrows queue := by
    split at hsettled
    · exact (Queue.closes_complete h.nodup hsettled).narrows
    · exact Queue.narrows_fail h.nodup hsettled
  split
  · next hexecutes => exact h.of_closes (hcloses hexecutes)
  · exact h.withState hnarrows

/-- **Step lemma.** -/
theorem Inv.step {config : QueueConfig} {t t' : Tally} {event : JobEvent} (h : t.Inv)
    (hmeets : t.Meets config event) (hs : Tally.step config t event = some t') : t'.Inv := by
  cases event with
  | addJob call =>
    obtain rfl := Option.some.inj hs
    by_cases hcreates : t.Creates config call
    · exact h.addJob_of_creates hcreates hmeets
    · exact h.addJob_of_not_creates hcreates
  | promote jobId =>
    obtain ⟨queue, hpromote, rfl⟩ := Option.map_eq_some_iff.mp hs
    exact h.withState (Queue.narrows_promote h.nodup hpromote)
  | start jobId =>
    obtain ⟨queue, hstart, rfl⟩ := Option.map_eq_some_iff.mp hs
    exact h.withState (Queue.narrows_start h.nodup hstart)
  | process jobId attempt isDelayed => exact h.process hmeets hs
  | removeJob jobId getJob remove locked =>
    obtain rfl := Option.some.inj hs
    exact h.withState (narrows_removeJob h.nodup getJob remove locked jobId)
  | clear rule clean =>
    obtain rfl := Option.some.inj hs
    exact h.withState (narrows_clear h.nodup rule clean)
  | drain answer =>
    obtain rfl := Option.some.inj hs
    exact h.withState (narrows_drain h.nodup answer)

theorem inv_init {state : State} (h : state.queue.ids.Nodup) : Inv { state := state } where
  nodup := h
  keyed _ _ _ _ horigin := nomatch horigin
  once nk := by
    have hpending : Tally.pending { state := state } nk = 0 :=
      List.countP_eq_zero.mpr fun job _ hopen => nomatch (Bool.and_eq_true_iff.mp hopen).2
    rw [hpending]
    exact Nat.zero_le 1

/-- **One success for each name and key.** On a queue with any defaults and any jobs in it, over any
run of `addJob` calls, attempts and removals that meets the condition, each name and key leads to at
most one successful execution of a processor. -/
theorem onceEach_of_run (config : QueueConfig) {state : State} (h : state.queue.ids.Nodup)
    {events : List JobEvent}
    (hmeets : (system config).StepsMeet (Meets config) { state := state } events)
    {t : Tally} (hrun : (system config).runFrom { state := state } events = some t)
    (name key : String) : t.successes.count (name, key) ≤ 1 := by
  have hinv : t.Inv := System.invariant_of_stepsMeet (I := Inv)
    (fun _ _ _ hinv hmeets hs => hinv.step hmeets hs) (inv_init h) hmeets hrun
  exact (Nat.le_add_left _ _).trans (hinv.once (name, key))

end Tally

/-! ## A payment -/

/-- A queue with the default options. -/
def paymentConfig : QueueConfig where
  name := "payments"

/-- Nothing has been added yet. -/
def paymentState : State where
  queue := { jobs := [], counter := 0, defaultJobOptions := buildDefaultJobOptions none }
  dlqQueue := none

/-- The payment of the documentation. -/
def payment : AddCall where
  jobName := "payment"
  data := .null
  options := some { idempotencyKey := .value "payment-123" }
  random := 0
  now := 0
  add := .answered
  metric := .answered

/-- The payment is made. -/
def payOnce : List JobEvent :=
  [.start "payment-123", .process "payment-123" (attemptEnding (.ok .null)) false]

/-- The second call comes while the first payment is under way. -/
def payTwiceAtOnce : List JobEvent := .addJob payment :: .addJob payment :: payOnce

/-- The second call is ignored. -/
theorem onceEach_payTwiceAtOnce :
    ∃ t, (Tally.system paymentConfig).runFrom { state := paymentState } payTwiceAtOnce = some t ∧
      t.successes = [("payment", "payment-123")] ∧
      t.successes.count ("payment", "payment-123") ≤ 1 := by
  obtain ⟨t, hrun, hsuccesses⟩ :
      ∃ t, (Tally.system paymentConfig).runFrom { state := paymentState } payTwiceAtOnce = some t ∧
        t.successes = [("payment", "payment-123")] :=
    Option.map_eq_some_iff.mp (by decide +kernel)
  have hnodup : paymentState.queue.ids.Nodup := List.nodup_nil
  exact ⟨t, hrun, hsuccesses,
    Tally.onceEach_of_run paymentConfig hnodup (by decide +kernel) hrun _ _⟩

/-- The second call comes after the first payment. -/
def payTwice : List JobEvent := .addJob payment :: payOnce ++ .addJob payment :: payOnce

/-- **A payment is made twice.** The completed job is deleted, so the second call creates a job. -/
theorem not_onceEach_payTwice :
    ∃ t, (Tally.system paymentConfig).runFrom { state := paymentState } payTwice = some t ∧
      t.successes.count ("payment", "payment-123") = 2 :=
  Option.map_eq_some_iff.mp (by decide +kernel)

end KitiumJobQueue.JobQueue
