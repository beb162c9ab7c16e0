import KitiumJobQueue.Bull.Lifecycle
import KitiumJobQueue.Foundations.Effects
import KitiumJobQueue.Foundations.Histories
import KitiumJobQueue.Foundations.InsertionMaps
import KitiumJobQueue.Foundations.JavaScript

/-!
# Message groups

`FIFOQueueManager` keeps a queue for each message group in the map `queues` and the state of the
group in the map `groupStates`. The methods look for a group in `queues`. `initializeGroup` is to
set a new group up; it makes an entry in `groupStates` only.

`always_right_iff` draws the consequence for all runs: nothing ever enters `queues`
(`keeps_queues_method`), so every `addToGroup` rejects.
-/

namespace KitiumJobQueue.Fifo

open Effects JavaScript Bull

/-- `MessageGroupConfig`, as far as the manager reads it. -/
structure MessageGroupConfig where
  groupId : String
  deduplicationId : OptionalField String := .absent

/-- The options an `add` to a group is made with. -/
structure GroupJobOptions extends JobsOptions where
  group : OptionalField String := .absent

/-- The state of a group. -/
structure GroupState where
  paused : Bool
  concurrency : ℕ

/-! ## The queue of a group -/

/-- What Redis has of a queue. -/
structure GroupQueue extends Queue where
  isPaused : Bool

namespace GroupQueue

/-- The jobs of one state go to another. -/
def moveAll (q : Queue) (source target : JobState) : Queue :=
  { q with jobs := q.jobs.map fun j => if j.state = source then { j with state := target } else j }

/-- `Queue.add`; a job added to a paused queue is paused. -/
def add (q : GroupQueue) (name : String) (data : Json) (opts : GroupJobOptions) (now : ℕ) :
    String × GroupQueue :=
  let added := q.toQueue.add name data opts.toJobsOptions now
  (added.1.id,
    { q with toQueue := if q.isPaused then moveAll added.2 .waiting .paused else added.2 })

/-- `Queue.pause` -/
def pause (q : GroupQueue) : GroupQueue where
  toQueue := moveAll q.toQueue .waiting .paused
  isPaused := true

/-- `Queue.resume` -/
def resume (q : GroupQueue) : GroupQueue where
  toQueue := moveAll q.toQueue .paused .waiting
  isPaused := false

/-- `Job.remove`, and whether the job was removed: one that a worker holds is not. -/
def remove (q : GroupQueue) (id : String) : Bool × GroupQueue :=
  match q.toQueue.removeUnlocked id with
  | some q' => (true, { q with toQueue := q' })
  | none => (false, q)

end GroupQueue

/-! ## The manager -/

/-- The fields of a manager. It knows its queues by handles; `content` is what Redis has of them. -/
structure Manager where
  queues : InsertionMap String ℕ := .empty
  groupStates : InsertionMap String GroupState := .empty
  defaultConcurrencyPerGroup : ℕ := 1
  content : ℕ → GroupQueue

/-- What `getGroupJobs` tells of a job. -/
structure GroupJob where
  id : String
  data : Json
  deriving DecidableEq

/-- What `getGroupStats` counts. -/
structure GroupStats where
  total : ℕ
  waiting : ℕ
  active : ℕ
  completed : ℕ
  failed : ℕ

/-- A validation error of the manager. No method reads its stack. -/
def validationError (code message : String) : Thrown :=
  .error
    { message := message
      stack := none
      fields :=
        [("code", .str code),
          ("severity", .str "error"),
          ("kind", .str "validation"),
          ("retryable", .bool false),
          ("source", .str "@kitiumai/job-queue/fifo-queue-manager")] }

def invalidGroupId : Thrown :=
  validationError "fifo/invalid_group_id" "Message group ID is required for FIFO queue"

def groupNotFound (groupId : String) : Thrown :=
  validationError "fifo/group_not_found" ("Group " ++ groupId ++ " not found")

def failedToInitialize : Thrown :=
  .error { message := "Failed to initialize group queue", stack := none }

/-- BullMQ's error for the removal of a job that a worker holds. -/
def jobLocked (jobId : String) : Thrown :=
  .error
    { message := "Job " ++ jobId ++
        " could not be removed because it is locked by another worker"
      stack := none }

/-- A method of the manager. -/
abbrev Method := Async Thrown (Remote Manager)

/-- Read the manager's fields. -/
def readManager {α : Type} (f : Manager → α) : Method α := .read fun r => f r.server

/-- Change the manager's fields. -/
def modifyManager (f : Manager → Manager) : Method Unit :=
  .modify fun r => { r with server := f r.server }

section Methods

variable (answers : ℕ → Answer Thrown)

/-- A call of a queue. -/
def callQueue {α : Type} (groupQueue : ℕ) (op : GroupQueue → α × GroupQueue) : Method α :=
  call answers fun m =>
    let done := op (m.content groupQueue)
    (done.1, { m with content := Function.update m.content groupQueue done.2 })

/-- `FIFOQueueManager.getGroupQueueOrThrow` -/
def getGroupQueueOrThrow (groupId : String) : Method ℕ := do
  match ← readManager fun m => m.queues.get groupId with
  | some groupQueue => pure groupQueue
  | none => throw (groupNotFound groupId)

/-- `FIFOQueueManager.initializeGroup` -/
def initializeGroup (groupId : String) : Method Unit :=
  modifyManager fun m =>
    let state := { paused := false, concurrency := m.defaultConcurrencyPerGroup }
    { m with groupStates := m.groupStates.set groupId state }

/-- The queue of a group, after an attempt to set the group up. -/
def getOrCreateGroupQueue (groupId : String) : Method ℕ := do
  match ← readManager fun m => m.queues.get groupId with
  | some groupQueue => pure groupQueue
  | none => do
    initializeGroup groupId
    match ← readManager fun m => m.queues.get groupId with
    | some groupQueue => pure groupQueue
    | none => throw failedToInitialize

/-- The options of an `addToGroup`. -/
def groupJobOptions (groupConfig : MessageGroupConfig) (options : Option GroupJobOptions) :
    GroupJobOptions :=
  let jobOptions := { options.getD {} with group := .value groupConfig.groupId }
  match groupConfig.deduplicationId.toOption.filter (· ≠ "") with
  | some deduplicationId =>
    { jobOptions with jobId := .value (groupConfig.groupId ++ ":" ++ deduplicationId) }
  | none => jobOptions

/-- `FIFOQueueManager.addToGroup` -/
def addToGroup (jobName : String) (data : Json) (groupConfig : MessageGroupConfig)
    (options : Option GroupJobOptions) (now : ℕ) : Method String :=
  tryCatch
    (if isBlank groupConfig.groupId then throw invalidGroupId
    else do
      let groupQueue ← getOrCreateGroupQueue groupConfig.groupId
      callQueue answers groupQueue fun q =>
        q.add jobName data (groupJobOptions groupConfig options) now)
    fun error => throw error

/-- `FIFOQueueManager.getGroupJobs` -/
def getGroupJobs (groupId : String) (limit : ℕ) : Method (List GroupJob) :=
  tryCatch
    (do
      match ← readManager fun m => m.queues.get groupId with
      | none => pure []
      | some groupQueue => do
        let jobs ← callQueue answers groupQueue fun q =>
          (q.getJobsOf [.waiting, .active] 0 ((limit : ℤ) - 1), q)
        pure (jobs.map fun job => ⟨job.id, job.data⟩))
    fun _ => pure []

/-- `FIFOQueueManager.listGroups` -/
def listGroups : Method (List String) := readManager fun m => m.queues.keys

/-- `Queue.getWaitingCount` and the like. -/
def getCount (groupQueue : ℕ) (state : JobState) : Method ℕ :=
  callQueue answers groupQueue fun q => (q.getJobCountByTypes [state], q)

/-- `FIFOQueueManager.getGroupStats` -/
def getGroupStats (groupId : String) : Method GroupStats :=
  tryCatch
    (do
      let groupQueue ← getGroupQueueOrThrow groupId
      let counts ← Async.all
        ([.waiting, .active, .completed, .failed].map (getCount answers groupQueue))
      let count (i : ℕ) := counts.getD i 0
      pure
        { total := count 0 + count 1 + count 2 + count 3
          waiting := count 0
          active := count 1
          completed := count 2
          failed := count 3 })
    fun error => throw error

/-- The loop of `drainGroup`. -/
def drainJobs (groupQueue : ℕ) : List GroupJob → ℕ → Method ℕ
  | [], drained => pure drained
  | job :: jobs, drained => do
    match ← callQueue answers groupQueue fun q => (q.getJob job.id, q) with
    | none => drainJobs groupQueue jobs drained
    | some _ => do
      if ← callQueue answers groupQueue fun q => q.remove job.id then
        drainJobs groupQueue jobs (drained + 1)
      else throw (jobLocked job.id)

/-- `FIFOQueueManager.drainGroup` -/
def drainGroup (groupId : String) : Method ℕ :=
  tryCatch
    (do
      match ← readManager fun m => m.queues.get groupId with
      | none => pure 0
      | some groupQueue => do
        let jobs ← getGroupJobs answers groupId 10000
        drainJobs answers groupQueue jobs 0)
    fun error => throw error

/-- Record whether a group is paused. -/
def setPaused (groupId : String) (paused : Bool) : Method Unit :=
  modifyManager fun m =>
    let state := (m.groupStates.get groupId).getD
      { paused := false, concurrency := m.defaultConcurrencyPerGroup }
    { m with groupStates := m.groupStates.set groupId { state with paused := paused } }

/-- `FIFOQueueManager.pauseGroup` -/
def pauseGroup (groupId : String) : Method Unit :=
  tryCatch
    (do
      let groupQueue ← getGroupQueueOrThrow groupId
      callQueue answers groupQueue fun q => ((), q.pause)
      setPaused groupId true)
    fun error => throw error

/-- `FIFOQueueManager.resumeGroup` -/
def resumeGroup (groupId : String) : Method Unit :=
  tryCatch
    (do
      let groupQueue ← getGroupQueueOrThrow groupId
      callQueue answers groupQueue fun q => ((), q.resume)
      setPaused groupId false)
    fun error => throw error

/-! ## Runs -/

/-- A call of a method. -/
inductive Call
  | addToGroup (jobName : String) (data : Json) (groupConfig : MessageGroupConfig)
      (options : Option GroupJobOptions) (now : ℕ)
  | getGroupJobs (groupId : String) (limit : ℕ)
  | listGroups
  | getGroupStats (groupId : String)
  | drainGroup (groupId : String)
  | pauseGroup (groupId : String)
  | resumeGroup (groupId : String)

/-- What a method resolves with. -/
inductive Reply
  | jobId (id : String)
  | jobs (jobs : List GroupJob)
  | groups (groupIds : List String)
  | stats (stats : GroupStats)
  | drained (count : ℕ)
  | done

/-- The method of a call. -/
def method : Call → Method Reply
  | .addToGroup jobName data groupConfig options now => do
    let id ← addToGroup answers jobName data groupConfig options now
    pure (.jobId id)
  | .getGroupJobs groupId limit => do
    let jobs ← getGroupJobs answers groupId limit
    pure (.jobs jobs)
  | .listGroups => do
    let groupIds ← listGroups
    pure (.groups groupIds)
  | .getGroupStats groupId => do
    let stats ← getGroupStats answers groupId
    pure (.stats stats)
  | .drainGroup groupId => do
    let count ← drainGroup answers groupId
    pure (.drained count)
  | .pauseGroup groupId => do
    pauseGroup answers groupId
    pure .done
  | .resumeGroup groupId => do
    resumeGroup answers groupId
    pure .done

/-- A call that is over: what it ended with, and the manager it left. -/
structure Event where
  call : Call
  answer : Except Thrown Reply
  after : Manager

/-- A call made in a state. -/
def eventOf (call : Call) (r : Remote Manager) : Event where
  call := call
  answer := ((method answers call).run r).1
  after := ((method answers call).run r).2.server

/-- The history of a run, the latest event first, after an earlier one. -/
def history : List Call → Remote Manager → List Event → List Event
  | [], _, past => past
  | call :: calls, r, past =>
    history calls ((method answers call).run r).2 (eventOf answers call r :: past)

end Methods

/-! ## What the manager is for -/

/-- The group an `addToGroup` is for. -/
def Call.addsTo? : Call → Option String
  | .addToGroup _ _ groupConfig _ _ => some groupConfig.groupId
  | _ => none

/-- The groups used so far. -/
def used (past : List Event) : List String := past.filterMap fun event => event.call.addsTo?

/-- The jobs of a group that were added and not drained since, in the order in which they were
added. A job that is there already is not added again. -/
def unfinished (groupId : String) : List Event → List GroupJob
  | [] => []
  | ⟨.addToGroup _ data groupConfig _ _, .ok (.jobId id), _⟩ :: past =>
    if groupConfig.groupId = groupId ∧ ∀ job ∈ unfinished groupId past, job.id ≠ id then
      unfinished groupId past ++ [⟨id, data⟩]
    else unfinished groupId past
  | ⟨.drainGroup drained, .ok _, _⟩ :: past =>
    if drained = groupId then [] else unfinished groupId past
  | _ :: past => unfinished groupId past

/-- Calls as they are meant: no blank group is added to, and the other calls are about groups used
before. -/
def Allowed (event : Event) (past : List Event) : Prop :=
  match event.call with
  | .addToGroup _ _ groupConfig _ _ => isBlank groupConfig.groupId = false
  | .listGroups => True
  | .getGroupJobs groupId _ | .getGroupStats groupId | .drainGroup groupId | .pauseGroup groupId
  | .resumeGroup groupId => groupId ∈ used past

/-- The answers that are meant. -/
def Right (event : Event) (past : List Event) : Prop :=
  match event.call with
  | .addToGroup _ data groupConfig _ _ =>
    ∃ id groupQueue job, event.answer = .ok (.jobId id) ∧
      event.after.queues.get groupConfig.groupId = some groupQueue ∧
      (event.after.content groupQueue).getJob id = some job ∧ job.data = data
  | .listGroups =>
    ∃ groupIds, event.answer = .ok (.groups groupIds) ∧ groupIds.Nodup ∧
      ∀ groupId, groupId ∈ groupIds ↔ groupId ∈ used past
  | .getGroupJobs groupId limit =>
    event.answer = .ok (.jobs ((unfinished groupId past).take limit))
  | .getGroupStats _ => ∃ stats, event.answer = .ok (.stats stats)
  | .drainGroup _ => True
  | .pauseGroup _ | .resumeGroup _ => event.answer = .ok .done

/-! ## The map of queues -/

section Keeps

variable (answers : ℕ → Answer Thrown)

/-- The queues of the groups. -/
def queuesOf (r : Remote Manager) : InsertionMap String ℕ := r.server.queues

theorem keeps_queues_callQueue {α : Type} (groupQueue : ℕ) (op : GroupQueue → α × GroupQueue) :
    (callQueue answers groupQueue op).Keeps queuesOf :=
  Async.Keeps.call (fun _ => rfl) answers

theorem keeps_queues_getGroupQueueOrThrow (groupId : String) :
    (getGroupQueueOrThrow groupId).Keeps queuesOf := by
  refine .bind (.read _) fun groupQueue => ?_
  cases groupQueue with
  | none => exact .throw _
  | some groupQueue => exact .pure _

theorem keeps_queues_getOrCreateGroupQueue (groupId : String) :
    (getOrCreateGroupQueue groupId).Keeps queuesOf := by
  refine .bind (.read _) fun groupQueue => ?_
  cases groupQueue with
  | some groupQueue => exact .pure _
  | none =>
    refine .bind (Async.Acts.modify fun _ => rfl) fun _ => .bind (.read _) fun groupQueue => ?_
    cases groupQueue with
    | none => exact .throw _
    | some groupQueue => exact .pure _

theorem keeps_queues_addToGroup (jobName : String) (data : Json)
    (groupConfig : MessageGroupConfig) (options : Option GroupJobOptions) (now : ℕ) :
    (addToGroup answers jobName data groupConfig options now).Keeps queuesOf := by
  refine .handle ?_ fun error => .throw error
  split
  · exact .throw _
  · exact .bind (keeps_queues_getOrCreateGroupQueue _) fun _ => keeps_queues_callQueue _ _ _

theorem keeps_queues_getGroupJobs (groupId : String) (limit : ℕ) :
    (getGroupJobs answers groupId limit).Keeps queuesOf := by
  refine .handle (.bind (.read _) fun groupQueue => ?_) fun _ => .pure _
  cases groupQueue with
  | none => exact .pure _
  | some groupQueue => exact .bind (keeps_queues_callQueue _ _ _) fun _ => .pure _

theorem keeps_queues_getGroupStats (groupId : String) :
    (getGroupStats answers groupId).Keeps queuesOf := by
  refine .handle (.bind (keeps_queues_getGroupQueueOrThrow _) fun groupQueue => ?_)
    fun error => .throw error
  refine .bind (.all fun m hm => ?_) fun _ => .pure _
  obtain ⟨state, -, rfl⟩ := List.mem_map.mp hm
  exact keeps_queues_callQueue _ _ _

theorem keeps_queues_drainJobs (groupQueue : ℕ) (jobs : List GroupJob) (drained : ℕ) :
    (drainJobs answers groupQueue jobs drained).Keeps queuesOf := by
  induction jobs generalizing drained with
  | nil => exact .pure _
  | cons job jobs ih =>
    refine .bind (keeps_queues_callQueue _ _ _) fun bullJob => ?_
    cases bullJob with
    | none => exact ih drained
    | some bullJob =>
      refine .bind (keeps_queues_callQueue _ _ _) fun isRemoved => ?_
      cases isRemoved with
      | false => exact .throw _
      | true => exact ih (drained + 1)

theorem keeps_queues_drainGroup (groupId : String) :
    (drainGroup answers groupId).Keeps queuesOf := by
  refine .handle (.bind (.read _) fun groupQueue => ?_) fun error => .throw error
  cases groupQueue with
  | none => exact .pure _
  | some groupQueue =>
    exact .bind (keeps_queues_getGroupJobs _ _ _) fun jobs => keeps_queues_drainJobs _ _ _ _

theorem keeps_queues_setPaused (groupId : String) (paused : Bool) :
    (setPaused groupId paused).Keeps queuesOf :=
  Async.Acts.modify fun _ => rfl

/-- **No method changes the map of queues.** -/
theorem keeps_queues_method (call : Call) : (method answers call).Keeps queuesOf := by
  cases call with
  | addToGroup jobName data groupConfig options now =>
    exact .bind (keeps_queues_addToGroup _ _ _ _ _ _) fun _ => .pure _
  | getGroupJobs groupId limit => exact .bind (keeps_queues_getGroupJobs _ _ _) fun _ => .pure _
  | listGroups => exact .bind (.read _) fun _ => .pure _
  | getGroupStats groupId => exact .bind (keeps_queues_getGroupStats _ _) fun _ => .pure _
  | drainGroup groupId => exact .bind (keeps_queues_drainGroup _ _) fun _ => .pure _
  | pauseGroup groupId | resumeGroup groupId =>
    refine .bind (.handle ?_ fun error => .throw error) fun _ => .pure _
    exact .bind (keeps_queues_getGroupQueueOrThrow _) fun _ =>
      .bind (keeps_queues_callQueue _ _ _) fun _ => keeps_queues_setPaused _ _

end Keeps

/-! ## The answers of a manager without queues -/

section Answers

variable {r : Remote Manager} {groupId : String}

/-- A group that has no queue is not given one. -/
theorem run_addToGroup_of_get_eq_none (answers : ℕ → Answer Thrown) (jobName : String)
    (data : Json) {groupConfig : MessageGroupConfig} (options : Option GroupJobOptions) (now : ℕ)
    (h : r.server.queues.get groupConfig.groupId = none)
    (hblank : isBlank groupConfig.groupId = false) :
    ((addToGroup answers jobName data groupConfig options now).run r).1 =
      .error failedToInitialize := by
  have hcreate : ((getOrCreateGroupQueue groupConfig.groupId).run r).1 =
      .error failedToInitialize := by
    simp [getOrCreateGroupQueue, readManager, initializeGroup, modifyManager, Async.run_bind, h]
  rcases hrun : (getOrCreateGroupQueue groupConfig.groupId).run r with ⟨result, r'⟩
  rw [hrun] at hcreate
  subst hcreate
  unfold addToGroup
  rw [hblank, if_neg Bool.false_ne_true,
    Async.run_tryCatch_of_error (Async.run_bind_of_error hrun)]
  rfl

end Answers

/-! ## All runs -/

section Runs

variable (answers : ℕ → Answer Thrown)

/-- A manager as it is constructed. -/
def Manager.fresh (content : ℕ → GroupQueue) (defaultConcurrencyPerGroup : ℕ) : Manager where
  defaultConcurrencyPerGroup := defaultConcurrencyPerGroup
  content := content

/-- The call adds to a group. -/
def Call.Adds (call : Call) : Prop := call.addsTo? ≠ none

instance : DecidablePred Call.Adds := fun call => inferInstanceAs (Decidable (call.addsTo? ≠ none))

/-- A history goes on from the earlier one. -/
theorem suffix_history (calls : List Call) (r : Remote Manager) (past : List Event) :
    past <:+ history answers calls r past := by
  induction calls generalizing r past with
  | nil => exact List.suffix_rfl
  | cons call calls ih => exact (List.suffix_cons _ past).trans (ih _ _)

variable {answers}

/-- An `addToGroup` does not end as it should. -/
theorem not_right_of_adds {call : Call} {r : Remote Manager} {past : List Event}
    (hqueues : queuesOf r = .empty) (hadds : call.Adds)
    (hallowed : Allowed (eventOf answers call r) past) :
    ¬ Right (eventOf answers call r) past := by
  cases call with
  | addToGroup jobName data groupConfig options now =>
    have hget : r.server.queues.get groupConfig.groupId = none := by
      change (queuesOf r).get _ = none
      rw [hqueues]
      rfl
    have herror := run_addToGroup_of_get_eq_none answers jobName data options now hget hallowed
    rintro ⟨id, groupQueue, job, hanswer, -⟩
    have hanswer : ((method answers (.addToGroup jobName data groupConfig options now)).run r).1 =
        .ok (.jobId id) := hanswer
    rw [method, Async.run_bind_pure, herror] at hanswer
    exact absurd hanswer (by simp [Except.map])
  | getGroupJobs | listGroups | getGroupStats | drainGroup | pauseGroup | resumeGroup =>
    exact absurd rfl hadds

/-- Where no group has been used, the only other call there is lists none. -/
theorem right_of_not_adds {call : Call} {r : Remote Manager} {past : List Event}
    (hqueues : queuesOf r = .empty) (hused : used past = []) (hadds : ¬ call.Adds)
    (hallowed : Allowed (eventOf answers call r) past) :
    Right (eventOf answers call r) past := by
  cases call with
  | addToGroup => exact absurd (Option.some_ne_none _) hadds
  | listGroups =>
    refine ⟨(queuesOf r).keys, rfl, (queuesOf r).nodup, fun groupId => ?_⟩
    rw [hqueues, hused]
    exact Iff.rfl
  | getGroupJobs | getGroupStats | drainGroup | pauseGroup | resumeGroup =>
    have hmem : _ ∈ used past := hallowed
    rw [hused] at hmem
    exact absurd hmem List.not_mem_nil

theorem used_cons_of_not_adds {call : Call} (h : call.addsTo? = none) {r : Remote Manager}
    {past : List Event} : used (eventOf answers call r :: past) = used past := by
  simp [used, eventOf, h]

theorem always_right_history_iff {calls : List Call} {r : Remote Manager} {past : List Event}
    (hqueues : queuesOf r = .empty) (hused : used past = [])
    (hpast : History.Always Right past)
    (hallowed : History.Always Allowed (history answers calls r past)) :
    History.Always Right (history answers calls r past) ↔ ∀ call ∈ calls, ¬ call.Adds := by
  induction calls generalizing r past with
  | nil => exact iff_of_true hpast fun _ hmem => absurd hmem List.not_mem_nil
  | cons call calls ih =>
    have hsuffix := suffix_history answers calls ((method answers call).run r).2
      (eventOf answers call r :: past)
    have hevent := (History.Always.of_suffix hallowed hsuffix).1
    by_cases hadds : call.Adds
    · refine iff_of_false (fun hright => ?_) fun hall => hall call List.mem_cons_self hadds
      exact not_right_of_adds hqueues hadds hevent (History.Always.of_suffix hright hsuffix).1
    · have hnone : call.addsTo? = none := not_not.mp hadds
      have hright := right_of_not_adds hqueues hused hadds hevent
      rw [List.forall_mem_cons, and_iff_right hadds]
      refine ih ?_ ?_ ⟨hright, hpast⟩ hallowed
      · exact (keeps_queues_method answers call r).trans hqueues
      · rw [used_cons_of_not_adds hnone]
        exact hused

/-- **All calls of a run end as they should exactly if none of them adds to a group**, whatever the
queue calls would be answered with. -/
theorem always_right_iff {content : ℕ → GroupQueue} {concurrency n : ℕ} {calls : List Call}
    (hallowed : History.Always Allowed
      (history answers calls ⟨.fresh content concurrency, n⟩ [])) :
    History.Always Right (history answers calls ⟨.fresh content concurrency, n⟩ []) ↔
      ∀ call ∈ calls, ¬ call.Adds :=
  always_right_history_iff rfl rfl trivial hallowed

/-- Redis without jobs. -/
def noContent : ℕ → GroupQueue := fun _ =>
  { jobs := [], counter := 0, defaultJobOptions := {}, isPaused := false }

/-- An order for one customer. -/
def addOrder : Call := .addToGroup "process-order" .null { groupId := "customer-123" } none 900

/-- A customer orders; the group is paused, and its jobs and all groups are listed. -/
def orderingRun : List Call :=
  [.listGroups, addOrder, .pauseGroup "customer-123", .getGroupJobs "customer-123" 10, .listGroups]

/-- A run that only lists the groups, and one in which a group is used. -/
theorem always_right_listGroups :
    History.Always Right (history (fun _ => .answered) [.listGroups, .listGroups]
      ⟨.fresh noContent 1, 0⟩ []) ∧
    ¬ History.Always Right (history (fun _ => .answered) orderingRun
      ⟨.fresh noContent 1, 0⟩ []) := by
  have hlisting : History.Always Allowed (history (fun _ => .answered) [.listGroups, .listGroups]
      ⟨.fresh noContent 1, 0⟩ []) := ⟨trivial, trivial, trivial⟩
  have hblank : isBlank "customer-123" = false := by decide +kernel
  have hordering : History.Always Allowed (history (fun _ => .answered) orderingRun
      ⟨.fresh noContent 1, 0⟩ []) :=
    ⟨trivial, List.mem_cons_self, List.mem_cons_self, hblank, trivial, trivial⟩
  refine ⟨(always_right_iff hlisting).mpr (by decide), fun hright => ?_⟩
  exact (always_right_iff hordering).mp hright addOrder (by simp [orderingRun]) (by decide)

/-- The first job of a group is not accepted. -/
theorem not_always_right_addOrder :
    ¬ ∀ (content : ℕ → GroupQueue) (calls : List Call),
      History.Always Allowed
          (history (fun _ => .answered) calls ⟨.fresh content 1, 0⟩ []) →
        History.Always Right (history (fun _ => .answered) calls ⟨.fresh content 1, 0⟩ []) := by
  intro hclaim
  have hblank : isBlank "customer-123" = false := by decide +kernel
  have hright := (hclaim noContent [addOrder] ⟨hblank, trivial⟩).1
  have hadds : addOrder.Adds := by decide
  exact not_right_of_adds rfl hadds hblank hright

end Runs

end KitiumJobQueue.Fifo
