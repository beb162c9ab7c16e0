import KitiumJobQueue.Foundations.Effects
import KitiumJobQueue.Foundations.InsertionMaps
import KitiumJobQueue.Foundations.JavaScript
import KitiumJobQueue.Foundations.Numbers
import KitiumJobQueue.Redis.Store

/-!
# Stored workflows

`JobChainManager.serializeWorkflow` and `deserializeWorkflow` with the text between them, and the
two methods that read a workflow back, `getWorkflowStatus` and `cancelWorkflow`.

What comes back is computed in general (`deserialize_serialize`): the id, the status and the steps
are what they were, but the other fields are read through tests of truth. `sound_iff` says of which
workflows the round trip gives the same one.
-/

namespace KitiumJobQueue.JobChain

open Effects JavaScript

/-! ## Workflows -/

/-- `WorkflowExecutionResult.status` -/
inductive WorkflowStatus
  | running
  | completed
  | failed
  | cancelled
  deriving DecidableEq

/-- The string a status is. -/
def WorkflowStatus.text : WorkflowStatus → String
  | .running => "running"
  | .completed => "completed"
  | .failed => "failed"
  | .cancelled => "cancelled"

/-- A workflow, with the message of its error. The result of a step is any JSON value. -/
@[ext] structure WorkflowExecutionResult where
  workflowId : String
  status : WorkflowStatus
  stepResults : InsertionMap String Json
  error : Option String := none
  startedAt : Number
  completedAt : Option Number := none

/-- The workflow cancelled at a time. -/
def WorkflowExecutionResult.cancelled (w : WorkflowExecutionResult) (cancelledAt : ℕ) :
    WorkflowExecutionResult :=
  { w with status := .cancelled, completedAt := some (.num cancelledAt) }

/-- A number as `JSON.stringify` writes it. -/
def numberJson : Number → Json
  | .num q => .num q
  | .nan | .negInfinity | .posInfinity => .null

/-- An entry of the steps as an array of two. -/
def entryJson (entry : String × Json) : Json := .arr [.str entry.1, entry.2]

/-- `serializeWorkflow`, and the text made of it. -/
def serializeWorkflow (workflow : WorkflowExecutionResult) : Json :=
  .ofFields
    [("workflowId", some (.str workflow.workflowId)),
      ("status", some (.str workflow.status.text)),
      ("stepResults", some (.arr (workflow.stepResults.entries.map entryJson))),
      ("error", workflow.error.map .str),
      ("startedAt", some (numberJson workflow.startedAt)),
      ("completedAt", workflow.completedAt.map numberJson)]

/-! ## Reading back -/

/-- What `deserializeWorkflow` makes of values of another type than is written in their place:
`String` and `Number` of them, a cast, and the first two elements of a value that is no array of two
whose first is a string. -/
structure Conversions where
  string : Json → String
  number : Json → Number
  status : Json → WorkflowStatus
  entry : Json → Except Thrown (String × Json)

/-- Whether a property is truthy. -/
def isTruthy : Option Json → Bool
  | none | some .null => false
  | some (.bool b) => b
  | some (.num q) => q ≠ 0
  | some (.str s) => s ≠ ""
  | some (.arr _) | some (.obj _) => true

/-- Whether a number is truthy. -/
def isTruthyNumber : Number → Bool
  | .nan => false
  | .num q => q ≠ 0
  | .negInfinity | .posInfinity => true

/-- What is thrown where `null` is stored; no method reads its stack. -/
def propertyOfNull : Thrown :=
  .error
    { message := "Cannot read properties of null (reading 'stepResults')"
      stack := none }

section

variable (conversions : Conversions)

/-- `String(value)` -/
def stringOf : Option Json → String
  | none => "undefined"
  | some (.str s) => s
  | some v => conversions.string v

/-- `Number(value)` -/
def numberOf : Option Json → Number
  | none => .nan
  | some .null => .num 0
  | some (.num q) => .num q
  | some v => conversions.number v

/-- The status that is cast, `running` if there is none. -/
def statusOf : Option Json → WorkflowStatus
  | none | some .null => .running
  | some (.str "running") => .running
  | some (.str "completed") => .completed
  | some (.str "failed") => .failed
  | some (.str "cancelled") => .cancelled
  | some v => conversions.status v

/-- `[stepName, result]` -/
def entryOf : Json → Except Thrown (String × Json)
  | .arr (.str stepName :: result :: _) => .ok (stepName, result)
  | v => conversions.entry v

/-- The loop over the steps. -/
def setSteps : List Json → InsertionMap String Json → Except Thrown (InsertionMap String Json)
  | [], stepResults => .ok stepResults
  | entry :: rest, stepResults => do
    let (stepName, result) ← entryOf conversions entry
    setSteps rest (stepResults.set stepName result)

/-- `data['stepResults']` as a map. -/
def stepsOf : Option Json → Except Thrown (InsertionMap String Json)
  | some (.arr entries) => setSteps conversions entries .empty
  | _ => .ok .empty

/-- `deserializeWorkflow`, at a time. -/
def deserializeWorkflow (now : ℕ) (data : Json) : Except Thrown WorkflowExecutionResult := do
  if data = .null then throw propertyOfNull
  let stepResults ← stepsOf conversions (data.get? "stepResults")
  let startedAt := numberOf conversions (data.get? "startedAt")
  pure
    { workflowId := stringOf conversions (data.get? "workflowId")
      status := statusOf conversions (data.get? "status")
      stepResults := stepResults
      error :=
        if isTruthy (data.get? "error") then some (stringOf conversions (data.get? "error"))
        else none
      startedAt := if isTruthyNumber startedAt then startedAt else .num now
      completedAt :=
        if isTruthy (data.get? "completedAt") then
          some (numberOf conversions (data.get? "completedAt"))
        else none }

end

/-! ## The methods -/

/-- `buildWorkflowKey` -/
def buildWorkflowKey (keyPrefix workflowId : String) : String :=
  keyPrefix ++ ":workflow:" ++ workflowId

/-- The lifetime of a stored workflow in milliseconds. -/
def workflowLifetime : ℕ := 604800 * 1000

/-- The error for a workflow that is not there. No method reads its stack. -/
def workflowNotFound (workflowId : String) : Thrown :=
  .error
    { message := s!"Workflow {workflowId} not found"
      stack := none
      fields :=
        [("code", .str "workflow/not_found"),
          ("severity", .str "error"),
          ("kind", .str "not_found"),
          ("retryable", .bool false),
          ("source", .str "@kitiumai/job-queue/job-chain-manager")] }

section

variable (conversions : Conversions) (keyPrefix : String) (answers : ℕ → Answer Thrown)
  (readAt cancelledAt : ℕ)

/-- `getWorkflowStatus`, at the time `readAt`. -/
def getWorkflowStatus (workflowId : String) :
    Async Thrown (Remote (Redis.Store Json)) WorkflowExecutionResult := do
  match ← call answers fun r => (r.get readAt (buildWorkflowKey keyPrefix workflowId), r) with
  | none => throw (workflowNotFound workflowId)
  | some data => ⟨fun r => (deserializeWorkflow conversions readAt data, r)⟩

/-- `cancelWorkflow`, which reads the workflow at `readAt` and writes it at `cancelledAt`. -/
def cancelWorkflow (workflowId : String) : Async Thrown (Remote (Redis.Store Json)) Unit := do
  let workflow ← getWorkflowStatus conversions keyPrefix answers readAt workflowId
  call answers fun r => ((), r.set (buildWorkflowKey keyPrefix workflowId)
    (serializeWorkflow (workflow.cancelled cancelledAt)) (some (cancelledAt + workflowLifetime)))

end

/-! ## What comes back -/

/-- A workflow as it comes back at a time. -/
def WorkflowExecutionResult.readAt (w : WorkflowExecutionResult) (now : ℕ) :
    WorkflowExecutionResult where
  workflowId := w.workflowId
  status := w.status
  stepResults := w.stepResults
  error := w.error.filter (· ≠ "")
  startedAt :=
    match w.startedAt with
    | .num q => if q ≠ 0 then .num q else .num now
    | .nan | .negInfinity | .posInfinity => .num now
  completedAt := w.completedAt.filter fun t => isTruthy (numberJson t)

variable {conversions : Conversions}

@[simp] theorem statusOf_text (status : WorkflowStatus) :
    statusOf conversions (some (.str status.text)) = status := by
  cases status <;> rfl

/-- The steps that were written come back one after another. -/
theorem setSteps_map_entryJson (entries : List (String × Json)) (m : InsertionMap String Json) :
    setSteps conversions (entries.map entryJson) m =
      .ok (entries.foldl (fun m e => m.set e.1 e.2) m) := by
  induction entries generalizing m with
  | nil => rfl
  | cons e entries ih => exact ih (m.set e.1 e.2)

theorem stepsOf_entries (m : InsertionMap String Json) :
    stepsOf conversions (some (.arr (m.entries.map entryJson))) = .ok m := by
  rw [stepsOf, setSteps_map_entryJson, m.foldl_set_entries]

/-- A property of a stored workflow is what was written under its name. -/
theorem get?_serializeWorkflow (w : WorkflowExecutionResult) (name : String) :
    (serializeWorkflow w).get? name =
      ([("workflowId", some (.str w.workflowId)), ("status", some (.str w.status.text)),
        ("stepResults", some (.arr (w.stepResults.entries.map entryJson))),
        ("error", w.error.map .str), ("startedAt", some (numberJson w.startedAt)),
        ("completedAt", w.completedAt.map numberJson)].lookup name).join := by
  rw [serializeWorkflow, Json.get?_ofFields (by simp)]

theorem error_readAt (error : Option String) :
    (if isTruthy (error.map .str) then some (stringOf conversions (error.map .str)) else none) =
      error.filter (· ≠ "") := by
  cases error with
  | none => rfl
  | some message => simp [isTruthy, stringOf, Option.filter]

theorem completedAt_readAt (completedAt : Option Number) :
    (if isTruthy (completedAt.map numberJson) then
        some (numberOf conversions (completedAt.map numberJson)) else none) =
      completedAt.filter fun t => isTruthy (numberJson t) := by
  cases completedAt with
  | none => rfl
  | some t => cases t <;> simp [isTruthy, numberOf, numberJson, Option.filter]

theorem startedAt_readAt (startedAt : Number) (now : ℕ) :
    (if isTruthyNumber (numberOf conversions (some (numberJson startedAt))) then
        numberOf conversions (some (numberJson startedAt)) else .num now) =
      match startedAt with
      | .num q => if q ≠ 0 then .num q else .num now
      | .nan | .negInfinity | .posInfinity => .num now := by
  cases startedAt <;> simp [isTruthyNumber, numberOf, numberJson]

/-- What the round trip makes of a workflow. -/
theorem deserialize_serialize (w : WorkflowExecutionResult) (now : ℕ) :
    deserializeWorkflow conversions now (serializeWorkflow w) = .ok (w.readAt now) := by
  have hsteps : (serializeWorkflow w).get? "stepResults" =
      some (.arr (w.stepResults.entries.map entryJson)) := get?_serializeWorkflow w _
  have hstarted : (serializeWorkflow w).get? "startedAt" = some (numberJson w.startedAt) :=
    get?_serializeWorkflow w _
  have herror : (serializeWorkflow w).get? "error" = w.error.map .str :=
    get?_serializeWorkflow w _
  have hcompleted : (serializeWorkflow w).get? "completedAt" = w.completedAt.map numberJson :=
    get?_serializeWorkflow w _
  have hid : (serializeWorkflow w).get? "workflowId" = some (.str w.workflowId) :=
    get?_serializeWorkflow w _
  have hstatus : (serializeWorkflow w).get? "status" = some (.str w.status.text) :=
    get?_serializeWorkflow w _
  unfold deserializeWorkflow
  rw [if_neg (by simp [serializeWorkflow, Json.ofFields]), hsteps, hstarted, herror, hcompleted,
    hid, hstatus, stepsOf_entries, error_readAt, completedAt_readAt, statusOf_text]
  exact congrArg (fun startedAt => Except.ok { w.readAt now with startedAt })
    (startedAt_readAt w.startedAt now)

/-- A workflow that comes back as it is: its error has a message, and its times are numbers that
the tests of truth let pass. -/
structure WorkflowExecutionResult.IsKept (w : WorkflowExecutionResult) (now : ℕ) : Prop where
  error : w.error ≠ some ""
  startedAt : ∃ q, w.startedAt = .num q ∧ (q ≠ 0 ∨ now = 0)
  completedAt : ∀ t, w.completedAt = some t → ∃ q, t = .num q ∧ q ≠ 0

variable {w : WorkflowExecutionResult} {now cancelledAt : ℕ}

theorem error_readAt_eq_iff : (w.readAt now).error = w.error ↔ w.error ≠ some "" := by
  change w.error.filter _ = w.error ↔ _
  cases w.error with
  | none => simp
  | some message => simp [Option.filter_eq_some_iff]

theorem startedAt_readAt_eq_iff :
    (w.readAt now).startedAt = w.startedAt ↔ ∃ q, w.startedAt = .num q ∧ (q ≠ 0 ∨ now = 0) := by
  unfold WorkflowExecutionResult.readAt
  cases w.startedAt with
  | num q =>
    by_cases hq : q = 0
    · simp [hq]
    · simp [hq]
  | nan | negInfinity | posInfinity => simp

theorem completedAt_readAt_eq_iff :
    (w.readAt now).completedAt = w.completedAt ↔
      ∀ t, w.completedAt = some t → ∃ q, t = .num q ∧ q ≠ 0 := by
  change w.completedAt.filter _ = w.completedAt ↔ _
  cases w.completedAt with
  | none => simp
  | some t => cases t <;> simp [Option.filter_eq_some_iff, isTruthy, numberJson]

theorem readAt_eq_iff : w.readAt now = w ↔ w.IsKept now := by
  constructor
  · intro h
    exact
      { error := error_readAt_eq_iff.mp (congrArg WorkflowExecutionResult.error h)
        startedAt := startedAt_readAt_eq_iff.mp (congrArg WorkflowExecutionResult.startedAt h)
        completedAt :=
          completedAt_readAt_eq_iff.mp (congrArg WorkflowExecutionResult.completedAt h) }
  · intro h
    ext1
    · rfl
    · rfl
    · rfl
    · exact error_readAt_eq_iff.mpr h.error
    · exact startedAt_readAt_eq_iff.mpr h.startedAt
    · exact completedAt_readAt_eq_iff.mpr h.completedAt

/-! ## Cancelling -/

/-- There is `v` under the key of a workflow. -/
def IsStored (keyPrefix : String) (w : WorkflowExecutionResult) (r : Redis.Store Json) (v : Json) :
    Prop :=
  (r.lookup (buildWorkflowKey keyPrefix w.workflowId)).map Redis.Entry.value = some v

section

variable (conversions : Conversions) {keyPrefix : String} (answers : ℕ → Answer Thrown)
variable (cancelledAt : ℕ) {readAt : ℕ} {r : Remote (Redis.Store Json)}

theorem isStored_of_get
    (h : r.server.get readAt (buildWorkflowKey keyPrefix w.workflowId) =
      some (serializeWorkflow w)) : IsStored keyPrefix w r.server (serializeWorkflow w) := by
  obtain ⟨e, hlookup, -, hvalue⟩ := Redis.Store.get_eq_some.mp h
  rw [IsStored, hlookup, ← hvalue]
  rfl

theorem isStored_set (v : Json) (expiresAt : Option ℕ) (store : Redis.Store Json) :
    IsStored keyPrefix w (store.set (buildWorkflowKey keyPrefix w.workflowId) v expiresAt) v := by
  rw [IsStored, Redis.Store.lookup_set, if_pos rfl]
  rfl

/-- A workflow that is there is read as it comes back, and nothing is written. -/
theorem run_getWorkflowStatus
    (h : r.server.get readAt (buildWorkflowKey keyPrefix w.workflowId) =
      some (serializeWorkflow w)) :
    ∃ result, (getWorkflowStatus conversions keyPrefix answers readAt w.workflowId).run r =
        (result, ⟨r.server, r.calls + 1⟩) ∧ ∀ v, result = .ok v → v = w.readAt readAt := by
  cases hanswer : answers r.calls with
  | answered =>
    refine ⟨.ok (w.readAt readAt), ?_, fun v hv => (Except.ok.inj hv).symm⟩
    rw [getWorkflowStatus, Async.run_bind_of_ok (run_call_of_answered hanswer), h]
    exact congrArg (·, _) (deserialize_serialize w readAt)
  | rejected e applied =>
    refine ⟨.error e, ?_, fun v hv => nomatch hv⟩
    rw [getWorkflowStatus, Async.run_bind_of_error (run_call_of_rejected hanswer), ite_self]

/-- A cancelling leaves the workflow, or the workflow that came back cancelled; if it resolves, it
leaves the latter. -/
theorem run_cancelWorkflow
    (h : r.server.get readAt (buildWorkflowKey keyPrefix w.workflowId) =
      some (serializeWorkflow w)) :
    ∃ result r', (cancelWorkflow conversions keyPrefix answers readAt cancelledAt
        w.workflowId).run r = (result, r') ∧
      (IsStored keyPrefix w r'.server
          (serializeWorkflow ((w.readAt readAt).cancelled cancelledAt)) ∨
        IsStored keyPrefix w r'.server (serializeWorkflow w) ∧ ∀ u, result ≠ .ok u) := by
  obtain ⟨status, hrun, hstatus⟩ := run_getWorkflowStatus conversions answers h
  cases status with
  | error e =>
    refine ⟨.error e, _, Async.run_bind_of_error hrun, .inr ⟨isStored_of_get h, fun u hu => ?_⟩⟩
    cases hu
  | ok v =>
    obtain rfl := hstatus v rfl
    cases hanswer : answers (Remote.calls ⟨r.server, r.calls + 1⟩) with
    | answered =>
      exact ⟨_, _, (Async.run_bind_of_ok hrun).trans (run_call_of_answered hanswer),
        .inl (isStored_set _ _ _)⟩
    | rejected e applied =>
      refine ⟨_, _, (Async.run_bind_of_ok hrun).trans (run_call_of_rejected hanswer), ?_⟩
      cases applied with
      | true => exact .inl (isStored_set _ _ _)
      | false => exact .inr ⟨isStored_of_get h, fun u hu => nomatch hu⟩

end

/-- Cancelling a stored workflow changes its status and the time of its completion only: whatever
becomes of the calls to Redis, the workflow is under its key as it was or cancelled, and it is
cancelled if the call resolves. -/
def CancelsOnly (conversions : Conversions) (readAt cancelledAt : ℕ)
    (w : WorkflowExecutionResult) : Prop :=
  ∀ keyPrefix answers r,
    r.server.get readAt (buildWorkflowKey keyPrefix w.workflowId) = some (serializeWorkflow w) →
    ∃ result r', (cancelWorkflow conversions keyPrefix answers readAt cancelledAt
        w.workflowId).run r = (result, r') ∧
      (IsStored keyPrefix w r'.server (serializeWorkflow (w.cancelled cancelledAt)) ∨
        IsStored keyPrefix w r'.server (serializeWorkflow w) ∧ ∀ u, result ≠ .ok u)

/-- Read back at `readAt` a workflow is the same, and to cancel it then changes nothing else. -/
def Sound (conversions : Conversions) (readAt cancelledAt : ℕ) (w : WorkflowExecutionResult) :
    Prop :=
  deserializeWorkflow conversions readAt (serializeWorkflow w) = .ok w ∧
    CancelsOnly conversions readAt cancelledAt w

/-- The round trip loses an empty error message, a time that is zero and a time that is no number,
and nothing else. -/
theorem sound_iff (conversions : Conversions) (readAt cancelledAt : ℕ)
    (w : WorkflowExecutionResult) :
    Sound conversions readAt cancelledAt w ↔ w.IsKept readAt := by
  rw [← readAt_eq_iff]
  constructor
  · rintro ⟨hround, -⟩
    rw [deserialize_serialize] at hround
    exact Except.ok.inj hround
  · intro hkept
    refine ⟨by rw [deserialize_serialize, hkept], fun keyPrefix answers r h => ?_⟩
    have hrun := run_cancelWorkflow conversions answers cancelledAt h
    rwa [hkept] at hrun

/-- A workflow that failed with an error of no message. -/
def failedSilently : WorkflowExecutionResult where
  workflowId := "deploy"
  status := .failed
  stepResults := .empty
  error := some ""
  startedAt := 1700000000000

/-- What the language makes of values that no workflow is written with. -/
def objectConversions : Conversions where
  string _ := "[object Object]"
  number _ := .nan
  status _ := .running
  entry _ := .error (.error { message := "object is not iterable", stack := none })

/-- An error without a message is gone after the round trip. -/
theorem not_sound_failedSilently :
    ¬ Sound objectConversions 1700000060000 1700000060001 failedSilently := fun h =>
  ((sound_iff _ _ _ _).mp h).error rfl

end KitiumJobQueue.JobChain
