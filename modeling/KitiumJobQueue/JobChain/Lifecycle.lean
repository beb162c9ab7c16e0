import KitiumJobQueue.Foundations.SharedInvariants
import KitiumJobQueue.JobChain.Workflows

/-!
# Chains and workflows in the course of a run

The methods of `JobChainManager` that start, cancel and report chains and workflows, under any
interleaving and with Redis rejecting any command. A workflow is stored when it is started and read,
changed and stored again when it is cancelled; a chain is stored when it is created. Nothing else is
written: the steps that both are given are counted and no more.

So no report ever tells of an end other than a cancelling (`reported_of_run`), and a cancelling is
undone only by starting the workflow again (`cancelled_of_step`).
-/

namespace KitiumJobQueue.JobChain.Lifecycle

open Effects JavaScript Redis

/-! ## Commands -/

/-- What the manager asks of Redis, of its clock and of its random numbers. -/
inductive Command
  | get (key : String)
  | set (key : String) (value : Json) (seconds : ℕ)
  /-- `Date.now()` -/
  | now
  /-- `Math.random().toString(36).substr(2, 9)` -/
  | random

/-- What a command is answered with. -/
abbrev Reply : Command → Type
  | .get _ => Option Json
  | .set _ _ _ => Unit
  | .now => ℕ
  | .random => String

/-- What the environment chooses about a command: whether it fails, the time, and the letters that
were drawn. -/
structure Choice where
  answer : Answer Thrown := .answered
  now : ℕ := 0
  drawn : String := ""

/-- What is done on a command. Clock and random numbers cannot fail. -/
def serve : Serve Thrown (Store Json) Choice Reply
  | v, .get key, s => (perform v.answer fun s : Store Json => (s.get v.now key, s)).run s
  | v, .set key value seconds, s =>
    (perform v.answer fun s : Store Json =>
      ((), s.set key value (some (v.now + 1000 * seconds)))).run s
  | v, .now, s => (.ok v.now, s)
  | v, .random, s => (.ok v.drawn, s)

/-- A method of the manager, which has no fields that change. -/
abbrev Method (α : Type) := Coroutine Thrown Unit Reply α

/-- Send a command and wait for its answer. -/
def ask (c : Command) : Method (Reply c) := .await c

/-! ## Methods -/

/-- An error of the manager. No method reads its stack. -/
def managerError (code message kind : String) : Thrown :=
  .error
    { message := message
      stack := none
      fields :=
        [("code", .str code),
          ("severity", .str "error"),
          ("kind", .str kind),
          ("retryable", .bool false),
          ("source", .str "@kitiumai/job-queue/job-chain-manager")] }

/-- A workflow or chain as it is started. -/
def started (id : String) (startedAt : ℕ) : WorkflowExecutionResult where
  workflowId := id
  status := .running
  stepResults := .empty
  startedAt := .num startedAt

/-- `buildChainKey` -/
def buildChainKey (keyPrefix chainId : String) : String := keyPrefix ++ ":chain:" ++ chainId

/-- The lifetime of a record in seconds. -/
def lifetime : ℕ := 604800

section

variable {Step : Type} (conversions : Conversions) (keyPrefix : String)

/-- What `createChain` and `executeWorkflow` have in common; `startedAt` is the time of the call. Of
the steps only their number is read. -/
def start (invalidId emptySteps : Thrown) (key id : String) (steps : List Step) (startedAt : ℕ) :
    Method WorkflowExecutionResult :=
  if isBlank id then throw invalidId
  else if steps.isEmpty then throw emptySteps
  else do
    let result := started id startedAt
    ask (.set key (serializeWorkflow result) lifetime)
    pure result

/-- `createChain` -/
def createChain (chainId : String) (steps : List Step) (startedAt : ℕ) : Method String := do
  let _ ← start (managerError "chain/invalid_id" "Chain ID is required" "validation")
    (managerError "chain/empty_steps" "Chain must have at least one step" "validation")
    (buildChainKey keyPrefix chainId) chainId steps startedAt
  pure chainId

/-- `executeWorkflow` -/
def executeWorkflow (workflowId : String) (steps : List Step) (startedAt : ℕ) :
    Method WorkflowExecutionResult :=
  start (managerError "workflow/invalid_id" "Workflow ID is required" "validation")
    (managerError "workflow/empty_steps" "Workflow must have at least one step" "validation")
    (buildWorkflowKey keyPrefix workflowId) workflowId steps startedAt

/-- What is stored, read back: `deserializeWorkflow`, which may throw, with a reading of the
clock. -/
def readBack (data : Json) : Method WorkflowExecutionResult := do
  let now ← ask .now
  match deserializeWorkflow conversions now data with
  | .ok workflow => pure workflow
  | .error e => throw e

/-- `getWorkflowStatus` -/
def getWorkflowStatus (workflowId : String) : Method WorkflowExecutionResult := do
  let data ← ask (.get (buildWorkflowKey keyPrefix workflowId))
  match data with
  | none => throw (workflowNotFound workflowId)
  | some data => readBack conversions data

/-- `cancelWorkflow` -/
def cancelWorkflow (workflowId : String) : Method Unit := do
  let workflow ← getWorkflowStatus conversions keyPrefix workflowId
  let cancelledAt ← ask .now
  ask (.set (buildWorkflowKey keyPrefix workflowId)
    (serializeWorkflow (workflow.cancelled cancelledAt)) lifetime)

/-- `getChainData` -/
def getChainData (chainId : String) : Method (Option WorkflowExecutionResult) :=
  tryCatch
    (do
      let data ← ask (.get (buildChainKey keyPrefix chainId))
      match data with
      | none => pure none
      | some data => do
        let chain ← readBack conversions data
        pure (some chain))
    fun _ => pure none

/-- The error for a chain that is not there. -/
def chainNotFound (chainId : String) : Thrown :=
  managerError "chain/not_found" s!"Chain {chainId} not found" "not_found"

/-- `getChainStatus` -/
def getChainStatus (chainId : String) : Method WorkflowExecutionResult := do
  match ← getChainData conversions keyPrefix chainId with
  | none => throw (chainNotFound chainId)
  | some chain => pure chain

/-- `addJobToChain`, which reads nothing of the job. -/
def addJobToChain (chainId : String) : Method String := do
  match ← getChainData conversions keyPrefix chainId with
  | none => throw (chainNotFound chainId)
  | some _ => do
    let now ← ask .now
    let drawn ← ask .random
    pure s!"{chainId}:{now}:{drawn}"

end

/-! ## The manager -/

/-- A call of a method. -/
inductive Call (Step : Type)
  | createChain (chainId : String) (steps : List Step) (startedAt : ℕ)
  | addJobToChain (chainId : String)
  | getChainStatus (chainId : String)
  | executeWorkflow (workflowId : String) (steps : List Step) (startedAt : ℕ)
  | getWorkflowStatus (workflowId : String)
  | cancelWorkflow (workflowId : String)

/-- What a call resolves with. -/
inductive Result
  | id (id : String)
  | workflow (workflow : WorkflowExecutionResult)
  | done

variable {Step : Type} (conversions : Conversions) (keyPrefix : String)

/-- The method a call runs. -/
def Call.method : Call Step → Method Result
  | .createChain chainId steps startedAt => do
    let id ← Lifecycle.createChain keyPrefix chainId steps startedAt
    pure (.id id)
  | .addJobToChain chainId => do
    let id ← Lifecycle.addJobToChain conversions keyPrefix chainId
    pure (.id id)
  | .getChainStatus chainId => do
    let chain ← Lifecycle.getChainStatus conversions keyPrefix chainId
    pure (.workflow chain)
  | .executeWorkflow workflowId steps startedAt => do
    let workflow ← Lifecycle.executeWorkflow keyPrefix workflowId steps startedAt
    pure (.workflow workflow)
  | .getWorkflowStatus workflowId => do
    let workflow ← Lifecycle.getWorkflowStatus conversions keyPrefix workflowId
    pure (.workflow workflow)
  | .cancelWorkflow workflowId => do
    Lifecycle.cancelWorkflow conversions keyPrefix workflowId
    pure .done

/-- Redis and the calls made so far. -/
abbrev World (Step : Type) := Pool Thrown Unit (Store Json) Reply (Call Step) Result

/-- A manager under any interleaving of its calls. -/
def system : System (World Step) (PoolEvent (Call Step) Choice) :=
  Pool.system serve (Call.method conversions keyPrefix)

/-- Nothing was called yet. -/
def World.init : World Step := { memory := (), server := .empty }

/-! ## Records -/

/-- The two kinds of record. -/
inductive Kind
  | chain
  | workflow

/-- The key of a record. -/
def Kind.key : Kind → String → String
  | .chain => buildChainKey keyPrefix
  | .workflow => buildWorkflowKey keyPrefix

/-- The call that starts a record. -/
def Kind.starting : Kind → String → List Step → ℕ → Call Step
  | .chain => .createChain
  | .workflow => .executeWorkflow

/-- What a record may tell when the calls that were made are `Called`: that it was started by one of
them and is running, or for a workflow that it was cancelled by one of them. -/
structure Told (Called : Call Step → Prop) (kind : Kind) (id : String)
    (w : WorkflowExecutionResult) : Prop where
  workflowId : w.workflowId = id
  stepResults : w.stepResults = .empty
  error : w.error = none
  startedAt : ∃ steps startedAt, Called (kind.starting id steps startedAt) ∧
    (startedAt ≠ 0 → w.startedAt = .num startedAt)
  status : w.status = .running ∧ w.completedAt = none ∨
    w.status = .cancelled ∧ kind = .workflow ∧ Called (.cancelWorkflow id)

/-- Every record that is stored may be told. -/
def Sound (Called : Call Step → Prop) (s : Shared Unit (Store Json)) : Prop :=
  ∀ kind id e, s.server.lookup (kind.key keyPrefix id) = some e →
    ∃ w, e.value = serializeWorkflow w ∧ Told Called kind id w

/-- What a call writes. -/
def Changes (call : Call Step) (s s' : Store Json) : Prop :=
  match call with
  | .createChain id _ startedAt => ∃ expiresAt,
    s' = s.set (buildChainKey keyPrefix id) (serializeWorkflow (started id startedAt)) expiresAt
  | .executeWorkflow id _ startedAt => ∃ expiresAt,
    s' = s.set (buildWorkflowKey keyPrefix id) (serializeWorkflow (started id startedAt)) expiresAt
  | .cancelWorkflow id => ∃ w cancelledAt expiresAt,
    s' = s.set (buildWorkflowKey keyPrefix id)
      (serializeWorkflow (WorkflowExecutionResult.cancelled w cancelledAt)) expiresAt
  | .addJobToChain _ | .getChainStatus _ | .getWorkflowStatus _ => False

/-- What a call may resolve with. -/
def Reported (Called : Call Step → Prop) : Call Step → Result → Prop
  | .createChain chainId _ _, result => result = .id chainId
  | .addJobToChain chainId, result =>
    (∃ steps startedAt, Called (.createChain chainId steps startedAt)) ∧
      ∃ now drawn : String, result = .id (chainId ++ ":" ++ now ++ ":" ++ drawn)
  | .getChainStatus chainId, result => ∃ w, result = .workflow w ∧ Told Called .chain chainId w
  | .executeWorkflow workflowId _ startedAt, result =>
    result = .workflow (started workflowId startedAt)
  | .getWorkflowStatus workflowId, result =>
    ∃ w, result = .workflow w ∧ Told Called .workflow workflowId w
  | .cancelWorkflow _, result => result = .done

variable {conversions keyPrefix} {Called : Call Step → Prop} {kind kind' : Kind} {id id' : String}

theorem key_inj :
    kind.key keyPrefix id = kind'.key keyPrefix id' ↔ kind = kind' ∧ id = id' := by
  cases kind <;> cases kind' <;> simp [Kind.key, buildChainKey, buildWorkflowKey, String.ext_iff]

/-! ## What a record tells -/

theorem told_started {steps : List Step} {startedAt : ℕ}
    (h : Called (kind.starting id steps startedAt)) :
    Told Called kind id (started id startedAt) where
  workflowId := rfl
  stepResults := rfl
  error := rfl
  startedAt := ⟨steps, startedAt, h, fun _ => rfl⟩
  status := .inl ⟨rfl, rfl⟩

variable {w : WorkflowExecutionResult}

/-- What comes back of a record tells the same, but for a start at the time zero. -/
theorem Told.readAt (h : Told Called kind id w) (now : ℕ) : Told Called kind id (w.readAt now) where
  workflowId := h.workflowId
  stepResults := h.stepResults
  error := by
    change w.error.filter _ = none
    rw [h.error]
    rfl
  startedAt := by
    obtain ⟨steps, startedAt, hcalled, hstarted⟩ := h.startedAt
    refine ⟨steps, startedAt, hcalled, fun hne => ?_⟩
    rw [startedAt_readAt_eq_iff.mpr ⟨startedAt, hstarted hne, .inl (by exact_mod_cast hne)⟩]
    exact hstarted hne
  status := by
    refine h.status.imp_left fun ⟨hstatus, hcompleted⟩ => ⟨hstatus, ?_⟩
    change w.completedAt.filter _ = none
    rw [hcompleted]
    rfl

/-- A workflow that is cancelled by a call. -/
theorem Told.cancelled (h : Told Called .workflow id w) (hcalled : Called (.cancelWorkflow id))
    (cancelledAt : ℕ) : Told Called .workflow id (w.cancelled cancelledAt) where
  workflowId := h.workflowId
  stepResults := h.stepResults
  error := h.error
  startedAt := h.startedAt
  status := .inr ⟨rfl, rfl, hcalled⟩

/-- Writing a record that may be told. -/
theorem Sound.set {m : Unit} {s : Store Json} (h : Sound keyPrefix Called ⟨m, s⟩)
    (hw : Told Called kind id w) (expiresAt : Option ℕ) :
    Sound keyPrefix Called
      ⟨m, s.set (kind.key keyPrefix id) (serializeWorkflow w) expiresAt⟩ := by
  intro kind' id' e he
  change (Store.set _ _ _ _).lookup _ = some e at he
  rw [Store.lookup_set] at he
  split at he
  · next hkey =>
    obtain ⟨rfl, rfl⟩ := key_inj.mp hkey
    obtain rfl := Option.some.inj he
    exact ⟨w, rfl, hw⟩
  · exact h kind' id' e he

/-! ## What the methods ensure -/

section

variable {U : Store Json → Store Json → Prop}

theorem ensures_now : Ensures serve (Sound keyPrefix Called) U (fun _ => True) (ask .now) :=
  .await fun _ _ _ hs => ⟨⟨hs, .inl rfl⟩, fun _ _ => trivial⟩

theorem ensures_random : Ensures serve (Sound keyPrefix Called) U (fun _ => True) (ask .random) :=
  .await fun _ _ _ hs => ⟨⟨hs, .inl rfl⟩, fun _ _ => trivial⟩

theorem ensures_get (kind : Kind) (id : String) :
    Ensures serve (Sound keyPrefix Called) U
      (fun r => ∀ data, r = some data → ∃ w, data = serializeWorkflow w ∧ Told Called kind id w)
      (ask (.get (kind.key keyPrefix id))) := by
  refine .await fun v m s hs => ⟨?_, fun r hr data hdata => ?_⟩
  · have hserver : (serve v (.get (kind.key keyPrefix id)) s).2 = s :=
      or_self_iff.mp (snd_run_perform _ _ _)
    rw [hserver]
    exact ⟨hs, .inl rfl⟩
  · obtain rfl := fst_run_perform hr
    obtain ⟨e, he, -, rfl⟩ := Store.get_eq_some.mp hdata
    exact hs kind id e he

/-- A record is written, whether the caller learns of it or not. -/
theorem ensures_set (hw : Told Called kind id w)
    (hU : ∀ s expiresAt,
      U s (Store.set s (kind.key keyPrefix id) (serializeWorkflow w) expiresAt)) :
    Ensures serve (Sound keyPrefix Called) U (fun _ => True)
      (ask (.set (kind.key keyPrefix id) (serializeWorkflow w) lifetime)) := by
  refine .await fun v m s hs => ⟨?_, fun _ _ => trivial⟩
  have hset := hs.set hw (some (v.now + 1000 * lifetime))
  rcases snd_run_perform v.answer (fun s : Store Json => ((), s.set (kind.key keyPrefix id)
    (serializeWorkflow w) (some (v.now + 1000 * lifetime)))) s with hsame | hwritten
  · exact ⟨hsame.symm ▸ hs, .inl hsame⟩
  · exact ⟨hwritten.symm ▸ hset, .inr (hwritten.symm ▸ hU s _)⟩

theorem ensures_start (kind : Kind) {steps : List Step} {startedAt : ℕ}
    (hcalled : Called (kind.starting id steps startedAt))
    (hU : ∀ s expiresAt, U s
      (Store.set s (kind.key keyPrefix id) (serializeWorkflow (started id startedAt)) expiresAt))
    (invalidId emptySteps : Thrown) :
    Ensures serve (Sound keyPrefix Called) U (fun w => w = started id startedAt)
      (start invalidId emptySteps (kind.key keyPrefix id) id steps startedAt) := by
  unfold start
  split
  · exact .throw _
  · split
    · exact .throw _
    · exact .bind (ensures_set (told_started hcalled) hU) fun _ _ => .pure rfl

theorem ensures_readBack {data : Json}
    (hdata : ∃ w, data = serializeWorkflow w ∧ Told Called kind id w) :
    Ensures serve (Sound keyPrefix Called) U (Told Called kind id) (readBack conversions data) := by
  obtain ⟨w, rfl, hw⟩ := hdata
  refine .bind ensures_now fun now _ => ?_
  rw [deserialize_serialize]
  exact .pure (hw.readAt now)

theorem ensures_getWorkflowStatus (id : String) :
    Ensures serve (Sound keyPrefix Called) U (Told Called .workflow id)
      (getWorkflowStatus conversions keyPrefix id) := by
  refine .bind (ensures_get .workflow id) fun data hdata => ?_
  cases data with
  | none => exact .throw _
  | some data => exact ensures_readBack (hdata data rfl)

theorem ensures_getChainData (id : String) :
    Ensures serve (Sound keyPrefix Called) U (fun r => ∀ w, r = some w → Told Called .chain id w)
      (getChainData conversions keyPrefix id) := by
  refine .handle (.bind (ensures_get .chain id) fun data hdata => ?_) fun _ => .pure nofun
  cases data with
  | none => exact .pure nofun
  | some data =>
    exact .bind (ensures_readBack (hdata data rfl)) fun w hw => .pure fun _ h =>
      Option.some.inj h ▸ hw

/-- Every method tells only what may be told, and writes only what is its own. -/
theorem ensures_method {call : Call Step} (hcalled : Called call) :
    Ensures serve (Sound keyPrefix Called) (Changes keyPrefix call) (Reported Called call)
      (call.method conversions keyPrefix) := by
  cases call with
  | createChain chainId steps startedAt =>
    exact .bind (.bind (ensures_start .chain hcalled (fun _ _ => ⟨_, rfl⟩) _ _)
      fun _ _ => .pure rfl) fun _ h => .pure (h ▸ rfl)
  | addJobToChain chainId =>
    refine .bind (P := fun id => Reported Called (.addJobToChain chainId) (.id id))
      (.bind (ensures_getChainData chainId) fun chain hchain => ?_) fun id hid => .pure hid
    cases chain with
    | none => exact .throw _
    | some chain =>
      obtain ⟨steps, startedAt, hcreated, -⟩ := (hchain chain rfl).startedAt
      exact .bind ensures_now fun now _ => .bind ensures_random fun drawn _ =>
        .pure ⟨⟨steps, startedAt, hcreated⟩, toString now, drawn, rfl⟩
  | getChainStatus chainId =>
    refine .bind (P := Told Called .chain chainId)
      (.bind (ensures_getChainData chainId) fun chain hchain => ?_) fun w hw => .pure ⟨w, rfl, hw⟩
    cases chain with
    | none => exact .throw _
    | some chain => exact .pure (hchain chain rfl)
  | executeWorkflow workflowId steps startedAt =>
    exact .bind (ensures_start .workflow hcalled (fun _ _ => ⟨_, rfl⟩) _ _)
      fun _ h => .pure (h ▸ rfl)
  | getWorkflowStatus workflowId =>
    exact .bind (ensures_getWorkflowStatus workflowId) fun w hw => .pure ⟨w, rfl, hw⟩
  | cancelWorkflow workflowId =>
    refine .bind (P := fun _ => True) ?_ fun _ _ => .pure rfl
    exact .bind (ensures_getWorkflowStatus workflowId) fun w hw =>
      .bind ensures_now fun cancelledAt _ =>
        ensures_set (hw.cancelled hcalled cancelledAt) fun _ _ => ⟨w, cancelledAt, _, rfl⟩

end

/-! ## Runs -/

/-- The record of the workflow says that it is cancelled. -/
def IsCancelled (keyPrefix id : String) (s : Store Json) : Prop :=
  ∃ e, s.lookup (buildWorkflowKey keyPrefix id) = some e ∧
    e.value.get? "status" = some (.str "cancelled")

/-- Writing another record changes nothing about it. -/
theorem IsCancelled.set_of_ne {s : Store Json} (h : IsCancelled keyPrefix id s) (kind : Kind)
    (hne : ¬ (kind = .workflow ∧ id' = id)) (value : Json) (expiresAt : Option ℕ) :
    IsCancelled keyPrefix id (s.set (kind.key keyPrefix id') value expiresAt) := by
  obtain ⟨e, he, hstatus⟩ := h
  refine ⟨e, ?_, hstatus⟩
  rw [Store.lookup_set, if_neg fun hkey => hne ?_]
  · exact he
  · obtain ⟨hkind, hid⟩ := key_inj.mp (show Kind.workflow.key keyPrefix id = _ from hkey)
    exact ⟨hkind.symm, hid.symm⟩

theorem isCancelled_set (s : Store Json) (w : WorkflowExecutionResult) (cancelledAt : ℕ)
    (expiresAt : Option ℕ) :
    IsCancelled keyPrefix id (s.set (buildWorkflowKey keyPrefix id)
      (serializeWorkflow (w.cancelled cancelledAt)) expiresAt) := by
  refine ⟨_, by rw [Store.lookup_set, if_pos rfl], ?_⟩
  exact get?_serializeWorkflow (w.cancelled cancelledAt) "status"

theorem sound_init : Sound keyPrefix Called ((World.init : World Step).toShared) :=
  fun _ _ _ h => absurd h (Option.some_ne_none _).symm

variable (conversions keyPrefix)

/-- **No report tells of an end other than a cancelling.** Whatever the interleaving and whatever
commands are rejected, a chain is reported as running, without results and as some call created it;
a workflow is reported likewise, or as cancelled, and then some call has cancelled it. -/
theorem reported_of_run {es : List (PoolEvent (Call Step) Choice)} {p : World Step}
    (h : (system conversions keyPrefix).runFrom .init es = some p) :
    ∀ t ∈ p.threads, ∀ result, t.stage = .settled (.ok result) →
      Reported (fun call => .spawn call ∈ es) t.label result :=
  (ensures_of_run (P := fun call => .spawn call ∈ es) (fun _ hcalled => ensures_method hcalled)
    sound_init (fun _ => id) h).2

/-- A workflow is started, and two calls that overlap cancel it and report it. -/
def cancelledRun : List (PoolEvent (Call Unit) Choice) :=
  [.spawn (.executeWorkflow "deploy" [()] 1700000000000), .exec 0 {}, .resume 0,
    .spawn (.cancelWorkflow "deploy"), .exec 1 {}, .resume 1, .spawn (.getWorkflowStatus "deploy"),
    .exec 1 { now := 1700000060000 }, .resume 1, .exec 1 { now := 1700000060001 }, .resume 1,
    .exec 1 {}, .exec 2 {}, .resume 2, .exec 2 { now := 1700000060001 }, .resume 2, .resume 1]

/-- The report of a workflow that was cancelled while it was asked for. -/
theorem reported_of_cancelledRun :
    ∃ p, (system objectConversions "job-chains").runFrom .init cancelledRun = some p ∧
      ∀ t ∈ p.threads, ∀ result, t.stage = .settled (.ok result) →
        Reported (fun call => .spawn call ∈ cancelledRun) t.label result :=
  ⟨_, rfl, reported_of_run objectConversions "job-chains" rfl⟩

/-- **A cancelling is undone only by starting the workflow again**: in every run, a step after which
a workflow is no longer cancelled writes the record with which a call of `executeWorkflow` starts
it. -/
theorem cancelled_of_step {es : List (PoolEvent (Call Step) Choice)}
    {e : PoolEvent (Call Step) Choice} {p p' : World Step}
    (h : (system conversions keyPrefix).runFrom .init es = some p)
    (hstep : (system conversions keyPrefix).step p e = some p') {id : String}
    (hcancelled : IsCancelled keyPrefix id p.server) :
    IsCancelled keyPrefix id p'.server ∨
      ∃ t ∈ p'.threads, ∃ steps startedAt expiresAt,
        t.label = .executeWorkflow id steps startedAt ∧
          p'.server = p.server.set (buildWorkflowKey keyPrefix id)
            (serializeWorkflow (started id startedAt)) expiresAt := by
  rcases changes_of_run (P := fun call => .spawn call ∈ es ++ [e])
    (fun _ hcalled => ensures_method hcalled) sound_init (fun _ h => h) h hstep with
    hsame | ⟨t, ht, hchange⟩
  · exact .inl (hsame ▸ hcancelled)
  · cases hlabel : t.label with
    | createChain chainId steps startedAt =>
      rw [hlabel] at hchange
      obtain ⟨expiresAt, hserver⟩ := hchange
      rw [hserver]
      exact .inl (hcancelled.set_of_ne .chain (by simp) _ _)
    | executeWorkflow workflowId steps startedAt =>
      rw [hlabel] at hchange
      obtain ⟨expiresAt, hserver⟩ := hchange
      by_cases hid : workflowId = id
      · subst hid
        exact .inr ⟨t, ht, steps, startedAt, expiresAt, hlabel, hserver⟩
      · rw [hserver]
        exact .inl (hcancelled.set_of_ne .workflow (by simp [hid]) _ _)
    | cancelWorkflow workflowId =>
      rw [hlabel] at hchange
      obtain ⟨w, cancelledAt, expiresAt, hserver⟩ := hchange
      rw [hserver]
      by_cases hid : workflowId = id
      · subst hid
        exact .inl (isCancelled_set _ _ _ _)
      · exact .inl (hcancelled.set_of_ne .workflow (by simp [hid]) _ _)
    | addJobToChain _ | getChainStatus _ | getWorkflowStatus _ =>
      rw [hlabel] at hchange
      exact hchange.elim

/-- A workflow is started and cancelled, and then called again. -/
def restartedRun : List (PoolEvent (Call Unit) Choice) :=
  [.spawn (.executeWorkflow "deploy" [()] 1700000000000), .exec 0 {},
    .spawn (.cancelWorkflow "deploy"), .exec 1 {}, .resume 1, .exec 1 { now := 1700000060000 },
    .resume 1, .exec 1 { now := 1700000060001 }, .resume 1, .exec 1 {},
    .spawn (.executeWorkflow "deploy" [()] 1700000070000)]

theorem isSome_restartedRun :
    ((system objectConversions "job-chains").runFrom .init restartedRun).isSome := by
  decide +kernel

/-- It is cancelled no longer once its new record is written. -/
theorem cancelled_of_restartedRun :
    ∃ p p', (system objectConversions "job-chains").runFrom .init restartedRun = some p ∧
      (system objectConversions "job-chains").step p (.exec 2 {}) = some p' ∧
      IsCancelled "job-chains" "deploy" p.server ∧
      (IsCancelled "job-chains" "deploy" p'.server ∨
        ∃ t ∈ p'.threads, ∃ steps startedAt expiresAt,
          t.label = .executeWorkflow "deploy" steps startedAt ∧
            p'.server = p.server.set (buildWorkflowKey "job-chains" "deploy")
              (serializeWorkflow (started "deploy" startedAt)) expiresAt) :=
  have hstep : ((system objectConversions "job-chains").step (Option.get _ isSome_restartedRun)
      (.exec 2 {})).isSome := by
    decide +kernel
  ⟨_, _, (Option.some_get _).symm, (Option.some_get hstep).symm, ⟨_, rfl, rfl⟩,
    cancelled_of_step objectConversions "job-chains" (Option.some_get isSome_restartedRun).symm
      (Option.some_get hstep).symm ⟨_, rfl, rfl⟩⟩

end KitiumJobQueue.JobChain.Lifecycle
