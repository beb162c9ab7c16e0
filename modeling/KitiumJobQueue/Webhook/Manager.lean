import KitiumJobQueue.Foundations.Coroutines
import KitiumJobQueue.Foundations.JavaScript
import KitiumJobQueue.Foundations.OptionalField
import KitiumJobQueue.Redis.Store
import Mathlib.Data.List.Sort
import Mathlib.Data.Rat.Floor
import Mathlib.Logic.Function.Basic

/-!
# The webhook manager

`WebhookManager` of `webhook.manager.ts`, method by method, as coroutines over its cache. Redis
answers every command; what the HTTP server answers to a `POST` is the environment's choice.

Configurations and records of delivery attempts lie in one database, and what is read is taken for
what it should be: a `Document` is a stored object of either kind, or an update spread over one. A
handler that only logs and throws again is left out; so is the wait for a method that has returned,
since no method reads or changes the cache between such a wait and its next command.
-/

namespace KitiumJobQueue.Webhook

open Effects JavaScript Redis

/-! ## Data -/

/-- Webhook delivery strategy. -/
inductive WebhookDeliveryStrategy
  | bestEffort
  | reliable
  | guaranteed
  deriving DecidableEq

/-- Webhook event types. -/
inductive WebhookEventType
  | jobCompleted
  | jobFailed
  | jobStarted
  | jobProgress
  | jobRetrying
  | workflowCompleted
  | workflowFailed
  deriving DecidableEq

/-- The parts of a payload that the manager reads. -/
structure WebhookPayload where
  eventType : WebhookEventType
  eventId : String
  deriving DecidableEq

/-- Authentication. -/
structure WebhookAuth where
  type : String
  credentials : String
  deriving DecidableEq

/-- Webhook configuration. `NaN` and `Infinity` are left out of its numbers: they are stored as
`null` and read as the default. -/
structure WebhookConfig where
  url : String
  events : List WebhookEventType
  deliveryStrategy : Option WebhookDeliveryStrategy := none
  headers : Option (List (String × String)) := none
  auth : Option WebhookAuth := none
  timeoutMs : Option ℚ := none
  maxRetries : Option ℚ := none
  batchSize : Option ℚ := none
  active : Bool
  createdAt : ℚ
  deriving DecidableEq

/-- `Partial<WebhookConfig>` -/
structure PartialConfig where
  url : OptionalField String := .absent
  events : OptionalField (List WebhookEventType) := .absent
  deliveryStrategy : OptionalField WebhookDeliveryStrategy := .absent
  headers : OptionalField (List (String × String)) := .absent
  auth : OptionalField WebhookAuth := .absent
  timeoutMs : OptionalField ℚ := .absent
  maxRetries : OptionalField ℚ := .absent
  batchSize : OptionalField ℚ := .absent
  active : OptionalField Bool := .absent
  createdAt : OptionalField ℚ := .absent
  deriving DecidableEq

/-- Webhook delivery attempt record. -/
structure WebhookDeliveryAttempt where
  eventId : String
  webhookId : Option String
  statusCode : Option ℤ := none
  response : Option String := none
  error : Option String := none
  attemptNumber : ℕ
  timestamp : ℕ
  nextRetryAt : Option ℕ := none
  deriving DecidableEq

/-- A stored object: the properties of a configuration, and those of an attempt. -/
structure Document where
  url : Option String := none
  events : Option (List WebhookEventType) := none
  deliveryStrategy : Option WebhookDeliveryStrategy := none
  headers : Option (List (String × String)) := none
  auth : Option WebhookAuth := none
  timeoutMs : Option ℚ := none
  maxRetries : Option ℚ := none
  batchSize : Option ℚ := none
  active : Option Bool := none
  createdAt : Option ℚ := none
  attempt : Option WebhookDeliveryAttempt := none
  deriving DecidableEq

/-- What is stored of a configuration. -/
def WebhookConfig.document (config : WebhookConfig) : Document where
  url := config.url
  events := config.events
  deliveryStrategy := config.deliveryStrategy
  headers := config.headers
  auth := config.auth
  timeoutMs := config.timeoutMs
  maxRetries := config.maxRetries
  batchSize := config.batchSize
  active := config.active
  createdAt := config.createdAt

/-- `{ ...existing, ...config }` -/
def Document.update (existing : Document) (config : PartialConfig) : Document where
  url := config.url.laidOver existing.url
  events := config.events.laidOver existing.events
  deliveryStrategy := config.deliveryStrategy.laidOver existing.deliveryStrategy
  headers := config.headers.laidOver existing.headers
  auth := config.auth.laidOver existing.auth
  timeoutMs := config.timeoutMs.laidOver existing.timeoutMs
  maxRetries := config.maxRetries.laidOver existing.maxRetries
  batchSize := config.batchSize.laidOver existing.batchSize
  active := config.active.laidOver existing.active
  createdAt := config.createdAt.laidOver existing.createdAt
  attempt := existing.attempt

/-- `Math.random().toString(36).substr(2, 9)` -/
structure RandomText where
  text : String
  alphanumeric : ∀ c ∈ text.toList, c.isDigit ∨ c.isLower

/-! ## Commands -/

/-- What the manager asks of Redis, of the HTTP server and of the clock. Of a `post` and a `record`,
`source` and `attemptNumber` say what they are made for: the key of the webhook, and which attempt
at delivering to it. They are no part of the request, and `attemptNumber` is missing for a test. -/
inductive Command
  | get (key : String)
  | set (key : String) (document : Document) (ttl : ℕ)
  /-- The `SET` of `recordDeliveryAttempt`. -/
  | record (source key : String) (attempt : WebhookDeliveryAttempt) (ttl : ℕ)
  | del (key : String)
  | keys (pattern : String)
  | post (source : String) (attemptNumber : Option ℕ) (url : Option String)
      (payload : WebhookPayload) (headers : Option (List (String × String)))
      (auth : Option WebhookAuth)
  | timer (ms : ℕ)
  deriving DecidableEq

/-- What an HTTP server answers. -/
structure HttpResponse where
  statusCode : ℤ
  body : String
  deriving DecidableEq

/-- What becomes of a `POST`, and when. -/
structure Posted where
  response : Except Thrown HttpResponse
  now : ℕ

/-- What a command is answered with. -/
abbrev Reply : Command → Type
  | .get _ => Option Document
  | .set _ _ _ => Unit
  | .record _ _ _ _ => Unit
  | .del _ => Unit
  | .keys _ => List String
  | .post _ _ _ _ _ _ => Posted
  | .timer _ => Unit

/-- What the environment chooses about a command: the time in milliseconds, and what becomes of a
`POST`. -/
structure Choice where
  now : ℕ := 0
  response : Except Thrown HttpResponse := .ok { statusCode := 200, body := "" }

/-- What Redis and the HTTP server answer to a command, and what is stored then. -/
def respond (scan : Scan Document) (v : Choice) :
    (c : Command) → Store Document → Reply c × Store Document
  | .get key, s => (s.get v.now key, s)
  | .set key document ttl, s => ((), s.set key document (some (v.now + 1000 * ttl)))
  | .record _ key attempt ttl, s =>
    ((), s.set key { attempt := some attempt } (some (v.now + 1000 * ttl)))
  | .del key, s => ((), s.del key)
  | .keys pattern, s => (s.keys scan v.now pattern, s)
  | .post _ _ _ _ _ _, s => ({ response := v.response, now := v.now }, s)
  | .timer _, s => ((), s)

/-- Every command is answered. -/
def serve (scan : Scan Document) : Serve Thrown (Store Document) Choice Reply :=
  fun v c s => (.ok (respond scan v c s).1, (respond scan v c s).2)

/-- `webhooksCache` -/
abbrev Cache := String → Option Document

/-- An asynchronous method of the manager. -/
abbrev Method (α : Type) := Coroutine Thrown Cache Reply α

/-- Send a command and wait for its answer. -/
def ask (c : Command) : Method (Reply c) := .await c

/-- `this.webhooksCache.set` -/
def cacheSet (webhookId : String) (document : Document) : Method Unit :=
  .modify fun cache => Function.update cache webhookId (some document)

/-- An error of the manager's own. No method reads its stack. -/
def validationError (code message : String) : Thrown :=
  .error
    { message := message
      stack := none
      fields :=
        [("code", .str code),
          ("severity", .str "error"),
          ("kind", .str "validation"),
          ("retryable", .bool false),
          ("source", .str "@kitiumai/job-queue/webhook-manager")] }

def invalidUrl : Thrown := validationError "webhook/invalid_url" "Webhook URL is required"

def noEvents : Thrown := validationError "webhook/no_events" "At least one event type is required"

def notFound (webhookId : String) : Thrown :=
  validationError "webhook/not_found" s!"Webhook {webhookId} not found"

/-- `webhook.events.includes` of a document without events. -/
def eventsUndefined : Thrown :=
  .error
    { message := "Cannot read properties of undefined (reading 'includes')", stack := none }

section

variable (keyPrefix : String)

/-! ## Configurations -/

/-- `buildWebhookKey` -/
def buildWebhookKey (webhookId : String) : String := keyPrefix ++ ":" ++ webhookId

/-- The id of a new webhook. -/
def newWebhookId (now : ℕ) (random : RandomText) : String :=
  "webhook:" ++ toString now ++ ":" ++ random.text

/-- `registerWebhook` -/
def registerWebhook (config : WebhookConfig) (now : ℕ) (random : RandomText) : Method String := do
  if isBlank config.url then throw invalidUrl
  else if config.events = [] then throw noEvents
  else
    let webhookId := newWebhookId now random
    ask (.set (buildWebhookKey keyPrefix webhookId) config.document 31536000)
    cacheSet webhookId config.document
    pure webhookId

/-- `getWebhook` -/
def getWebhook (webhookId : String) : Method Document := do
  let cached ← .read fun cache => cache webhookId
  match cached with
  | some document => pure document
  | none =>
    let data ← ask (.get (buildWebhookKey keyPrefix webhookId))
    match data with
    | none => throw (notFound webhookId)
    | some document => do
      cacheSet webhookId document
      pure document

/-- `updateWebhook` -/
def updateWebhook (webhookId : String) (config : PartialConfig) : Method Unit := do
  let existing ← getWebhook keyPrefix webhookId
  let updated := existing.update config
  ask (.set (buildWebhookKey keyPrefix webhookId) updated 31536000)
  cacheSet webhookId updated

/-- `deleteWebhook` -/
def deleteWebhook (webhookId : String) : Method Unit := do
  ask (.del (buildWebhookKey keyPrefix webhookId))
  .modify fun cache => Function.update cache webhookId none

/-- `enableWebhook` -/
def enableWebhook (webhookId : String) : Method Unit :=
  updateWebhook keyPrefix webhookId { active := .value true }

/-- `disableWebhook` -/
def disableWebhook (webhookId : String) : Method Unit :=
  updateWebhook keyPrefix webhookId { active := .value false }

/-- The loop of `listWebhooks` and of `getDeliveryHistory`, with the keys of what it reads. -/
def readDocuments : List String → Method (List (String × Document))
  | [] => pure []
  | key :: keys => do
    let data ← ask (.get key)
    let documents ← readDocuments keys
    pure (match data with
      | some document => (key, document) :: documents
      | none => documents)

/-- What `listWebhooks` returns, with the keys. -/
def listEntries : Method (List (String × Document)) :=
  tryCatch
    (do
      let keys ← ask (.keys (keyPrefix ++ ":*"))
      readDocuments keys)
    fun _ => pure []

/-- `listWebhooks` -/
def listWebhooks : Method (List Document) := do
  let entries ← listEntries keyPrefix
  pure (entries.map Prod.snd)

/-! ## Delivery -/

/-- The key of `recordDeliveryAttempt`; a property that is not there is printed. -/
def attemptKey (attempt : WebhookDeliveryAttempt) : String :=
  keyPrefix ++ ":" ++ attempt.webhookId.getD "undefined" ++ ":attempts:" ++ attempt.eventId ++
    ":" ++ toString attempt.attemptNumber

/-- `recordDeliveryAttempt` -/
def recordDeliveryAttempt (source : String) (attempt : WebhookDeliveryAttempt) : Method Unit :=
  ask (.record source (attemptKey keyPrefix attempt) attempt 604800)

/-- A `2xx` status code. -/
def HttpResponse.IsSuccess (response : HttpResponse) : Prop :=
  200 ≤ response.statusCode ∧ response.statusCode < 300

instance : DecidablePred HttpResponse.IsSuccess := fun response =>
  inferInstanceAs (Decidable (200 ≤ response.statusCode ∧ response.statusCode < 300))

/-- The record of an attempt, from what became of its `POST`. -/
def attemptRecord (webhook : Document) (payload : WebhookPayload)
    (strategy : WebhookDeliveryStrategy) (attemptNumber : ℕ) (posted : Posted) :
    WebhookDeliveryAttempt :=
  match posted.response with
  | .ok response =>
    { eventId := payload.eventId
      webhookId := webhook.url
      statusCode := some response.statusCode
      response := some response.body
      attemptNumber := attemptNumber
      timestamp := posted.now }
  | .error error =>
    { eventId := payload.eventId
      webhookId := webhook.url
      error := some (error.toError "").message
      attemptNumber := attemptNumber
      timestamp := posted.now
      nextRetryAt :=
        if strategy ≠ .bestEffort then some (posted.now + 5000 * attemptNumber) else none }

/-- What `tryDeliverWebhookAttempt` calls delivered. -/
def delivered (strategy : WebhookDeliveryStrategy) (posted : Posted) : Bool :=
  match posted.response with
  | .ok response => decide response.IsSuccess || strategy = .bestEffort
  | .error _ => strategy = .bestEffort

/-- `tryDeliverWebhookAttempt` -/
def tryDeliverWebhookAttempt (source : String) (webhook : Document) (payload : WebhookPayload)
    (strategy : WebhookDeliveryStrategy) (attemptNumber : ℕ) : Method Bool := do
  let posted ← ask
    (.post source (some attemptNumber) webhook.url payload webhook.headers webhook.auth)
  recordDeliveryAttempt keyPrefix source
    (attemptRecord webhook payload strategy attemptNumber posted)
  pure (delivered strategy posted)

/-- `waitBeforeRetry` -/
def waitBeforeRetry (attemptNumber : ℕ) (maxRetries : ℚ) : Method Unit :=
  if attemptNumber > maxRetries then pure ()
  else ask (.timer (5000 * (attemptNumber - 1)))

/-- The loop of `deliverWebhook`, for a number of rounds. -/
def attemptLoop (source : String) (webhook : Document) (payload : WebhookPayload)
    (strategy : WebhookDeliveryStrategy) (maxRetries : ℚ) :
    (rounds attemptNumber : ℕ) → Method Unit
  | 0, _ => pure ()
  | rounds + 1, attemptNumber =>
    if attemptNumber ≤ maxRetries then do
      let isDelivered ←
        tryDeliverWebhookAttempt keyPrefix source webhook payload strategy attemptNumber
      if isDelivered then pure ()
      else if strategy = .bestEffort then pure ()
      else do
        waitBeforeRetry (attemptNumber + 1) maxRetries
        attemptLoop source webhook payload strategy maxRetries rounds (attemptNumber + 1)
    else pure ()

/-- **The rule of the loop.** What holds of all that returns at once, of every attempt and of every
wait, and passes on to what is done one after another, holds of the loop. -/
theorem attemptLoop_rule {M : (α : Type) → Method α → Prop} {source : String} {webhook : Document}
    {payload : WebhookPayload} {strategy : WebhookDeliveryStrategy} {maxRetries : ℚ}
    (hpure : ∀ α (a : α), M α (pure a))
    (hbind : ∀ α β (m : Method α) (f : α → Method β), M α m → (∀ a, M β (f a)) → M β (m >>= f))
    (hattempt : ∀ n : ℕ, 1 ≤ n → n ≤ maxRetries →
      M Bool (tryDeliverWebhookAttempt keyPrefix source webhook payload strategy n))
    (hwait : ∀ milliseconds, M Unit (ask (.timer milliseconds))) (rounds : ℕ) {n : ℕ}
    (hn : 1 ≤ n) :
    M Unit (attemptLoop keyPrefix source webhook payload strategy maxRetries rounds n) := by
  induction rounds generalizing n with
  | zero => exact hpure Unit ()
  | succ rounds ih =>
    rw [attemptLoop]
    split
    case isFalse => exact hpure Unit ()
    case isTrue hle =>
    refine hbind _ _ _ _ (hattempt n hn hle) fun isDelivered => ?_
    split
    · exact hpure Unit ()
    split
    · exact hpure Unit ()
    refine hbind _ _ _ _ ?_ fun _ => ih (Nat.le_succ_of_le hn)
    unfold waitBeforeRetry
    split
    · exact hpure Unit ()
    · exact hwait _

/-- `webhook.deliveryStrategy ?? DeliveryStrategyEnum.RELIABLE` -/
def Document.strategy (webhook : Document) : WebhookDeliveryStrategy :=
  webhook.deliveryStrategy.getD .reliable

/-- `webhook.maxRetries ?? 3` -/
def Document.retries (webhook : Document) : ℚ := webhook.maxRetries.getD 3

/-- `deliverWebhook`, with as many rounds as there are numbers from one to `maxRetries`. -/
def deliverWebhook (source : String) (webhook : Document) (payload : WebhookPayload) :
    Method Unit :=
  attemptLoop keyPrefix source webhook payload webhook.strategy webhook.retries
    ⌊webhook.retries⌋₊ 1

/-- The body of the loop of `sendEvent`. -/
def sendTo (payload : WebhookPayload) (entry : String × Document) : Method Unit :=
  if entry.2.active = some true then
    match entry.2.events with
    | none => throw eventsUndefined
    | some events =>
      if payload.eventType ∈ events then deliverWebhook keyPrefix entry.1 entry.2 payload
      else pure ()
  else pure ()

/-- `sendEvent` -/
def sendEvent (payload : WebhookPayload) : Method Unit :=
  tryCatch
    (do
      let webhooks ← listEntries keyPrefix
      .forEach (sendTo keyPrefix payload) webhooks)
    fun _ => pure ()

/-- `retryDelivery` -/
def retryDelivery (eventId webhookId : String) : Method Unit := do
  let webhook ← getWebhook keyPrefix webhookId
  deliverWebhook keyPrefix (buildWebhookKey keyPrefix webhookId) webhook
    { eventType := .jobCompleted, eventId := eventId }

/-- `testWebhook` -/
def testWebhook (webhookId : String) (now : ℕ) : Method HttpResponse := do
  let webhook ← getWebhook keyPrefix webhookId
  let posted ← ask (.post (buildWebhookKey keyPrefix webhookId) none webhook.url
    { eventType := .jobCompleted, eventId := "test-" ++ toString now } webhook.headers webhook.auth)
  match posted.response with
  | .ok response => pure response
  | .error error => throw error

/-- The timestamp that attempts are sorted by. -/
def Document.timestamp (document : Document) : ℕ := (document.attempt.map (·.timestamp)).getD 0

/-- `slice(0, limit)`. The limit is rounded towards zero, and a negative one counts from the end. -/
def sliceTo {α : Type} (limit : ℚ) (l : List α) : List α :=
  if -1 < limit then l.take ⌊limit⌋₊ else l.take (l.length - ⌊-limit⌋₊)

/-- `getDeliveryHistory`, `sort` being stable. -/
def getDeliveryHistory (webhookId : String) (limit : ℚ) : Method (List Document) :=
  tryCatch
    (do
      let keys ← ask (.keys (keyPrefix ++ ":" ++ webhookId ++ ":attempts:*"))
      let attempts ← readDocuments keys
      pure (sliceTo limit
        ((attempts.map Prod.snd).insertionSort fun a b => b.timestamp ≤ a.timestamp)))
    fun _ => pure []

/-! ## The manager -/

/-- A call of a method, with the time and the random text that it meets. -/
inductive Call
  | registerWebhook (config : WebhookConfig) (now : ℕ) (random : RandomText)
  | updateWebhook (webhookId : String) (config : PartialConfig)
  | enableWebhook (webhookId : String)
  | disableWebhook (webhookId : String)
  | deleteWebhook (webhookId : String)
  | getWebhook (webhookId : String)
  | listWebhooks
  | sendEvent (payload : WebhookPayload)
  | retryDelivery (eventId webhookId : String)
  | testWebhook (webhookId : String) (now : ℕ)
  | getDeliveryHistory (webhookId : String) (limit : ℚ)

/-- What a call resolves with. -/
inductive Result
  | webhookId (id : String)
  | webhook (document : Document)
  | documents (documents : List Document)
  | response (response : HttpResponse)
  | done
  deriving DecidableEq

/-- The method a call runs. -/
def Call.method : Call → Method Result
  | .registerWebhook config now random => do
    let id ← Webhook.registerWebhook keyPrefix config now random
    pure (.webhookId id)
  | .updateWebhook webhookId config => do
    Webhook.updateWebhook keyPrefix webhookId config
    pure .done
  | .enableWebhook webhookId => do
    Webhook.enableWebhook keyPrefix webhookId
    pure .done
  | .disableWebhook webhookId => do
    Webhook.disableWebhook keyPrefix webhookId
    pure .done
  | .deleteWebhook webhookId => do
    Webhook.deleteWebhook keyPrefix webhookId
    pure .done
  | .getWebhook webhookId => do
    let document ← Webhook.getWebhook keyPrefix webhookId
    pure (.webhook document)
  | .listWebhooks => do
    let documents ← Webhook.listWebhooks keyPrefix
    pure (.documents documents)
  | .sendEvent payload => do
    Webhook.sendEvent keyPrefix payload
    pure .done
  | .retryDelivery eventId webhookId => do
    Webhook.retryDelivery keyPrefix eventId webhookId
    pure .done
  | .testWebhook webhookId now => do
    let response ← Webhook.testWebhook keyPrefix webhookId now
    pure (.response response)
  | .getDeliveryHistory webhookId limit => do
    let documents ← Webhook.getDeliveryHistory keyPrefix webhookId limit
    pure (.documents documents)

end

/-- A manager, Redis, and the calls made so far. -/
abbrev World := Pool Thrown Cache (Store Document) Reply Call Result

/-- A manager under any interleaving of calls. -/
def system (scan : Scan Document) (keyPrefix : String) : System World (PoolEvent Call Choice) :=
  Pool.system (serve scan) (Call.method keyPrefix)

/-- A method on its own, with what the environment will choose. -/
abbrev SoloWorld := Solo Thrown Cache (Store Document) Choice Reply

theorem run_ask_bind {α : Type} (scan : Scan Document) (c : Command) (k : Reply c → Method α)
    (w : SoloWorld) :
    ((ask c >>= k).alone (serve scan)).run w =
      ((k (respond scan (w.choices 0) c w.server).1).alone (serve scan)).run
        (w.send (serve scan) c).2 :=
  rfl

end KitiumJobQueue.Webhook
