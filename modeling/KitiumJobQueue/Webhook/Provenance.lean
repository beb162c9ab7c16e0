import KitiumJobQueue.Foundations.SharedInvariants
import KitiumJobQueue.Webhook.Manager

/-!
# Where posts come from

All methods of a `WebhookManager`, called in any number and interleaved at their waits, with any
answers to the posts. What is stored and cached is made by calls: a configuration that was
registered, laid over by the updates made under the same id, or the record of an attempt (`Made`).

So a post goes only to what some call has made, with its own headers and authentication; an event
goes only to webhooks that are active and subscribed to it, and no oftener than they allow
(`posted_of_run`). What the reading methods return was made likewise (`returned_of_run`). Every
command is answered here.
-/

namespace KitiumJobQueue.Webhook.Provenance

open Effects JavaScript Redis

/-! ## What calls make -/

/-- The update a call makes. -/
def update? : Call → Option (String × PartialConfig)
  | .updateWebhook webhookId config => some (webhookId, config)
  | .enableWebhook webhookId => some (webhookId, { active := .value true })
  | .disableWebhook webhookId => some (webhookId, { active := .value false })
  | .registerWebhook _ _ _ | .deleteWebhook _ | .getWebhook _ | .listWebhooks | .sendEvent _
  | .retryDelivery _ _ | .testWebhook _ _ | .getDeliveryHistory _ _ => none

section

variable (keyPrefix : String) (Called : Call → Prop)

/-- A call sends the payload to the webhook it has found under the key, as attempt number
`attemptNumber` or as a test. -/
def Sends (key : String) (webhook : Document) (payload : WebhookPayload) :
    Option ℕ → Call → Prop
  | some attemptNumber, .sendEvent event =>
    payload = event ∧ webhook.active = some true ∧
      (∃ events, webhook.events = some events ∧ event.eventType ∈ events) ∧
      1 ≤ attemptNumber ∧ attemptNumber ≤ webhook.retries
  | some attemptNumber, .retryDelivery eventId webhookId =>
    payload = { eventType := .jobCompleted, eventId := eventId } ∧
      key = buildWebhookKey keyPrefix webhookId ∧
      1 ≤ attemptNumber ∧ attemptNumber ≤ webhook.retries
  | none, .testWebhook webhookId now =>
    payload = { eventType := .jobCompleted, eventId := "test-" ++ toString now } ∧
      key = buildWebhookKey keyPrefix webhookId
  | _, _ => False

/-- What calls have made under a key. -/
inductive Made : String → Document → Prop
  | registered {config : WebhookConfig} {now : ℕ} {random : RandomText}
      (hcalled : Called (.registerWebhook config now random)) (hurl : ¬ isBlank config.url)
      (hevents : config.events ≠ []) :
      Made (buildWebhookKey keyPrefix (newWebhookId now random)) config.document
  | updated {call : Call} {webhookId : String} {config : PartialConfig} {existing : Document}
      (hcalled : Called call) (hupdate : update? call = some (webhookId, config))
      (hexisting : Made (buildWebhookKey keyPrefix webhookId) existing) :
      Made (buildWebhookKey keyPrefix webhookId) (existing.update config)
  | recorded {call : Call} {key : String} {webhook : Document} {payload : WebhookPayload}
      {attempt : WebhookDeliveryAttempt} (hcalled : Called call) (hwebhook : Made key webhook)
      (hsends : Sends keyPrefix key webhook payload (some attempt.attemptNumber) call)
      (hevent : attempt.eventId = payload.eventId) (hurl : attempt.webhookId = webhook.url) :
      Made (attemptKey keyPrefix attempt) { attempt := some attempt }

/-- A post of the call goes to a webhook that was made, as it was made. -/
def IsSent (call : Call) : (Σ c, Except Thrown (Reply c)) → Prop
  | ⟨.post key attemptNumber url payload headers auth, _⟩ =>
    ∃ webhook, Made keyPrefix Called key webhook ∧
      url = webhook.url ∧ headers = webhook.headers ∧ auth = webhook.auth ∧
      Sends keyPrefix key webhook payload attemptNumber call
  | ⟨.get _, _⟩ | ⟨.set _ _ _, _⟩ | ⟨.record _ _ _ _, _⟩ | ⟨.del _, _⟩ | ⟨.keys _, _⟩
  | ⟨.timer _, _⟩ => True

/-- Whatever is stored and cached was made. -/
structure Sound (s : Shared Cache (Store Document)) : Prop where
  stored : ∀ key e, s.server.lookup key = some e → Made keyPrefix Called key e.value
  cached : ∀ webhookId document, s.memory webhookId = some document →
    Made keyPrefix Called (buildWebhookKey keyPrefix webhookId) document

/-- While others do likewise, the method of the call stores and caches only what was made, posts
only to that, and resolves with what meets `Q`. -/
abbrev Safely (scan : Scan Document) (call : Call) {α : Type} (Q : α → Prop) (m : Method α) :
    Prop :=
  Respects (serve scan) (Sound keyPrefix Called) (fun _ _ => True) (IsSent keyPrefix Called call)
    Q m

end

/-! ## Commands -/

section

variable {scan : Scan Document} {keyPrefix : String} {Called : Call → Prop} {call : Call}

theorem safely_ask {c : Command} {Q : Reply c → Prop}
    (hc : ∀ v m s, Sound keyPrefix Called ⟨m, s⟩ →
      Sound keyPrefix Called ⟨m, (respond scan v c s).2⟩ ∧ Q (respond scan v c s).1)
    (hsent : ∀ r, IsSent keyPrefix Called call ⟨c, r⟩) :
    Safely keyPrefix Called scan call Q (ask c) := by
  refine .ask (fun v m s hs => ?_) fun _ _ _ _ => hsent _
  obtain ⟨hsound, hQ⟩ := hc v m s hs
  exact ⟨⟨hsound, .inr trivial⟩, fun _ hr => Except.ok.inj hr ▸ hQ⟩

theorem Sound.write {m : Cache} {s : Store Document} (hs : Sound keyPrefix Called ⟨m, s⟩)
    {key : String} {document : Document} (hmade : Made keyPrefix Called key document)
    (expiresAt : Option ℕ) : Sound keyPrefix Called ⟨m, s.set key document expiresAt⟩ where
  stored k e he := by
    rw [Store.lookup_set] at he
    split at he
    · next hk =>
      obtain rfl := Option.some.inj he
      exact hk ▸ hmade
    · exact hs.stored k e he
  cached := hs.cached

theorem safely_set {key : String} {document : Document}
    (hmade : Made keyPrefix Called key document) (ttl : ℕ) :
    Safely keyPrefix Called scan call (fun _ => True) (ask (.set key document ttl)) :=
  safely_ask (fun _ _ _ hs => ⟨hs.write hmade _, trivial⟩) fun _ => trivial

theorem safely_del (key : String) :
    Safely keyPrefix Called scan call (fun _ => True) (ask (.del key)) := by
  refine safely_ask (fun v m s hs => ⟨⟨fun k e he => ?_, hs.cached⟩, trivial⟩) fun _ => trivial
  rw [respond, Store.lookup_del] at he
  split at he
  · cases he
  · exact hs.stored k e he

theorem safely_get (key : String) :
    Safely keyPrefix Called scan call (fun data => ∀ d ∈ data, Made keyPrefix Called key d)
      (ask (.get key)) := by
  refine safely_ask (fun v m s hs => ⟨hs, fun d hd => ?_⟩) fun _ => trivial
  obtain ⟨e, he, -, rfl⟩ := Store.get_eq_some.mp hd
  exact hs.stored key e he

theorem safely_keys (pattern : String) :
    Safely keyPrefix Called scan call (fun keys => ∀ key ∈ keys, KeyMatches pattern key)
      (ask (.keys pattern)) :=
  safely_ask (fun _ _ _ hs => ⟨hs, fun _ hkey => (Store.mem_keys.mp hkey).2⟩) fun _ => trivial

theorem safely_timer (ms : ℕ) :
    Safely keyPrefix Called scan call (fun _ => True) (ask (.timer ms)) :=
  safely_ask (fun _ _ _ hs => ⟨hs, trivial⟩) fun _ => trivial

theorem safely_cacheSet {webhookId : String} {document : Document}
    (hmade : Made keyPrefix Called (buildWebhookKey keyPrefix webhookId) document) :
    Safely keyPrefix Called scan call (fun _ => True) (cacheSet webhookId document) := by
  refine .modify (fun m s hs => ⟨hs.stored, fun id d hd => ?_⟩) trivial
  by_cases hid : id = webhookId
  · subst hid
    obtain rfl := Option.some.inj ((Function.update_self id _ m).symm.trans hd)
    exact hmade
  · exact hs.cached id d ((Function.update_of_ne hid _ m).symm.trans hd)

/-! ## Configurations -/

theorem safely_registerWebhook {config : WebhookConfig} {now : ℕ} {random : RandomText}
    (hcalled : Called (.registerWebhook config now random)) :
    Safely keyPrefix Called scan call (fun _ => True)
      (registerWebhook keyPrefix config now random) := by
  unfold registerWebhook
  split
  · exact .throw _
  · next hurl =>
    split
    · exact .throw _
    · next hevents =>
      have hmade : Made keyPrefix Called _ _ := .registered hcalled hurl hevents
      exact .bind (safely_set hmade _) fun _ _ =>
        .bind (safely_cacheSet hmade) fun _ _ => .pure trivial

theorem safely_getWebhook (webhookId : String) :
    Safely keyPrefix Called scan call
      (Made keyPrefix Called (buildWebhookKey keyPrefix webhookId))
      (getWebhook keyPrefix webhookId) := by
  refine .read_bind fun w hw => ?_
  cases hcached : w.memory webhookId with
  | some document => exact .pure (hw.cached webhookId document hcached)
  | none =>
    refine .bind (safely_get _) fun data hdata => ?_
    cases data with
    | none => exact .throw _
    | some document =>
      exact .bind (safely_cacheSet (hdata document rfl)) fun _ _ => .pure (hdata document rfl)

theorem safely_updateWebhook {webhookId : String} {config : PartialConfig}
    (hcalled : Called call) (hupdate : update? call = some (webhookId, config)) :
    Safely keyPrefix Called scan call (fun _ => True)
      (updateWebhook keyPrefix webhookId config) := by
  refine .bind (safely_getWebhook webhookId) fun existing hexisting => ?_
  have hmade := Made.updated hcalled hupdate hexisting
  exact .bind (safely_set hmade _) fun _ _ => safely_cacheSet hmade

theorem safely_deleteWebhook (webhookId : String) :
    Safely keyPrefix Called scan call (fun _ => True) (deleteWebhook keyPrefix webhookId) := by
  refine .bind (safely_del _) fun _ _ => .modify (fun m s hs => ⟨hs.stored, fun id d hd => ?_⟩)
    trivial
  by_cases hid : id = webhookId
  · subst hid
    cases (Function.update_self id none m).symm.trans hd
  · exact hs.cached id d ((Function.update_of_ne hid _ m).symm.trans hd)

/-- The loop, by induction on the keys that are left. -/
theorem safely_readDocuments {pattern : String} {keys : List String}
    (hkeys : ∀ key ∈ keys, KeyMatches pattern key) :
    Safely keyPrefix Called scan call
      (fun entries => ∀ entry ∈ entries,
        KeyMatches pattern entry.1 ∧ Made keyPrefix Called entry.1 entry.2)
      (readDocuments keys) := by
  induction keys with
  | nil => exact .pure (List.forall_mem_nil _)
  | cons key keys ih =>
    obtain ⟨hkey, hkeys⟩ := List.forall_mem_cons.mp hkeys
    refine .bind (safely_get key) fun data hdata => ?_
    refine .bind (ih hkeys) fun documents hdocuments => .pure ?_
    cases data with
    | none => exact hdocuments
    | some document => exact List.forall_mem_cons.mpr ⟨⟨hkey, hdata document rfl⟩, hdocuments⟩

theorem safely_listEntries :
    Safely keyPrefix Called scan call
      (fun entries => ∀ entry ∈ entries,
        KeyMatches (keyPrefix ++ ":*") entry.1 ∧ Made keyPrefix Called entry.1 entry.2)
      (listEntries keyPrefix) :=
  .handle (.bind (safely_keys _) fun _ hkeys => safely_readDocuments hkeys)
    fun _ => .pure (List.forall_mem_nil _)

/-! ## Deliveries -/

section

variable {key : String} {webhook : Document} {payload : WebhookPayload} (hcalled : Called call)
  (hmade : Made keyPrefix Called key webhook)
include hcalled hmade

theorem safely_tryDeliverWebhookAttempt {strategy : WebhookDeliveryStrategy} {n : ℕ}
    (hsends : Sends keyPrefix key webhook payload (some n) call) :
    Safely keyPrefix Called scan call (fun _ => True)
      (tryDeliverWebhookAttempt keyPrefix key webhook payload strategy n) := by
  refine .bind (P := fun _ => True) (safely_ask (fun _ _ _ hs => ⟨hs, trivial⟩)
    fun _ => ⟨webhook, hmade, rfl, rfl, rfl, hsends⟩) fun posted _ => ?_
  refine .bind (P := fun _ => True) (safely_ask (fun _ _ _ hs => ⟨hs.write ?_ _, trivial⟩)
    fun _ => trivial) fun _ _ => .pure trivial
  -- what the record tells does not depend on the answer
  cases hresponse : posted.response with
  | ok response =>
    simp only [attemptRecord, hresponse]
    exact .recorded hcalled hmade hsends rfl rfl
  | error error =>
    simp only [attemptRecord, hresponse]
    exact .recorded hcalled hmade hsends rfl rfl

theorem safely_deliverWebhook
    (hsends : ∀ n : ℕ, 1 ≤ n → n ≤ webhook.retries →
      Sends keyPrefix key webhook payload (some n) call) :
    Safely keyPrefix Called scan call (fun _ => True)
      (deliverWebhook keyPrefix key webhook payload) :=
  attemptLoop_rule keyPrefix
    (M := fun _ m => Safely keyPrefix Called scan call (fun _ => True) m)
    (fun _ _ => .pure trivial) (fun _ _ _ _ hm hf => .bind hm fun a _ => hf a)
    (fun n hn hle => safely_tryDeliverWebhookAttempt hcalled hmade (hsends n hn hle))
    safely_timer _ le_rfl

end

theorem safely_sendEvent {payload : WebhookPayload} (hcalled : Called (.sendEvent payload)) :
    Safely keyPrefix Called scan (.sendEvent payload) (fun _ => True)
      (sendEvent keyPrefix payload) := by
  refine .handle (.bind safely_listEntries fun entries hentries => ?_) fun _ => .pure trivial
  refine .forEach fun entry hentry => ?_
  unfold sendTo
  split
  case isFalse => exact .pure trivial
  case isTrue hactive =>
  split
  case h_1 => exact .throw _
  case h_2 events hevents =>
  split
  case isFalse => exact .pure trivial
  case isTrue hmem =>
  exact safely_deliverWebhook hcalled (hentries entry hentry).2 fun n hn hle =>
    ⟨rfl, hactive, ⟨events, hevents, hmem⟩, hn, hle⟩

theorem safely_retryDelivery {eventId webhookId : String}
    (hcalled : Called (.retryDelivery eventId webhookId)) :
    Safely keyPrefix Called scan (.retryDelivery eventId webhookId) (fun _ => True)
      (retryDelivery keyPrefix eventId webhookId) :=
  .bind (safely_getWebhook webhookId) fun _ hmade =>
    safely_deliverWebhook hcalled hmade fun _ hn hle => ⟨rfl, rfl, hn, hle⟩

theorem safely_testWebhook (webhookId : String) (now : ℕ) :
    Safely keyPrefix Called scan (.testWebhook webhookId now) (fun _ => True)
      (testWebhook keyPrefix webhookId now) := by
  refine .bind (safely_getWebhook webhookId) fun webhook hmade => ?_
  refine .bind (P := fun _ => True) (safely_ask (fun _ _ _ hs => ⟨hs, trivial⟩)
    fun _ => ⟨webhook, hmade, rfl, rfl, rfl, rfl, rfl⟩) fun posted _ => ?_
  cases hresponse : posted.response with
  | ok response => exact .pure trivial
  | error error => exact .throw _

/-! ## Calls -/

/-- All these documents were made under keys that the pattern matches. -/
def AllMade (keyPrefix : String) (Called : Call → Prop) (pattern : String)
    (documents : List Document) : Prop :=
  ∀ document ∈ documents, ∃ key, KeyMatches pattern key ∧ Made keyPrefix Called key document

/-- What the reading methods resolve with. -/
def Returned (keyPrefix : String) (Called : Call → Prop) : Call → Result → Prop
  | .getWebhook webhookId, result =>
    ∃ document, result = .webhook document ∧
      Made keyPrefix Called (buildWebhookKey keyPrefix webhookId) document
  | .listWebhooks, result =>
    ∃ documents, result = .documents documents ∧
      AllMade keyPrefix Called (keyPrefix ++ ":*") documents
  | .getDeliveryHistory webhookId _, result =>
    ∃ documents, result = .documents documents ∧
      AllMade keyPrefix Called (keyPrefix ++ ":" ++ webhookId ++ ":attempts:*") documents
  | .registerWebhook _ _ _, _ | .updateWebhook _ _, _ | .enableWebhook _, _ | .disableWebhook _, _
  | .deleteWebhook _, _ | .sendEvent _, _ | .retryDelivery _ _, _ | .testWebhook _ _, _ => True

theorem allMade_of_entries {pattern : String} {entries : List (String × Document)}
    (h : ∀ entry ∈ entries,
      KeyMatches pattern entry.1 ∧ Made keyPrefix Called entry.1 entry.2) :
    AllMade keyPrefix Called pattern (entries.map Prod.snd) := by
  intro document hdocument
  obtain ⟨entry, hentry, rfl⟩ := List.mem_map.mp hdocument
  exact ⟨entry.1, h entry hentry⟩

theorem sliceTo_subset {α : Type} (limit : ℚ) (l : List α) : sliceTo limit l ⊆ l := by
  unfold sliceTo
  split
  · exact List.take_subset _ _
  · exact List.take_subset _ _

theorem safely_getDeliveryHistory (webhookId : String) (limit : ℚ) :
    Safely keyPrefix Called scan call
      (AllMade keyPrefix Called (keyPrefix ++ ":" ++ webhookId ++ ":attempts:*"))
      (getDeliveryHistory keyPrefix webhookId limit) := by
  refine .handle (.bind (safely_keys _) fun keys hkeys => ?_) fun _ => .pure (List.forall_mem_nil _)
  refine .bind (safely_readDocuments hkeys) fun entries hentries => .pure fun document hd => ?_
  exact allMade_of_entries hentries document
    ((List.perm_insertionSort _ _).subset (sliceTo_subset limit _ hd))

theorem safely_method (hcalled : Called call) :
    Safely keyPrefix Called scan call (Returned keyPrefix Called call)
      (call.method keyPrefix) := by
  cases call with
  | registerWebhook config now random =>
    exact .bind (safely_registerWebhook hcalled) fun _ _ => .pure trivial
  | updateWebhook webhookId config =>
    exact .bind (safely_updateWebhook hcalled rfl) fun _ _ => .pure trivial
  | enableWebhook webhookId =>
    exact .bind (safely_updateWebhook hcalled rfl) fun _ _ => .pure trivial
  | disableWebhook webhookId =>
    exact .bind (safely_updateWebhook hcalled rfl) fun _ _ => .pure trivial
  | deleteWebhook webhookId =>
    exact .bind (safely_deleteWebhook webhookId) fun _ _ => .pure trivial
  | getWebhook webhookId =>
    exact .bind (safely_getWebhook webhookId) fun document hmade => .pure ⟨document, rfl, hmade⟩
  | listWebhooks =>
    refine .bind (.bind safely_listEntries fun entries hentries =>
      .pure (allMade_of_entries hentries)) fun documents hdocuments => ?_
    exact .pure ⟨documents, rfl, hdocuments⟩
  | sendEvent payload => exact .bind (safely_sendEvent hcalled) fun _ _ => .pure trivial
  | retryDelivery eventId webhookId =>
    exact .bind (safely_retryDelivery hcalled) fun _ _ => .pure trivial
  | testWebhook webhookId now =>
    exact .bind (safely_testWebhook webhookId now) fun _ _ => .pure trivial
  | getDeliveryHistory webhookId limit =>
    exact .bind (safely_getDeliveryHistory webhookId limit)
      fun documents hdocuments => .pure ⟨documents, rfl, hdocuments⟩

/-! ## Runs -/

theorem sound_init : Sound keyPrefix Called ⟨fun _ => none, .empty⟩ where
  stored key e he := by cases (Store.lookup_empty key).symm.trans he
  cached _ _ hd := by cases hd

variable {es : List (PoolEvent Call Choice)} {p : World}

/-- **Nothing is posted that no call has made.** However the calls of a manager overlap, a post goes
to what calls of that run have made under its key, with the headers and the authentication that has.
It is made by a test or by a retry of a delivery that names the key, which may be that of the record
of an attempt, or by `sendEvent` to a webhook that is active and subscribed to the event, each
attempt being one that the webhook allows. -/
theorem posted_of_run
    (h : (system scan keyPrefix).runFrom ⟨⟨fun _ => none, .empty⟩, []⟩ es = some p) :
    ∀ t ∈ p.threads, ∀ key attemptNumber url payload headers auth posted,
      ⟨.post key attemptNumber url payload headers auth, posted⟩ ∈ t.heard →
        ∃ webhook, Made keyPrefix (fun call => .spawn call ∈ es) key webhook ∧
          url = webhook.url ∧ headers = webhook.headers ∧ auth = webhook.auth ∧
          Sends keyPrefix key webhook payload attemptNumber t.label := by
  intro t ht key attemptNumber url payload headers auth posted hposted
  exact heard_of_run (P := fun call => .spawn call ∈ es) (fun _ hcalled => safely_method hcalled)
    sound_init (fun _ hcalled => hcalled) h t ht _ hposted

/-- **What is read was made**: `getWebhook` returns what calls have made of that webhook, and what
`listWebhooks` and `getDeliveryHistory` return was made under keys that their patterns match. -/
theorem returned_of_run
    (h : (system scan keyPrefix).runFrom ⟨⟨fun _ => none, .empty⟩, []⟩ es = some p) :
    ∀ t ∈ p.threads, ∀ result, t.stage = .settled (.ok result) →
      Returned keyPrefix (fun call => .spawn call ∈ es) t.label result :=
  (ensures_of_run (P := fun call => .spawn call ∈ es) (fun _ hcalled => safely_method hcalled)
    sound_init (fun _ hcalled => hcalled) h).2

end

/-! ## A webhook that changes while an event is sent -/

/-- A webhook for completed jobs. -/
def completedHook : WebhookConfig where
  url := "https://example.org/hook"
  events := [.jobCompleted]
  active := true
  createdAt := 0

/-- The text that is drawn for it. -/
def drawnText : RandomText where
  text := "a"
  alphanumeric := by simp

/-- The call that registers it. -/
def registering : Call := .registerWebhook completedHook 7 drawnText

/-- Its id. -/
def completedHookId : String := "webhook:7:a"

/-- Its first post fails, it is moved and disabled meanwhile, and the history is read. -/
def sendingRun : List (PoolEvent Call Choice) :=
  [.spawn registering, .exec 0 {}, .resume 0,
    .spawn (.sendEvent { eventType := .jobCompleted, eventId := "e1" }),
    .exec 1 {}, .resume 1, .exec 1 {}, .resume 1, .exec 1 { response := .error (.value "refused") },
    .spawn (.updateWebhook completedHookId { url := .value "https://example.org/moved" }),
    .exec 2 {}, .resume 2, .spawn (.disableWebhook completedHookId), .exec 3 {},
    .resume 1, .exec 1 {}, .resume 1, .exec 1 {}, .resume 1, .exec 1 {}, .resume 3,
    .spawn (.getDeliveryHistory "https://example.org/hook" 10), .exec 4 {}, .resume 4,
    .exec 4 {}, .resume 4, .resume 1]

theorem isSome_sendingRun :
    ((system Scan.stored "webhooks").runFrom ⟨⟨fun _ => none, .empty⟩, []⟩ sendingRun).isSome := by
  decide +kernel

/-- The posts of this run go to the webhook as it was registered. -/
theorem posted_of_sendingRun :
    ∃ p, (system Scan.stored "webhooks").runFrom ⟨⟨fun _ => none, .empty⟩, []⟩ sendingRun =
        some p ∧
      ∀ t ∈ p.threads, ∀ key attemptNumber url payload headers auth posted,
        ⟨.post key attemptNumber url payload headers auth, posted⟩ ∈ t.heard →
          ∃ webhook, Made "webhooks" (fun call => .spawn call ∈ sendingRun) key webhook ∧
            url = webhook.url ∧ headers = webhook.headers ∧ auth = webhook.auth ∧
            Sends "webhooks" key webhook payload attemptNumber t.label :=
  ⟨_, (Option.some_get isSome_sendingRun).symm,
    posted_of_run (Option.some_get isSome_sendingRun).symm⟩

/-- What its calls return was made. -/
theorem returned_of_sendingRun :
    ∃ p, (system Scan.stored "webhooks").runFrom ⟨⟨fun _ => none, .empty⟩, []⟩ sendingRun =
        some p ∧
      ∀ t ∈ p.threads, ∀ result, t.stage = .settled (.ok result) →
        Returned "webhooks" (fun call => .spawn call ∈ sendingRun) t.label result :=
  ⟨_, (Option.some_get isSome_sendingRun).symm,
    returned_of_run (Option.some_get isSome_sendingRun).symm⟩

end KitiumJobQueue.Webhook.Provenance
