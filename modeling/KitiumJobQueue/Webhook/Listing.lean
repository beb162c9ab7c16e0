import KitiumJobQueue.Webhook.Delivery

/-!
# What `listWebhooks` lists

The methods of a manager called one after another, with a book kept beside them of the webhooks that
are registered. Configurations and records of attempts lie in one key space, and the pattern of the
listing tells them apart no more than the prefix does: `listing_of_run` says that the listing is the
book as long as no attempt is recorded under a key the pattern means, no id is drawn twice and
nothing expires.
-/

namespace KitiumJobQueue.Webhook

open Effects JavaScript Redis

/-! ## The book -/

/-- A manager and its database, and the webhooks that are registered and not deleted, as they are
configured now. -/
structure Book extends Shared Cache (Store Document) where
  registered : List (String × Document)

/-- The book after an update. -/
def updated (webhookId : String) (config : PartialConfig) (registered : List (String × Document)) :
    List (String × Document) :=
  registered.map fun p => if p.1 = webhookId then (p.1, p.2.update config) else p

/-- What a call that resolved has done to the book. -/
def entered (registered : List (String × Document)) : Call → Result → List (String × Document)
  | .registerWebhook config _ _, .webhookId id => (id, config.document) :: registered
  | .updateWebhook webhookId config, _ => updated webhookId config registered
  | .enableWebhook webhookId, _ => updated webhookId { active := .value true } registered
  | .disableWebhook webhookId, _ => updated webhookId { active := .value false } registered
  | .deleteWebhook webhookId, _ => registered.filter fun p => p.1 ≠ webhookId
  | .registerWebhook _ _ _, _ | .getWebhook _, _ | .listWebhooks, _ | .sendEvent _, _
  | .retryDelivery _ _, _ | .testWebhook _ _, _ | .getDeliveryHistory _ _, _ => registered

section

variable (scan : Scan Document) (keyPrefix : String)

/-- A call made on its own. -/
def Book.call (b : Book) (c : Call) (choices : ℕ → Choice) : Book :=
  let ended := ((c.method keyPrefix).alone (serve scan)).run ⟨b.toShared, choices, []⟩
  { toShared := ended.2.toShared
    registered :=
      match ended.1 with
      | .ok result => entered b.registered c result
      | .error _ => b.registered }

/-- Calls made one after another. -/
def calls : System Book (Call × (ℕ → Choice)) where
  step b e := some (b.call scan keyPrefix e.1 e.2)

/-- The pattern of the listing means the key. -/
def IsListed (key : String) : Prop := KeyMatches (keyPrefix ++ ":*") key

instance (key : String) : Decidable (IsListed keyPrefix key) :=
  inferInstanceAs (Decidable (KeyMatches _ _))

/-- Nothing that the listing would find expires. -/
def Unexpired (s : Store Document) (choices : ℕ → Choice) : Prop :=
  ∀ key e, IsListed keyPrefix key → s.lookup key = some e → ∀ n, e.IsLive (choices n).now

/-- Whatever attempts `deliverWebhook` makes, it records them where the listing does not look. -/
def RecordsApart (webhook : Document) (eventId : String) : Prop :=
  ∀ attempt : WebhookDeliveryAttempt, attempt.eventId = eventId → attempt.webhookId = webhook.url →
    1 ≤ attempt.attemptNumber → attempt.attemptNumber ≤ webhook.retries →
    ¬ IsListed keyPrefix (attemptKey keyPrefix attempt)

/-- The calls in which the listing keeps to the book. -/
def Sound (b : Book) : Call → Prop
  | .registerWebhook _ now random =>
      IsListed keyPrefix (buildWebhookKey keyPrefix (newWebhookId now random)) ∧
        newWebhookId now random ∉ b.registered.map Prod.fst
  | .sendEvent payload =>
      ∀ key e, IsListed keyPrefix key → b.server.lookup key = some e →
        e.value.Subscribed payload → RecordsApart keyPrefix e.value payload.eventId
  | .retryDelivery eventId webhookId =>
      ∀ webhook, (b.memory webhookId = some webhook ∨
          ∃ e, b.server.lookup (buildWebhookKey keyPrefix webhookId) = some e ∧
            e.value = webhook) →
        RecordsApart keyPrefix webhook eventId
  | .updateWebhook _ _ | .enableWebhook _ | .disableWebhook _ | .deleteWebhook _ | .getWebhook _
  | .listWebhooks | .testWebhook _ _ | .getDeliveryHistory _ _ => True

/-- The listing is the book, as long as nothing has expired. -/
def ListsBook (b : Book) : Prop :=
  ∀ choices, Unexpired keyPrefix b.server choices →
    ∃ documents w, ((listWebhooks keyPrefix).alone (serve scan)).run ⟨b.toShared, choices, []⟩ =
        (.ok documents, w) ∧
      documents.Perm (b.registered.map Prod.snd)

/-- A new manager on a database. -/
def Book.init (s : Store Document) : Book where
  memory _ := none
  server := s
  registered := []

end

/-! ## The invariant -/

/-- What the listing would find is the book, and the cache holds nothing else of that. -/
structure Consistent (keyPrefix : String) (registered : List (String × Document))
    (s : Shared Cache (Store Document)) : Prop where
  nodup : (registered.map Prod.fst).Nodup
  listed : ∀ p ∈ registered, IsListed keyPrefix (buildWebhookKey keyPrefix p.1)
  owned : ∀ key e, IsListed keyPrefix key → s.server.lookup key = some e → Own keyPrefix key
  stored : ∀ id document, IsListed keyPrefix (buildWebhookKey keyPrefix id) →
    ((id, document) ∈ registered ↔
      ∃ e, s.server.lookup (buildWebhookKey keyPrefix id) = some e ∧ e.value = document)
  cached : ∀ id document, s.memory id = some document →
    IsListed keyPrefix (buildWebhookKey keyPrefix id) → (id, document) ∈ registered

theorem buildWebhookKey_inj {keyPrefix id id' : String} :
    buildWebhookKey keyPrefix id = buildWebhookKey keyPrefix id' ↔ id = id' := by
  unfold buildWebhookKey
  refine ⟨fun h => ?_, fun h => h ▸ rfl⟩
  simpa using h

namespace Consistent

variable {keyPrefix : String} {registered : List (String × Document)}
variable {s s' : Shared Cache (Store Document)}

/-- Only what the listing would find matters. -/
theorem congr (h : Consistent keyPrefix registered s) (hmemory : s'.memory = s.memory)
    (hserver : ∀ key, IsListed keyPrefix key → s'.server.lookup key = s.server.lookup key) :
    Consistent keyPrefix registered s' where
  nodup := h.nodup
  listed := h.listed
  owned key e hkey he := h.owned key e hkey (hserver key hkey ▸ he)
  stored id document hid := by
    rw [hserver _ hid]
    exact h.stored id document hid
  cached id document hcached hid := h.cached id document (hmemory ▸ hcached) hid

/-- One webhook is written, or taken away. -/
theorem put (h : Consistent keyPrefix registered s) (id : String) {o : Option Document}
    {registered' : List (String × Document)}
    (hmemory : s'.memory = Function.update s.memory id o)
    (hothers : ∀ key, key ≠ buildWebhookKey keyPrefix id →
      s'.server.lookup key = s.server.lookup key)
    (hself : (s'.server.lookup (buildWebhookKey keyPrefix id)).map Entry.value = o)
    (hnodup : (registered'.map Prod.fst).Nodup)
    (hkept : ∀ id' document, id' ≠ id →
      ((id', document) ∈ registered' ↔ (id', document) ∈ registered))
    (hentered : ∀ document, (id, document) ∈ registered' ↔
      IsListed keyPrefix (buildWebhookKey keyPrefix id) ∧ o = some document) :
    Consistent keyPrefix registered' s' where
  nodup := hnodup
  listed := by
    rintro ⟨id', document⟩ hmem
    by_cases hid : id' = id
    · subst hid
      exact ((hentered document).mp hmem).1
    · exact h.listed _ ((hkept id' document hid).mp hmem)
  owned key e hkey he := by
    by_cases hk : key = buildWebhookKey keyPrefix id
    · exact ⟨id, hk⟩
    · exact h.owned key e hkey (hothers key hk ▸ he)
  stored id' document hlisted := by
    by_cases hid : id' = id
    · subst hid
      rw [hentered, and_iff_right hlisted, ← hself, Option.map_eq_some_iff]
    · rw [hkept id' document hid, hothers _ (mt buildWebhookKey_inj.mp hid)]
      exact h.stored id' document hlisted
  cached id' document hcached hlisted := by
    rw [hmemory] at hcached
    by_cases hid : id' = id
    · subst hid
      rw [Function.update_self] at hcached
      exact (hentered document).mpr ⟨hlisted, hcached⟩
    · rw [Function.update_of_ne hid] at hcached
      exact (hkept id' document hid).mpr (h.cached id' document hcached hlisted)

/-- The book says what a webhook is. -/
theorem unique (h : Consistent keyPrefix registered s) {id : String} {document document' : Document}
    (hmem : (id, document) ∈ registered) (hmem' : (id, document') ∈ registered) :
    document = document' := by
  have hlisted := h.listed _ hmem
  obtain ⟨e, he, rfl⟩ := (h.stored id document hlisted).mp hmem
  obtain ⟨e', he', rfl⟩ := (h.stored id document' hlisted).mp hmem'
  cases he.symm.trans he'
  rfl

end Consistent

/-! ## The methods -/

theorem mem_updated {id id' : String} {config : PartialConfig} {document : Document}
    {registered : List (String × Document)} :
    (id', document) ∈ updated id config registered ↔
      if id' = id then ∃ d, (id, d) ∈ registered ∧ d.update config = document
      else (id', document) ∈ registered := by
  unfold updated
  rw [List.mem_map]
  constructor
  · rintro ⟨⟨id'', d⟩, hmem, heq⟩
    split at heq
    · next hid =>
      cases heq
      subst hid
      rw [if_pos rfl]
      exact ⟨d, hmem, rfl⟩
    · next hid =>
      cases heq
      rw [if_neg hid]
      exact hmem
  · intro h
    split at h
    · next hid =>
      obtain ⟨d, hmem, rfl⟩ := h
      subst hid
      exact ⟨(id', d), hmem, if_pos rfl⟩
    · next hid => exact ⟨(id', document), h, if_neg hid⟩

theorem map_fst_updated (id : String) (config : PartialConfig)
    (registered : List (String × Document)) :
    (updated id config registered).map Prod.fst = registered.map Prod.fst := by
  rw [updated, List.map_map]
  refine List.map_congr_left fun p _ => ?_
  simp only [Function.comp_apply]
  split <;> rfl

section

variable {scan : Scan Document} {keyPrefix : String} {registered : List (String × Document)}
variable {w : SoloWorld}

theorem run_getWebhook_of_cached {id : String} {document : Document}
    (h : w.memory id = some document) :
    ((getWebhook keyPrefix id).alone (serve scan)).run w = (.ok document, w) := by
  rw [getWebhook, Coroutine.run_alone_read_bind, h]
  rfl

theorem run_getWebhook_of_found {id : String} {document : Document} (h : w.memory id = none)
    (hget : w.server.get (w.choices 0).now (buildWebhookKey keyPrefix id) = some document) :
    ((getWebhook keyPrefix id).alone (serve scan)).run w =
      (.ok document, { (w.send (serve scan) (.get (buildWebhookKey keyPrefix id))).2 with
        memory := Function.update w.memory id (some document) }) := by
  have hanswer : (respond scan (w.choices 0) (.get (buildWebhookKey keyPrefix id)) w.server).1 =
    some document := hget
  rw [getWebhook, Coroutine.run_alone_read_bind, h]
  rw [run_ask_bind scan, hanswer]
  rfl

theorem run_getWebhook_of_missing {id : String} (h : w.memory id = none)
    (hget : w.server.get (w.choices 0).now (buildWebhookKey keyPrefix id) = none) :
    ((getWebhook keyPrefix id).alone (serve scan)).run w =
      (.error (notFound id), (w.send (serve scan) (.get (buildWebhookKey keyPrefix id))).2) := by
  have hanswer : (respond scan (w.choices 0) (.get (buildWebhookKey keyPrefix id)) w.server).1 =
    none := hget
  rw [getWebhook, Coroutine.run_alone_read_bind, h]
  rw [run_ask_bind scan, hanswer]
  rfl

/-- What `getWebhook` gives is in the book, and it leaves everything in order. -/
theorem Consistent.run_getWebhook (scan : Scan Document)
    (h : Consistent keyPrefix registered w.toShared) (id : String) :
    ∃ r w', ((getWebhook keyPrefix id).alone (serve scan)).run w = (r, w') ∧
      Consistent keyPrefix registered w'.toShared ∧ w'.server = w.server ∧
      ∀ document, r = .ok document →
        (IsListed keyPrefix (buildWebhookKey keyPrefix id) → (id, document) ∈ registered) ∧
        (w.memory id = some document ∨
          ∃ e, w.server.lookup (buildWebhookKey keyPrefix id) = some e ∧ e.value = document) := by
  cases hcached : w.memory id with
  | some document =>
    refine ⟨_, _, run_getWebhook_of_cached hcached, h, rfl, fun d hd => ?_⟩
    cases hd
    exact ⟨h.cached id document hcached, .inl rfl⟩
  | none =>
    cases hfound : w.server.get (w.choices 0).now (buildWebhookKey keyPrefix id) with
    | none =>
      exact ⟨_, _, run_getWebhook_of_missing hcached hfound, h.congr rfl fun _ _ => rfl, rfl,
        by simp⟩
    | some document =>
      obtain ⟨e, he, -, hvalue⟩ := Store.get_eq_some.mp hfound
      refine ⟨_, _, run_getWebhook_of_found hcached hfound, ?_, rfl, fun d hd => ?_⟩
      · refine h.put id rfl (fun _ _ => rfl) ?_ h.nodup (fun _ _ _ => Iff.rfl) fun d => ?_
        · exact (congrArg (Option.map Entry.value) he).trans (congrArg some hvalue)
        · constructor
          · intro hmem
            have hlisted := h.listed _ hmem
            exact ⟨hlisted, congrArg some
              (h.unique ((h.stored id document hlisted).mpr ⟨e, he, hvalue⟩) hmem)⟩
          · rintro ⟨hlisted, hd⟩
            cases hd
            exact (h.stored id document hlisted).mpr ⟨e, he, hvalue⟩
      · cases hd
        exact ⟨fun hlisted => (h.stored id document hlisted).mpr ⟨e, he, hvalue⟩,
          .inr ⟨e, he, hvalue⟩⟩

theorem Consistent.run_updateWebhook (h : Consistent keyPrefix registered w.toShared) (id : String)
    (config : PartialConfig) :
    ∃ r w', ((updateWebhook keyPrefix id config).alone (serve scan)).run w = (r, w') ∧
      (∀ a, r = .ok a → Consistent keyPrefix (updated id config registered) w'.toShared) ∧
      ∀ e, r = .error e → Consistent keyPrefix registered w'.toShared := by
  obtain ⟨r, w₁, hrun₁, h₁, -, hget⟩ := h.run_getWebhook scan id
  unfold updateWebhook
  rw [Coroutine.alone_bind]
  cases r with
  | error e => exact ⟨_, _, Async.run_bind_of_error hrun₁, nofun, fun _ _ => h₁⟩
  | ok existing =>
    refine ⟨_, _, (Async.run_bind_of_ok hrun₁).trans rfl, fun _ _ => ?_, nofun⟩
    have hlisted := (hget existing rfl).1
    refine h₁.put id (o := some (existing.update config)) rfl ?_ ?_ ?_ ?_ ?_
    · intro key hkey
      exact (Store.lookup_set ..).trans (if_neg hkey)
    · exact (congrArg (Option.map Entry.value) ((Store.lookup_set ..).trans (if_pos rfl)))
    · rw [map_fst_updated]
      exact h.nodup
    · intro id' document hid
      rw [mem_updated, if_neg hid]
    · intro document
      rw [mem_updated, if_pos rfl]
      constructor
      · rintro ⟨d, hmem, rfl⟩
        have hl := h.listed _ hmem
        exact ⟨hl, by rw [h.unique (hlisted hl) hmem]⟩
      · rintro ⟨hl, hd⟩
        exact ⟨existing, hlisted hl, Option.some.inj hd⟩

theorem Consistent.run_deleteWebhook (h : Consistent keyPrefix registered w.toShared)
    (id : String) :
    ∃ w', ((deleteWebhook keyPrefix id).alone (serve scan)).run w = (.ok (), w') ∧
      Consistent keyPrefix (registered.filter fun p => p.1 ≠ id) w'.toShared := by
  refine ⟨_, rfl, ?_⟩
  refine h.put id (o := none) rfl ?_ ?_ ?_ ?_ ?_
  · intro key hkey
    exact (Store.lookup_del ..).trans (if_neg hkey)
  · exact congrArg (Option.map Entry.value) ((Store.lookup_del ..).trans (if_pos rfl))
  · exact h.nodup.sublist (List.filter_sublist.map Prod.fst)
  · intro id' document hid
    simp [hid]
  · intro document
    simp

theorem Consistent.run_registerWebhook (h : Consistent keyPrefix registered w.toShared)
    (config : WebhookConfig) {now : ℕ} {random : RandomText}
    (hlisted : IsListed keyPrefix (buildWebhookKey keyPrefix (newWebhookId now random)))
    (hfresh : newWebhookId now random ∉ registered.map Prod.fst) :
    ∃ r w', ((registerWebhook keyPrefix config now random).alone (serve scan)).run w = (r, w') ∧
      (∀ id, r = .ok id → Consistent keyPrefix ((id, config.document) :: registered) w'.toShared) ∧
      ∀ e, r = .error e → Consistent keyPrefix registered w'.toShared := by
  unfold registerWebhook
  split
  · exact ⟨_, w, rfl, nofun, fun _ _ => h⟩
  split
  · exact ⟨_, w, rfl, nofun, fun _ _ => h⟩
  refine ⟨_, _, rfl, fun id hid => ?_, nofun⟩
  obtain rfl : newWebhookId now random = id := Except.ok.inj hid
  refine h.put (newWebhookId now random) (o := some config.document) rfl ?_ ?_ ?_ ?_ ?_
  · intro key hkey
    exact (Store.lookup_set ..).trans (if_neg hkey)
  · exact congrArg (Option.map Entry.value) ((Store.lookup_set ..).trans (if_pos rfl))
  · exact List.nodup_cons.mpr ⟨hfresh, h.nodup⟩
  · intro id' document hid
    simp [hid]
  · intro document
    have hnot : (newWebhookId now random, document) ∉ registered := fun hmem =>
      hfresh (List.mem_map_of_mem hmem)
    simp [hlisted, hnot, eq_comm]

end

/-! ## Deliveries -/

/-- The cache is that of `s`, and what the listing would find is there too. -/
def Apart (keyPrefix : String) (s : Shared Cache (Store Document)) (w : SoloWorld) : Prop :=
  w.memory = s.memory ∧
    ∀ key, IsListed keyPrefix key → w.server.lookup key = s.server.lookup key

section

variable {scan : Scan Document} {keyPrefix : String} {s : Shared Cache (Store Document)}
variable {source eventId : String} {webhook : Document} {payload : WebhookPayload}

theorem preserves_ask {I : SoloWorld → Prop} {c : Command}
    (h : ∀ w, I w → I (w.send (serve scan) c).2) :
    Async.Preserves I ((ask c).alone (serve scan)) :=
  fun w hw => h w hw

theorem attemptRecord_eventId (strategy : WebhookDeliveryStrategy) (n : ℕ) (posted : Posted) :
    (attemptRecord webhook payload strategy n posted).eventId = payload.eventId := by
  unfold attemptRecord
  split <;> rfl

theorem attemptRecord_webhookId (strategy : WebhookDeliveryStrategy) (n : ℕ) (posted : Posted) :
    (attemptRecord webhook payload strategy n posted).webhookId = webhook.url := by
  unfold attemptRecord
  split <;> rfl

theorem attemptRecord_attemptNumber (strategy : WebhookDeliveryStrategy) (n : ℕ)
    (posted : Posted) :
    (attemptRecord webhook payload strategy n posted).attemptNumber = n := by
  unfold attemptRecord
  split <;> rfl

theorem preserves_tryDeliverWebhookAttempt (hapart : RecordsApart keyPrefix webhook payload.eventId)
    {n : ℕ} (hn : 1 ≤ n) (hle : n ≤ webhook.retries) (strategy : WebhookDeliveryStrategy) :
    Async.Preserves (Apart keyPrefix s)
      ((tryDeliverWebhookAttempt keyPrefix source webhook payload strategy n).alone
        (serve scan)) := by
  unfold tryDeliverWebhookAttempt
  rw [Coroutine.alone_bind]
  refine (preserves_ask fun w hw => hw).bind fun posted => ?_
  rw [Coroutine.alone_bind]
  refine Async.Preserves.bind (preserves_ask fun w hw => ⟨hw.1, fun key hkey => ?_⟩) fun _ =>
    .pure _
  refine (Store.lookup_set ..).trans ((if_neg ?_).trans (hw.2 key hkey))
  rintro rfl
  exact hapart _ (attemptRecord_eventId strategy n posted)
    (attemptRecord_webhookId strategy n posted)
    ((attemptRecord_attemptNumber strategy n posted).symm ▸ hn)
    ((attemptRecord_attemptNumber strategy n posted).symm ▸ hle) hkey

theorem preserves_deliverWebhook (hapart : RecordsApart keyPrefix webhook payload.eventId) :
    Async.Preserves (Apart keyPrefix s)
      ((deliverWebhook keyPrefix source webhook payload).alone (serve scan)) := by
  refine attemptLoop_rule keyPrefix
    (M := fun _ m => Async.Preserves (Apart keyPrefix s) (m.alone (serve scan)))
    (fun _ a => .pure a) (fun _ _ m f hm hf => ?_)
    (fun n hn hle => preserves_tryDeliverWebhookAttempt hapart hn hle _)
    (fun _ => preserves_ask fun w hw => hw) _ le_rfl
  rw [Coroutine.alone_bind]
  exact hm.bind hf

theorem preserves_sendTo {entry : String × Document}
    (hapart : entry.2.Subscribed payload → RecordsApart keyPrefix entry.2 payload.eventId) :
    Async.Preserves (Apart keyPrefix s) ((sendTo keyPrefix payload entry).alone (serve scan)) := by
  unfold sendTo
  split
  case isFalse => exact .pure ()
  case isTrue hactive =>
  split
  · exact .throw _
  · next events hevents =>
    split
    · next hmem => exact preserves_deliverWebhook (hapart ⟨hactive, events, hevents, hmem⟩)
    · exact .pure ()

theorem preserves_forEach_sendTo {entries : List (String × Document)}
    (hapart : ∀ entry ∈ entries, entry.2.Subscribed payload →
      RecordsApart keyPrefix entry.2 payload.eventId) :
    Async.Preserves (Apart keyPrefix s)
      ((Coroutine.forEach (sendTo keyPrefix payload) entries).alone (serve scan)) := by
  induction entries with
  | nil => exact .pure ()
  | cons entry entries ih =>
    rw [Coroutine.forEach, Coroutine.alone_bind]
    exact (preserves_sendTo (hapart entry List.mem_cons_self)).bind fun _ =>
      ih fun e he => hapart e (List.mem_cons_of_mem _ he)

theorem preserves_sendEvent
    (hapart : ∀ key e, IsListed keyPrefix key → s.server.lookup key = some e →
      e.value.Subscribed payload → RecordsApart keyPrefix e.value payload.eventId) :
    Async.Preserves (Apart keyPrefix s) ((sendEvent keyPrefix payload).alone (serve scan)) := by
  unfold sendEvent
  rw [Coroutine.alone_tryCatch]
  refine Async.Preserves.handle (fun w hw => ?_) fun _ => .pure ()
  obtain ⟨w₁, entries, hrun₁, hmemory, hserver, -, -, hread, -⟩ := run_listEntries scan keyPrefix w
  rw [Coroutine.alone_bind, Async.run_bind_of_ok hrun₁]
  refine preserves_forEach_sendTo (fun entry hmem hsub => ?_) w₁
    ⟨hmemory.trans hw.1, fun key hkey => by rw [hserver, hw.2 key hkey]⟩
  obtain ⟨hlisted, n, hget⟩ := hread entry.1 entry.2 hmem
  obtain ⟨e, he, -, hvalue⟩ := Store.get_eq_some.mp hget
  rw [← hvalue] at hsub ⊢
  exact hapart entry.1 e hlisted ((hw.2 entry.1 hlisted).symm.trans he) hsub

end

/-! ## Calls -/

section

variable {scan : Scan Document} {keyPrefix : String} {b : Book}

theorem Consistent.apart {registered : List (String × Document)}
    {s : Shared Cache (Store Document)} {w : SoloWorld} (h : Consistent keyPrefix registered s)
    (hw : Apart keyPrefix s w) : Consistent keyPrefix registered w.toShared :=
  h.congr hw.1 hw.2

/-- The book and the manager after a call. -/
theorem Consistent.of_run {c : Call} {choices : ℕ → Choice} {α : Type} {m : Method α}
    {f : α → Result} {r : Except Thrown α} {w' : SoloWorld}
    (hmethod : c.method keyPrefix = m >>= fun a => pure (f a))
    (hrun : (m.alone (serve scan)).run ⟨b.toShared, choices, []⟩ = (r, w'))
    (hok : ∀ a, r = .ok a → Consistent keyPrefix (entered b.registered c (f a)) w'.toShared)
    (herror : ∀ e, r = .error e → Consistent keyPrefix b.registered w'.toShared) :
    Consistent keyPrefix (b.call scan keyPrefix c choices).registered
      (b.call scan keyPrefix c choices).toShared := by
  have hcall : ((c.method keyPrefix).alone (serve scan)).run ⟨b.toShared, choices, []⟩ =
      (r.map f, w') := by
    have hpure : (m >>= fun a => pure (f a)).alone (serve scan) =
        m.alone (serve scan) >>= fun a => pure (f a) := Coroutine.alone_bind ..
    rw [hmethod, hpure, Async.run_bind_pure, hrun]
  unfold Book.call
  simp only [hcall]
  cases r with
  | ok a => exact hok a rfl
  | error e => exact herror e rfl

/-- A call that leaves the book and what the listing would find. -/
theorem Consistent.of_preserves {c : Call} {choices : ℕ → Choice} {α : Type} {m : Method α}
    {f : α → Result} (h : Consistent keyPrefix b.registered b.toShared)
    (hmethod : c.method keyPrefix = m >>= fun a => pure (f a))
    (hm : Async.Preserves (Apart keyPrefix b.toShared) (m.alone (serve scan)))
    (hentered : ∀ a, entered b.registered c (f a) = b.registered) :
    Consistent keyPrefix (b.call scan keyPrefix c choices).registered
      (b.call scan keyPrefix c choices).toShared := by
  have hafter := h.apart (hm ⟨b.toShared, choices, []⟩ ⟨rfl, fun _ _ => rfl⟩)
  refine Consistent.of_run hmethod rfl (fun a _ => ?_) fun _ _ => hafter
  rw [hentered]
  exact hafter

/-- A call that goes on from a webhook and leaves what the listing would find. -/
theorem Consistent.of_getWebhook {c : Call} {choices : ℕ → Choice} {α : Type} {id : String}
    {k : Document → Method α} {f : α → Result}
    (h : Consistent keyPrefix b.registered b.toShared)
    (hmethod : c.method keyPrefix = (getWebhook keyPrefix id >>= k) >>= fun a => pure (f a))
    (hk : ∀ webhook, (b.memory id = some webhook ∨
        ∃ e, b.server.lookup (buildWebhookKey keyPrefix id) = some e ∧ e.value = webhook) →
      ∀ s, Async.Preserves (Apart keyPrefix s) ((k webhook).alone (serve scan)))
    (hentered : ∀ a, entered b.registered c (f a) = b.registered) :
    Consistent keyPrefix (b.call scan keyPrefix c choices).registered
      (b.call scan keyPrefix c choices).toShared := by
  let w : SoloWorld := ⟨b.toShared, choices, []⟩
  have hw : Consistent keyPrefix b.registered w.toShared := h
  obtain ⟨r, w₁, hrun₁, h₁, -, hget⟩ := hw.run_getWebhook scan id
  have hafter : Consistent keyPrefix b.registered
      (((getWebhook keyPrefix id >>= k).alone (serve scan)).run w).2.toShared := by
    rw [Coroutine.alone_bind]
    cases r with
    | error e =>
      rw [Async.run_bind_of_error hrun₁]
      exact h₁
    | ok webhook =>
      rw [Async.run_bind_of_ok hrun₁]
      exact h₁.apart (hk webhook (hget webhook rfl).2 w₁.toShared w₁ ⟨rfl, fun _ _ => rfl⟩)
  refine Consistent.of_run hmethod rfl (fun a _ => ?_) fun _ _ => hafter
  rw [hentered]
  exact hafter

theorem preserves_readDocuments {s : Shared Cache (Store Document)} (keys : List String) :
    Async.Preserves (Apart keyPrefix s) ((readDocuments keys).alone (serve scan)) := by
  induction keys with
  | nil => exact .pure []
  | cons key keys ih =>
    rw [readDocuments, Coroutine.alone_bind]
    refine (preserves_ask fun w hw => hw).bind fun data => ?_
    rw [Coroutine.alone_bind]
    exact ih.bind fun documents => .pure _

theorem preserves_listEntries {s : Shared Cache (Store Document)} :
    Async.Preserves (Apart keyPrefix s) ((listEntries keyPrefix).alone (serve scan)) := by
  unfold listEntries
  rw [Coroutine.alone_tryCatch, Coroutine.alone_bind]
  refine Async.Preserves.handle ?_ fun _ => .pure []
  exact (preserves_ask fun w hw => hw).bind fun keys => preserves_readDocuments keys

theorem preserves_getDeliveryHistory {s : Shared Cache (Store Document)} (webhookId : String)
    (limit : ℚ) :
    Async.Preserves (Apart keyPrefix s)
      ((getDeliveryHistory keyPrefix webhookId limit).alone (serve scan)) := by
  unfold getDeliveryHistory
  rw [Coroutine.alone_tryCatch, Coroutine.alone_bind]
  refine Async.Preserves.handle ((preserves_ask fun w hw => hw).bind fun keys => ?_) fun _ =>
    .pure []
  rw [Coroutine.alone_bind]
  exact (preserves_readDocuments keys).bind fun documents => .pure _

/-- A sound call keeps the listing and the book together. -/
theorem Consistent.call (h : Consistent keyPrefix b.registered b.toShared) {c : Call}
    {choices : ℕ → Choice} (hsound : Sound keyPrefix b c) :
    Consistent keyPrefix (b.call scan keyPrefix c choices).registered
      (b.call scan keyPrefix c choices).toShared := by
  let w : SoloWorld := ⟨b.toShared, choices, []⟩
  have hw : Consistent keyPrefix b.registered w.toShared := h
  cases c with
  | registerWebhook config now random =>
    obtain ⟨hlisted, hfresh⟩ := hsound
    obtain ⟨r, w', hrun, hok, herror⟩ := hw.run_registerWebhook config hlisted hfresh
    exact Consistent.of_run rfl hrun hok herror
  | updateWebhook webhookId config =>
    obtain ⟨r, w', hrun, hok, herror⟩ := hw.run_updateWebhook webhookId config
    exact Consistent.of_run rfl hrun hok herror
  | enableWebhook webhookId =>
    obtain ⟨r, w', hrun, hok, herror⟩ := hw.run_updateWebhook webhookId { active := .value true }
    exact Consistent.of_run rfl hrun hok herror
  | disableWebhook webhookId =>
    obtain ⟨r, w', hrun, hok, herror⟩ := hw.run_updateWebhook webhookId { active := .value false }
    exact Consistent.of_run rfl hrun hok herror
  | deleteWebhook webhookId =>
    obtain ⟨w', hrun, hafter⟩ := hw.run_deleteWebhook webhookId
    exact Consistent.of_run rfl hrun (fun _ _ => hafter) nofun
  | getWebhook webhookId =>
    obtain ⟨r, w', hrun, hafter, -, -⟩ := hw.run_getWebhook scan webhookId
    exact Consistent.of_run rfl hrun (fun _ _ => hafter) fun _ _ => hafter
  | listWebhooks =>
    refine h.of_preserves (m := listWebhooks keyPrefix) rfl ?_ fun _ => rfl
    unfold listWebhooks
    rw [Coroutine.alone_bind]
    exact preserves_listEntries.bind fun _ => .pure _
  | sendEvent payload =>
    exact h.of_preserves rfl (preserves_sendEvent hsound) fun _ => rfl
  | retryDelivery eventId webhookId =>
    exact h.of_getWebhook rfl (fun webhook hget s => preserves_deliverWebhook
      (hsound webhook hget)) fun _ => rfl
  | testWebhook webhookId now =>
    refine h.of_getWebhook rfl (fun webhook _ s => ?_) fun _ => rfl
    rw [Coroutine.alone_bind]
    refine (preserves_ask fun w hw => hw).bind fun posted => ?_
    split
    · exact .pure _
    · exact .throw _
  | getDeliveryHistory webhookId limit =>
    exact h.of_preserves rfl (preserves_getDeliveryHistory webhookId limit) fun _ => rfl

theorem consistent_init {s : Store Document}
    (hs : ∀ key, IsListed keyPrefix key → s.lookup key = none) :
    Consistent keyPrefix (Book.init s).registered (Book.init s).toShared where
  nodup := List.nodup_nil
  listed := by simp [Book.init]
  owned key e hkey he := by
    rw [show (Book.init s).server.lookup key = none from hs key hkey] at he
    cases he
  stored id document hlisted := by
    simp [Book.init, hs _ hlisted]
  cached _ _ hcached := by cases hcached

/-- A listing of a consistent manager is the book. -/
theorem Consistent.listsBook (h : Consistent keyPrefix b.registered b.toShared) :
    ListsBook scan keyPrefix b := by
  intro choices hlive
  obtain ⟨w, entries, hrun, -, -, -, hnodup, hread, hall⟩ :=
    run_listEntries scan keyPrefix ⟨b.toShared, choices, []⟩
  refine ⟨entries.map Prod.snd, w, ?_, ?_⟩
  · rw [listWebhooks, Coroutine.alone_bind, Async.run_bind_of_ok hrun]
    rfl
  -- the entries are the book, each under its key
  have hperm : entries.Perm (b.registered.map fun p => (buildWebhookKey keyPrefix p.1, p.2)) := by
    refine perm_of_read hnodup hread hall hlive (fun key document => ?_) ?_
    · rw [List.mem_map]
      constructor
      · rintro ⟨⟨id, d⟩, hmem, heq⟩
        cases heq
        have hlisted := h.listed _ hmem
        exact ⟨hlisted, (h.stored id d hlisted).mp hmem⟩
      · rintro ⟨hlisted, e, he, hvalue⟩
        obtain ⟨id, rfl⟩ := h.owned key e hlisted he
        exact ⟨(id, document), (h.stored id document hlisted).mpr ⟨e, he, hvalue⟩, rfl⟩
    · have hinj : Function.Injective (buildWebhookKey keyPrefix) := fun _ _ =>
        buildWebhookKey_inj.mp
      have hkeys := h.nodup.map hinj
      rw [List.map_map] at hkeys ⊢
      exact hkeys
  have hvalues := hperm.map Prod.snd
  rwa [List.map_map] at hvalues

/-- **When `listWebhooks` is right.** In a run of calls made one after another, from a database in
which the listing finds nothing, it returns the configurations of the webhooks registered and not
deleted, each once, if no id is drawn twice, the pattern means the keys of the webhooks, and every
attempt is recorded under a key that the pattern does not mean. -/
theorem listsBook_of_run (s : Store Document)
    (hs : ∀ key, IsListed keyPrefix key → s.lookup key = none) {es : List (Call × (ℕ → Choice))}
    (hsound : (calls scan keyPrefix).StepsMeet (fun b e => Sound keyPrefix b e.1) (.init s) es)
    (hrun : (calls scan keyPrefix).runFrom (.init s) es = some b) :
    ListsBook scan keyPrefix b := by
  refine Consistent.listsBook (System.invariant_of_stepsMeet
    (I := fun b => Consistent keyPrefix b.registered b.toShared) ?_ (consistent_init hs) hsound
    hrun)
  intro b e b' hb he hstep
  cases hstep
  exact hb.call he

end

/-- A webhook for completed jobs, to be registered. -/
def completionHook : WebhookConfig where
  url := "hook"
  events := [.jobCompleted]
  active := true
  createdAt := 0

/-- Registering a webhook at time zero. -/
def register : Call × (ℕ → Choice) :=
  (.registerWebhook completionHook 0 ⟨"a", alphanumeric_a⟩, fun _ => {})

/-- An event is sent, and delivered at once. -/
def send : Call × (ℕ → Choice) := (.sendEvent completed, fun _ => {})

/-- A payload that no webhook of the run is subscribed to. -/
def failed : WebhookPayload where
  eventType := .jobFailed
  eventId := "event-2"

/-- The id of the webhook that is registered at this time. -/
def hookId (now : ℕ) : String := newWebhookId now ⟨"a", alphanumeric_a⟩

/-- Three webhooks are registered, one is moved, one disabled and one deleted, and an event is sent
that none is subscribed to. -/
def keepingRun : List (Call × (ℕ → Choice)) :=
  [register, (.registerWebhook completionHook 1 ⟨"a", alphanumeric_a⟩, fun _ => {}),
    (.registerWebhook completionHook 2 ⟨"a", alphanumeric_a⟩, fun _ => {}),
    (.updateWebhook (hookId 0) { url := .value "moved" }, fun _ => {}),
    (.disableWebhook (hookId 1), fun _ => {}), (.sendEvent failed, fun _ => {}),
    (.deleteWebhook (hookId 2), fun _ => {})]

/-- The managers of a run. -/
def bookAfter (n : ℕ) : Book :=
  (keepingRun.take n).foldl (fun b e => b.call .stored "webhooks" e.1 e.2) (.init .empty)

theorem unsubscribed_bookAfter :
    ∀ p ∈ (bookAfter 5).server.entries.entries, ¬ p.2.value.Subscribed failed := by
  decide +kernel

/-- Two of them are left, as they were moved and disabled, and that is what is listed. -/
theorem listsBook_keepingRun :
    ∃ b, (calls .stored "webhooks").runFrom (.init .empty) keepingRun = some b ∧
      b.registered.map Prod.fst = [hookId 1, hookId 0] ∧
      ListsBook .stored "webhooks" b := by
  have hsound : (calls .stored "webhooks").StepsMeet (fun b e => Sound "webhooks" b e.1)
      (.init .empty) keepingRun := by
    refine ⟨⟨by decide +kernel, List.not_mem_nil⟩, ?_⟩
    rintro _ ⟨⟩
    refine ⟨⟨by decide +kernel, by decide +kernel⟩, ?_⟩
    rintro _ ⟨⟩
    refine ⟨⟨by decide +kernel, by decide +kernel⟩, ?_⟩
    rintro _ ⟨⟩
    refine ⟨trivial, ?_⟩
    rintro _ ⟨⟩
    refine ⟨trivial, ?_⟩
    rintro _ ⟨⟩
    refine ⟨fun key e _ he hsubscribed => ?_, ?_⟩
    · exact absurd hsubscribed (unsubscribed_bookAfter ⟨key, e⟩ (Store.mem_entries.mpr he))
    rintro _ ⟨⟩
    exact ⟨trivial, fun _ _ => trivial⟩
  exact ⟨_, rfl, by decide +kernel, listsBook_of_run .empty (fun _ _ => rfl) hsound rfl⟩

/-- The manager after both calls. -/
def afterSend : Book :=
  ((Book.init .empty).call .stored "webhooks" register.1 register.2).call .stored "webhooks"
    send.1 send.2

/-- After an event the record of its delivery is listed as well. -/
theorem not_listsBook_send :
    ∃ b, (calls .stored "webhooks").runFrom (.init .empty) [register, send] = some b ∧
      ¬ ListsBook .stored "webhooks" b := by
  refine ⟨afterSend, rfl, fun h => ?_⟩
  have hlive : ∀ p ∈ afterSend.server.entries.entries, p.2.IsLive 0 := by decide +kernel
  obtain ⟨documents, w, hrun, hperm⟩ := h (fun _ => {}) fun key e _ he _ =>
    hlive ⟨key, e⟩ (Store.mem_entries.mpr he)
  have hlength : (((listWebhooks "webhooks").alone (serve .stored)).run
      ⟨afterSend.toShared, fun _ => {}, []⟩).1.toOption.map List.length = some 2 := by
    decide +kernel
  rw [hrun] at hlength
  have htwo := Option.some.inj hlength
  rw [hperm.length_eq] at htwo
  exact absurd htwo (by decide +kernel)

end KitiumJobQueue.Webhook
