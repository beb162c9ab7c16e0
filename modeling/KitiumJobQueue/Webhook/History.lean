import KitiumJobQueue.Foundations.RelyGuarantee
import KitiumJobQueue.Webhook.Delivery

/-!
# What the delivery history of a webhook holds

Attempts are recorded under keys built from the URL of the webhook, and looked up under keys built
from its id. `history_of_run` says of any interleaving of calls that the history of a webhook is the
list of the attempts made for it, as long as every attempt is recorded under a key of its own that
the history of its webhook, and of no other, looks at.

That every attempt is recorded, once and as it was, is a property of each method on its own
(`Balanced`); where the records are found is one of the database (`Kept`).
-/

namespace KitiumJobQueue.Webhook

open Effects JavaScript Redis

/-! ## Attempts and records -/

/-- What is to be known of an attempt. -/
structure Summary where
  eventId : String
  attemptNumber : ℕ
  statusCode : Option ℤ
  response : Option String
  error : Option String
  timestamp : ℕ
  deriving DecidableEq

/-- What a record says. -/
def WebhookDeliveryAttempt.summary (attempt : WebhookDeliveryAttempt) : Summary where
  eventId := attempt.eventId
  attemptNumber := attempt.attemptNumber
  statusCode := attempt.statusCode
  response := attempt.response
  error := attempt.error
  timestamp := attempt.timestamp

/-- An attempt, from what became of its `POST`. -/
def Posted.summary (posted : Posted) (eventId : String) (attemptNumber : ℕ) : Summary :=
  match posted.response with
  | .ok response =>
    { eventId, attemptNumber
      statusCode := some response.statusCode
      response := some response.body
      error := none
      timestamp := posted.now }
  | .error error =>
    { eventId, attemptNumber
      statusCode := none
      response := none
      error := some (error.toError "").message
      timestamp := posted.now }

/-- The attempt that a step makes, and the key of the webhook it is made for. -/
def attemptOf? : (Σ c, Except Thrown (Reply c)) → Option (String × Summary)
  | ⟨.post source (some n) _ payload _ _, .ok posted⟩ =>
    some (source, posted.summary payload.eventId n)
  | ⟨.post _ none _ _ _ _, _⟩ | ⟨.post _ _ _ _ _ _, .error _⟩ | ⟨.get _, _⟩ | ⟨.set _ _ _, _⟩
  | ⟨.record _ _ _ _, _⟩ | ⟨.del _, _⟩ | ⟨.keys _, _⟩ | ⟨.timer _, _⟩ => none

/-- A record that was written: for which webhook, where, and what. -/
structure Recorded where
  source : String
  key : String
  attempt : WebhookDeliveryAttempt

/-- The record that a step writes. -/
def recordOf? : (Σ c, Except Thrown (Reply c)) → Option Recorded
  | ⟨.record source key attempt _, _⟩ => some ⟨source, key, attempt⟩
  | ⟨.post _ _ _ _ _ _, _⟩ | ⟨.get _, _⟩ | ⟨.set _ _ _, _⟩ | ⟨.del _, _⟩ | ⟨.keys _, _⟩
  | ⟨.timer _, _⟩ => none

/-- What a record should be the record of. -/
def Recorded.attempted (r : Recorded) : String × Summary := (r.source, r.attempt.summary)

/-- The records of a method are those of its attempts. -/
def Balanced (heard : Transcript Thrown Reply) : Prop :=
  (heard.filterMap recordOf?).map Recorded.attempted = heard.filterMap attemptOf?

theorem summary_attemptRecord (webhook : Document) (payload : WebhookPayload)
    (strategy : WebhookDeliveryStrategy) (n : ℕ) (posted : Posted) :
    (attemptRecord webhook payload strategy n posted).summary =
      posted.summary payload.eventId n := by
  unfold attemptRecord Posted.summary
  cases posted.response with
  | ok response => rfl
  | error error => rfl

/-- An attempt and its record. -/
theorem Balanced.attempt {h : Transcript Thrown Reply} (hQ : Balanced h) {source key : String}
    {n ttl : ℕ} {url : Option String} {payload : WebhookPayload}
    {headers : Option (List (String × String))} {auth : Option WebhookAuth} {posted : Posted}
    {attempt : WebhookDeliveryAttempt} (hs : attempt.summary = posted.summary payload.eventId n)
    (r : Except Thrown Unit) :
    Balanced (⟨.record source key attempt ttl, r⟩ ::
      ⟨.post source (some n) url payload headers auth, .ok posted⟩ :: h) := by
  show (source, attempt.summary) :: (h.filterMap recordOf?).map Recorded.attempted =
    (source, posted.summary payload.eventId n) :: h.filterMap attemptOf?
  rw [hs, hQ]

section

variable {scan : Scan Document} {keyPrefix : String}

theorem balanced_ask {c : Command} (ha : ∀ r, attemptOf? ⟨c, r⟩ = none)
    (hr : ∀ r, recordOf? ⟨c, r⟩ = none) : Transcribes (serve scan) Balanced (ask c) := by
  refine .await (fun _ _ _ _ => trivial) fun h v s hQ => ?_
  unfold Balanced at hQ ⊢
  rw [List.filterMap_cons_none (hr _), List.filterMap_cons_none (ha _), hQ]

theorem balanced_tryDeliverWebhookAttempt (source : String) (webhook : Document)
    (payload : WebhookPayload) (strategy : WebhookDeliveryStrategy) (n : ℕ) :
    Transcribes (serve scan) Balanced
      (tryDeliverWebhookAttempt keyPrefix source webhook payload strategy n) := by
  intro h w₀ w hQ
  refine meets_bind.mpr (meets_await.mpr ⟨trivial, fun w₁ _ v _ => ⟨trivial, fun w₂ _ _ => ?_⟩⟩)
  refine meets_bind.mpr (meets_await.mpr ⟨trivial, fun w₃ _ v' _ => ⟨trivial, fun w₄ _ _ => ?_⟩⟩)
  exact hQ.attempt (summary_attemptRecord webhook payload strategy n _) _

theorem balanced_deliverWebhook (source : String) (webhook : Document) (payload : WebhookPayload) :
    Transcribes (serve scan) Balanced (deliverWebhook keyPrefix source webhook payload) :=
  attemptLoop_rule keyPrefix (M := fun _ m => Transcribes (serve scan) Balanced m)
    (fun _ a => .pure a) (fun _ _ _ _ hm hf => hm.bind hf)
    (fun n _ _ => balanced_tryDeliverWebhookAttempt source webhook payload _ n)
    (fun _ => balanced_ask (fun _ => rfl) fun _ => rfl) _ le_rfl

theorem balanced_getWebhook (webhookId : String) :
    Transcribes (serve scan) Balanced (getWebhook keyPrefix webhookId) := by
  refine .read_bind fun cached => ?_
  split
  · exact .pure _
  · refine (balanced_ask (fun _ => rfl) fun _ => rfl).bind fun data => ?_
    split
    · exact .throw _
    · exact (Maintains.modify _).bind fun _ => .pure _

theorem balanced_updateWebhook (webhookId : String) (config : PartialConfig) :
    Transcribes (serve scan) Balanced (updateWebhook keyPrefix webhookId config) :=
  (balanced_getWebhook webhookId).bind fun _ =>
    (balanced_ask (fun _ => rfl) fun _ => rfl).bind fun _ => .modify _

theorem balanced_readDocuments (keys : List String) :
    Transcribes (serve scan) Balanced (readDocuments keys) := by
  induction keys with
  | nil => exact .pure _
  | cons key keys ih =>
    exact (balanced_ask (fun _ => rfl) fun _ => rfl).bind fun _ => ih.bind fun _ => .pure _

theorem balanced_listEntries : Transcribes (serve scan) Balanced (listEntries keyPrefix) :=
  Maintains.handle ((balanced_ask (fun _ => rfl) fun _ => rfl).bind balanced_readDocuments)
    fun _ => .pure _

theorem balanced_sendTo (payload : WebhookPayload) (entry : String × Document) :
    Transcribes (serve scan) Balanced (sendTo keyPrefix payload entry) := by
  unfold sendTo
  split
  · split
    · exact .throw _
    · split
      · exact balanced_deliverWebhook _ _ _
      · exact .pure ()
  · exact .pure ()

/-- Every method records the attempts it makes. -/
theorem balanced_method (c : Call) : Transcribes (serve scan) Balanced (c.method keyPrefix) := by
  cases c with
  | registerWebhook config now random =>
    refine Maintains.bind ?_ fun _ => .pure _
    unfold registerWebhook
    split
    · exact .throw _
    split
    · exact .throw _
    · exact (balanced_ask (fun _ => rfl) fun _ => rfl).bind fun _ =>
        (Maintains.modify _).bind fun _ => .pure _
  | updateWebhook webhookId config =>
    exact (balanced_updateWebhook webhookId config).bind fun _ => .pure _
  | enableWebhook webhookId => exact (balanced_updateWebhook webhookId _).bind fun _ => .pure _
  | disableWebhook webhookId => exact (balanced_updateWebhook webhookId _).bind fun _ => .pure _
  | deleteWebhook webhookId =>
    refine Maintains.bind ?_ fun _ => .pure _
    exact (balanced_ask (fun _ => rfl) fun _ => rfl).bind fun _ => .modify _
  | getWebhook webhookId => exact (balanced_getWebhook webhookId).bind fun _ => .pure _
  | listWebhooks =>
    refine Maintains.bind ?_ fun _ => .pure _
    exact balanced_listEntries.bind fun _ => .pure _
  | sendEvent payload =>
    refine Maintains.bind (Maintains.handle ?_ fun _ => .pure _) fun _ => .pure _
    exact balanced_listEntries.bind fun entries =>
      .forEach fun entry _ => balanced_sendTo payload entry
  | retryDelivery eventId webhookId =>
    refine Maintains.bind ?_ fun _ => .pure _
    exact (balanced_getWebhook webhookId).bind fun webhook => balanced_deliverWebhook _ _ _
  | testWebhook webhookId now =>
    refine Maintains.bind ?_ fun _ => .pure _
    refine (balanced_getWebhook webhookId).bind fun webhook => ?_
    refine Maintains.bind (balanced_ask ?_ fun _ => rfl) fun posted => ?_
    · intro r
      cases r <;> rfl
    · split
      · exact .pure _
      · exact .throw _
  | getDeliveryHistory webhookId limit =>
    refine Maintains.bind (Maintains.handle ?_ fun _ => .pure _) fun _ => .pure _
    exact (balanced_ask (fun _ => rfl) fun _ => rfl).bind fun keys =>
      (balanced_readDocuments keys).bind fun _ => .pure _

end

/-! ## The records in the database -/

/-- The ids that registrations were called with. -/
def Call.newId? : Call → Option String
  | .registerWebhook _ now random => some (newWebhookId now random)
  | .updateWebhook _ _ | .enableWebhook _ | .disableWebhook _ | .deleteWebhook _ | .getWebhook _
  | .listWebhooks | .sendEvent _ | .retryDelivery _ _ | .testWebhook _ _
  | .getDeliveryHistory _ _ => none

/-- The webhooks of which a registration was called. -/
def World.registered (p : World) : List String := p.threads.filterMap fun t => t.label.newId?

theorem mem_registered {p : World} {webhookId : String} :
    webhookId ∈ p.registered ↔ ∃ t ∈ p.threads, t.label.newId? = some webhookId :=
  List.mem_filterMap

section

variable (keyPrefix : String)

/-- The pattern of the history of a webhook means the key. -/
def InHistory (webhookId key : String) : Prop :=
  KeyMatches (keyPrefix ++ ":" ++ webhookId ++ ":attempts:*") key

instance (webhookId key : String) : Decidable (InHistory keyPrefix webhookId key) :=
  inferInstanceAs (Decidable (KeyMatches _ _))

/-- A command that leaves every history as it should be: a record is written where there was
nothing, under a key in the history of its own webhook and no other; a configuration is written
under a key in no history; and no record is written over or deleted. -/
def Orderly (p : World) : Command → Prop
  | .record source key _ _ => p.server.lookup key = none ∧
      ∀ id ∈ p.registered, InHistory keyPrefix id key ↔ source = buildWebhookKey keyPrefix id
  | .set key _ _ => (∀ id ∈ p.registered, ¬ InHistory keyPrefix id key) ∧
      ∀ r ∈ p.carriedOut recordOf?, r.key ≠ key
  | .del key => ∀ r ∈ p.carriedOut recordOf?, r.key ≠ key
  | .get _ | .keys _ | .post _ _ _ _ _ _ | .timer _ => True

/-- A new webhook whose history is empty. -/
def IsNew (p : World) (webhookId : String) : Prop :=
  (∀ entry ∈ p.server.entries.entries, ¬ InHistory keyPrefix webhookId entry.1) ∧
    ∀ r ∈ p.carriedOut recordOf?, r.source ≠ buildWebhookKey keyPrefix webhookId

/-- The steps in which the histories keep to the attempts. -/
def Recording (p : World) : PoolEvent Call Choice → Prop
  | .spawn c => ∀ id ∈ c.newId?, IsNew keyPrefix p id
  | .exec i _ => ∀ t ∈ p.threads[i]?, ∀ c ∈ t.stage.command?, Orderly keyPrefix p c
  | .resume _ => True

instance (p : World) : DecidablePred (Orderly keyPrefix p)
  | .record source key _ _ => inferInstanceAs (Decidable (p.server.lookup key = none ∧
      ∀ id ∈ p.registered, InHistory keyPrefix id key ↔ source = buildWebhookKey keyPrefix id))
  | .set key _ _ => inferInstanceAs (Decidable (
      (∀ id ∈ p.registered, ¬ InHistory keyPrefix id key) ∧
        ∀ r ∈ p.carriedOut recordOf?, r.key ≠ key))
  | .del key => inferInstanceAs (Decidable (∀ r ∈ p.carriedOut recordOf?, r.key ≠ key))
  | .get _ | .keys _ | .post _ _ _ _ _ _ | .timer _ => .isTrue trivial

instance (p : World) (webhookId : String) : Decidable (IsNew keyPrefix p webhookId) :=
  inferInstanceAs (Decidable (_ ∧ _))

instance (p : World) : DecidablePred (Recording keyPrefix p)
  | .spawn c => inferInstanceAs (Decidable (∀ id ∈ c.newId?, IsNew keyPrefix p id))
  | .exec i _ => inferInstanceAs (Decidable (∀ t ∈ p.threads[i]?, ∀ c ∈ t.stage.command?,
      Orderly keyPrefix p c))
  | .resume _ => .isTrue trivial

/-- What is stored of a record, under its key. -/
def Recorded.entry (r : Recorded) : String × Document := (r.key, { attempt := some r.attempt })

/-- Those of the records that are a webhook's. -/
def recordsFor (webhookId : String) (records : List Recorded) : List Recorded :=
  records.filter fun r => r.source = buildWebhookKey keyPrefix webhookId

/-- Every record is where it was written, and the histories of the webhooks `ids` hold nothing but
their records. -/
structure Kept (ids : String → Prop) (s : Store Document) (records : List Recorded) : Prop where
  nodup : (records.map Recorded.key).Nodup
  stored : ∀ r ∈ records, ∃ e, s.lookup r.key = some e ∧ e.value = { attempt := some r.attempt }
  found : ∀ id, ids id → ∀ r ∈ records, r.source = buildWebhookKey keyPrefix id →
    InHistory keyPrefix id r.key
  owned : ∀ id, ids id → ∀ key e, s.lookup key = some e → InHistory keyPrefix id key →
    ∃ r ∈ records, r.key = key ∧ r.source = buildWebhookKey keyPrefix id

end

namespace Kept

variable {keyPrefix : String} {ids ids' : String → Prop} {s s' : Store Document}
variable {records records' : List Recorded}

theorem nil (s : Store Document) : Kept keyPrefix (fun _ => False) s [] where
  nodup := List.nodup_nil
  stored := by simp
  found _ h := h.elim
  owned _ h := h.elim

theorem perm (h : Kept keyPrefix ids s records) (hperm : records'.Perm records)
    (hids : ∀ id, ids' id → ids id) : Kept keyPrefix ids' s records' where
  nodup := (hperm.map Recorded.key).nodup_iff.mpr h.nodup
  stored r hr := h.stored r (hperm.mem_iff.mp hr)
  found id hid r hr := h.found id (hids id hid) r (hperm.mem_iff.mp hr)
  owned id hid key e he hin := by
    obtain ⟨r, hr, hkey⟩ := h.owned id (hids id hid) key e he hin
    exact ⟨r, hperm.mem_iff.mpr hr, hkey⟩

/-- A webhook without a history is registered. -/
theorem register (h : Kept keyPrefix ids s records) {new : String}
    (hempty : ∀ key, InHistory keyPrefix new key → s.lookup key = none)
    (hnone : ∀ r ∈ records, r.source ≠ buildWebhookKey keyPrefix new)
    (hids : ∀ id, ids' id → ids id ∨ id = new) : Kept keyPrefix ids' s records where
  nodup := h.nodup
  stored := h.stored
  found id hid r hr hsource := by
    obtain hid | rfl := hids id hid
    · exact h.found id hid r hr hsource
    · exact absurd hsource (hnone r hr)
  owned id hid key e he hin := by
    obtain hid | rfl := hids id hid
    · exact h.owned id hid key e he hin
    · rw [hempty key hin] at he
      cases he

/-- The database changes where there is no record, and nothing new comes into a history. -/
theorem write (h : Kept keyPrefix ids s records)
    (hkept : ∀ r ∈ records, s'.lookup r.key = s.lookup r.key)
    (hnew : ∀ id, ids id → ∀ key e, s'.lookup key = some e → InHistory keyPrefix id key →
      ∃ e', s.lookup key = some e') : Kept keyPrefix ids s' records where
  nodup := h.nodup
  stored r hr := by
    rw [hkept r hr]
    exact h.stored r hr
  found := h.found
  owned id hid key e he hin := by
    obtain ⟨e', he'⟩ := hnew id hid key e he hin
    exact h.owned id hid key e' he' hin

/-- An attempt is recorded. -/
theorem record (h : Kept keyPrefix ids s records) {r : Recorded} {t : Option ℕ}
    (hfree : s.lookup r.key = none)
    (hin : ∀ id, ids id →
      (InHistory keyPrefix id r.key ↔ r.source = buildWebhookKey keyPrefix id)) :
    Kept keyPrefix ids (s.set r.key { attempt := some r.attempt } t) (r :: records) where
  nodup := by
    refine List.nodup_cons.mpr ⟨fun hmem => ?_, h.nodup⟩
    obtain ⟨r', hr', hkey⟩ := List.mem_map.mp hmem
    obtain ⟨e, he, -⟩ := h.stored r' hr'
    rw [hkey, hfree] at he
    cases he
  stored r' hr' := by
    rw [Store.lookup_set]
    split
    · next hkey =>
      obtain rfl | hr' := List.mem_cons.mp hr'
      · exact ⟨_, rfl, rfl⟩
      · obtain ⟨e, he, -⟩ := h.stored r' hr'
        rw [hkey, hfree] at he
        cases he
    · next hkey =>
      obtain rfl | hr' := List.mem_cons.mp hr'
      · exact absurd rfl hkey
      · exact h.stored r' hr'
  found id hid r' hr' hsource := by
    obtain rfl | hr' := List.mem_cons.mp hr'
    · exact (hin id hid).mpr hsource
    · exact h.found id hid r' hr' hsource
  owned id hid key e he hkey := by
    rw [Store.lookup_set] at he
    split at he
    · next hk =>
      subst hk
      exact ⟨r, List.mem_cons_self, rfl, (hin id hid).mp hkey⟩
    · obtain ⟨r', hr', hr⟩ := h.owned id hid key e he hkey
      exact ⟨r', List.mem_cons_of_mem _ hr', hr⟩

/-- A history holds the records of its webhook. -/
theorem mem_entries (h : Kept keyPrefix ids s records) {id : String} (hid : ids id) (key : String)
    (document : Document) : (key, document) ∈ (recordsFor keyPrefix id records).map Recorded.entry ↔
      InHistory keyPrefix id key ∧ ∃ e, s.lookup key = some e ∧ e.value = document := by
  rw [List.mem_map]
  constructor
  · rintro ⟨r, hr, heq⟩
    cases heq
    obtain ⟨hr, hsource⟩ := List.mem_filter.mp hr
    exact ⟨h.found id hid r hr (of_decide_eq_true hsource), h.stored r hr⟩
  · rintro ⟨hin, e, he, rfl⟩
    obtain ⟨r, hr, rfl, hsource⟩ := h.owned id hid key e he hin
    obtain ⟨e', he', hvalue⟩ := h.stored r hr
    cases he.symm.trans he'
    exact ⟨r, List.mem_filter.mpr ⟨hr, decide_eq_true hsource⟩, Prod.ext rfl hvalue.symm⟩

theorem nodup_entries (h : Kept keyPrefix ids s records) (id : String) :
    (((recordsFor keyPrefix id records).map Recorded.entry).map Prod.fst).Nodup := by
  rw [List.map_map]
  exact h.nodup.sublist (List.filter_sublist.map Recorded.key)

end Kept

section

variable {scan : Scan Document} {keyPrefix : String} {p p' : World}

/-- The histories of a pool are in order. -/
def World.Kept (keyPrefix : String) (p : World) : Prop :=
  Webhook.Kept keyPrefix (· ∈ p.registered) p.server (p.carriedOut recordOf?)

theorem registered_of_set {i : ℕ} {l : Call} {h h' : Transcript Thrown Reply}
    {stage stage' : Stage Thrown Cache Reply Result} {memory : Cache} {server : Store Document}
    (hi : p.threads[i]? = some ⟨l, h, stage⟩) (id : String)
    (hid : id ∈ World.registered ⟨⟨memory, server⟩, p.threads.set i ⟨l, h', stage'⟩⟩) :
    id ∈ p.registered := by
  obtain ⟨t, ht, hnew⟩ := mem_registered.mp hid
  obtain ht | rfl := List.mem_or_eq_of_mem_set ht
  · exact mem_registered.mpr ⟨t, ht, hnew⟩
  · exact mem_registered.mpr ⟨_, List.mem_of_getElem? hi, hnew⟩

theorem registered_of_spawn {c : Call} {id : String}
    (hid : id ∈ World.registered (p.spawn (Call.method keyPrefix) c)) :
    id ∈ p.registered ∨ c.newId? = some id := by
  obtain ⟨t, ht, hnew⟩ := mem_registered.mp hid
  obtain ht | ht := List.mem_append.mp ht
  · exact .inl (mem_registered.mpr ⟨t, ht, hnew⟩)
  · obtain rfl := List.mem_singleton.mp ht
    exact .inr hnew

/-- A method is called. -/
theorem kept_spawn (h : p.Kept keyPrefix) {c : Call} (hrec : Recording keyPrefix p (.spawn c)) :
    World.Kept keyPrefix (p.spawn (Call.method keyPrefix) c) := by
  unfold World.Kept
  rw [Pool.carriedOut_spawn]
  cases hc : c.newId? with
  | none =>
    exact Webhook.Kept.perm h (.refl _) fun id hid =>
      (registered_of_spawn hid).resolve_right (by simp [hc])
  | some new =>
    obtain ⟨hempty, hnone⟩ := hrec new hc
    refine Webhook.Kept.register h (fun key hin => ?_) hnone fun id hid =>
      (registered_of_spawn hid).imp_right fun hnew => (Option.some.inj (hc.symm.trans hnew)).symm
    rw [Option.eq_none_iff_forall_ne_some]
    exact fun e he => hempty ⟨key, e⟩ (Store.mem_entries.mpr he) hin

/-- A command is carried out. -/
theorem kept_exec (h : p.Kept keyPrefix) {i : ℕ} {v : Choice}
    (hrec : Recording keyPrefix p (.exec i v)) (hexec : p.exec (serve scan) i v = some p') :
    p'.Kept keyPrefix := by
  obtain ⟨l, heard, c, k, hi, rfl⟩ := Pool.exec_eq_some hexec
  have horderly : Orderly keyPrefix p c := hrec _ hi c rfl
  refine Webhook.Kept.perm ?_ (Pool.carriedOut_exec recordOf? hi _ _) (registered_of_set hi)
  cases c with
  | get key => exact h
  | keys pattern => exact h
  | post source n url payload headers auth => exact h
  | timer ms => exact h
  | record source key attempt ttl =>
    exact Webhook.Kept.record (r := ⟨source, key, attempt⟩) h horderly.1 horderly.2
  | set key document ttl =>
    obtain ⟨hhistory, hrecords⟩ := horderly
    refine Webhook.Kept.write h (fun r hr => ?_) fun id hid key' e he hin => ?_
    · exact (Store.lookup_set ..).trans (if_neg (hrecords r hr))
    · have hne : key' ≠ key := fun heq => hhistory id hid (heq ▸ hin)
      exact ⟨e, ((Store.lookup_set ..).trans (if_neg hne)).symm.trans he⟩
  | del key =>
    refine Webhook.Kept.write h (fun r hr => ?_) fun id hid key' e he hin => ?_
    · exact (Store.lookup_del ..).trans (if_neg (horderly r hr))
    · have he' : (if key' = key then none else p.server.lookup key') = some e :=
        (Store.lookup_del ..).symm.trans he
      split at he'
      · cases he'
      · exact ⟨e, he'⟩

theorem kept_step {e : PoolEvent Call Choice} (h : p.Kept keyPrefix)
    (hrec : Recording keyPrefix p e) (hstep : (system scan keyPrefix).step p e = some p') :
    p'.Kept keyPrefix := by
  cases e with
  | spawn c =>
    cases hstep
    exact kept_spawn h hrec
  | exec i v => exact kept_exec h hrec hstep
  | resume i =>
    have hperm := Pool.carriedOut_resume recordOf? hstep
    obtain ⟨l, heard, c, r, k, hi, rfl⟩ := Pool.resume_eq_some hstep
    exact Webhook.Kept.perm h hperm (registered_of_set hi)

/-- In a run of orderly steps the histories are in order. -/
theorem kept_of_run {cache : Cache} {s : Store Document} {es : List (PoolEvent Call Choice)}
    (hrec : (system scan keyPrefix).StepsMeet (Recording keyPrefix) ⟨⟨cache, s⟩, []⟩ es)
    (hrun : (system scan keyPrefix).runFrom ⟨⟨cache, s⟩, []⟩ es = some p) : p.Kept keyPrefix := by
  refine System.invariant_of_stepsMeet (I := World.Kept keyPrefix) (C := Recording keyPrefix)
    (fun p e p' hp hC hs => kept_step hp hC hs) ?_ hrec hrun
  exact (Webhook.Kept.nil s).perm (.refl _) fun id hid => absurd hid List.not_mem_nil

/-- Every call has resolved or rejected. -/
def World.Settled (p : World) : Prop := ∀ t ∈ p.threads, ∃ r, t.stage = .settled r

instance (p : World) : Decidable p.Settled :=
  inferInstanceAs (Decidable (∀ t ∈ p.threads, ∃ r, t.stage = .settled r))

/-- The attempts made for a webhook. -/
def World.attemptsFor (keyPrefix : String) (p : World) (webhookId : String) : List Summary :=
  ((p.carriedOut attemptOf?).filter fun a => a.1 = buildWebhookKey keyPrefix webhookId).map Prod.snd

/-- When all calls have settled, the records are those of the attempts. -/
theorem carriedOut_recordOf? {cache : Cache} {s : Store Document}
    {es : List (PoolEvent Call Choice)}
    (hrun : (system scan keyPrefix).runFrom ⟨⟨cache, s⟩, []⟩ es = some p) (hp : p.Settled) :
    (p.carriedOut recordOf?).map Recorded.attempted = p.carriedOut attemptOf? := by
  unfold Pool.carriedOut
  rw [List.map_flatMap]
  refine List.flatMap_congr fun t ht => ?_
  obtain ⟨r, hr⟩ := hp t ht
  exact Transcribes.of_settled balanced_method rfl hrun ht hr

/-- The history of a webhook, as long as nothing in it has expired and the limit leaves room for all
attempts: the attempts made for it. -/
def HistoryRight (scan : Scan Document) (keyPrefix : String) (p : World) (webhookId : String) :
    Prop :=
  ∀ limit choices, ((p.attemptsFor keyPrefix webhookId).length : ℚ) ≤ limit →
    (∀ key e, InHistory keyPrefix webhookId key → p.server.lookup key = some e →
      ∀ n, e.IsLive (choices n).now) →
    ∃ documents w, ((getDeliveryHistory keyPrefix webhookId limit).alone (serve scan)).run
        ⟨p.toShared, choices, []⟩ = (.ok documents, w) ∧
      (documents.map fun d => d.attempt.map (·.summary)).Perm
        ((p.attemptsFor keyPrefix webhookId).map some)

variable (scan keyPrefix) in
/-- What the history reads lies under the keys of its pattern. -/
theorem run_getDeliveryHistory (webhookId : String) (limit : ℚ) (w : SoloWorld) :
    ∃ (w' : SoloWorld) (entries : List (String × Document)),
      ((getDeliveryHistory keyPrefix webhookId limit).alone (serve scan)).run w =
        (.ok (sliceTo limit ((entries.map Prod.snd).insertionSort
          fun a b => b.timestamp ≤ a.timestamp)), w') ∧
      (entries.map Prod.fst).Nodup ∧
      (∀ key document, (key, document) ∈ entries → InHistory keyPrefix webhookId key ∧
        ∃ n, w.server.get (w.choices n).now key = some document) ∧
      ∀ key document, InHistory keyPrefix webhookId key →
        (∀ n, w.server.get (w.choices n).now key = some document) → (key, document) ∈ entries := by
  obtain ⟨w', entries, hrun, -, -, -, hentries⟩ :=
    run_readKeys scan (keyPrefix ++ ":" ++ webhookId ++ ":attempts:*") w
  refine ⟨w', entries, ?_, hentries⟩
  unfold getDeliveryHistory
  rw [Coroutine.alone_tryCatch]
  refine Async.run_tryCatch_of_ok ?_
  rw [run_ask_bind, Coroutine.alone_bind]
  exact Async.run_bind_of_ok hrun

theorem sliceTo_of_length_le {α : Type} {limit : ℚ} {l : List α} (h : (l.length : ℚ) ≤ limit) :
    sliceTo limit l = l := by
  have hlimit : -1 < limit := neg_one_lt_zero.trans_le (le_trans (Nat.cast_nonneg _) h)
  rw [sliceTo, if_pos hlimit]
  exact List.take_of_length_le (Nat.le_floor h)

/-- **When `getDeliveryHistory` is right.** In a run of interleaved calls, from any cache and
database, in which every attempt is recorded under a key of its own that the pattern of its webhook
means and that of no other webhook, and in which nothing else is written or deleted there, the
history of every webhook is the list of the attempts made for it whenever all calls have settled. -/
theorem historyRight_of_run {cache : Cache} {s : Store Document}
    {es : List (PoolEvent Call Choice)}
    (hrec : (system scan keyPrefix).StepsMeet (Recording keyPrefix) ⟨⟨cache, s⟩, []⟩ es)
    (hrun : (system scan keyPrefix).runFrom ⟨⟨cache, s⟩, []⟩ es = some p) (hp : p.Settled)
    {webhookId : String} (hid : webhookId ∈ p.registered) :
    HistoryRight scan keyPrefix p webhookId := by
  have hkept : p.Kept keyPrefix := kept_of_run hrec hrun
  intro limit choices hlimit hlive
  obtain ⟨w', entries, hread, hnodup, hsound, hcomplete⟩ :=
    run_getDeliveryHistory scan keyPrefix webhookId limit ⟨p.toShared, choices, []⟩
  have hsummaries : p.attemptsFor keyPrefix webhookId =
      (recordsFor keyPrefix webhookId (p.carriedOut recordOf?)).map fun r => r.attempt.summary := by
    rw [World.attemptsFor, ← carriedOut_recordOf? hrun hp, List.filter_map, List.map_map]
    rfl
  have hperm : entries.Perm
      ((recordsFor keyPrefix webhookId (p.carriedOut recordOf?)).map Recorded.entry) :=
    perm_of_read hnodup hsound hcomplete hlive (hkept.mem_entries hid)
      (hkept.nodup_entries webhookId)
  have hdocuments := (List.perm_insertionSort
    (fun a b : Document => b.timestamp ≤ a.timestamp) (entries.map Prod.snd)).trans
    (hperm.map Prod.snd)
  have hlength : ((((entries.map Prod.snd).insertionSort
      fun a b => b.timestamp ≤ a.timestamp).length : ℕ) : ℚ) ≤ limit := by
    rw [hdocuments.length_eq]
    simpa [hsummaries] using hlimit
  refine ⟨_, w', hread, ?_⟩
  rw [sliceTo_of_length_le hlength, hsummaries]
  simpa [List.map_map, Function.comp_def, Recorded.entry] using
    hdocuments.map fun d => d.attempt.map (·.summary)

end

/-- A webhook for completed jobs at a URL. -/
def hookAt (url : String) : WebhookConfig where
  url := url
  events := [.jobCompleted]
  active := true
  createdAt := 0

/-- A webhook is registered at time zero, and an event is delivered to it at the first attempt. -/
def oneDelivery (url : String) : List (PoolEvent Call Choice) :=
  [.spawn (.registerWebhook (hookAt url) 0 ⟨"a", alphanumeric_a⟩), .exec 0 {}, .resume 0,
    .spawn (.sendEvent completed), .exec 1 {}, .resume 1, .exec 1 {}, .resume 1, .exec 1 {},
    .resume 1, .exec 1 {}, .resume 1]

/-- The manager after that. -/
def afterDelivery (url : String) : Option World :=
  (system .stored "webhooks").runFrom ⟨⟨fun _ => none, .empty⟩, []⟩ (oneDelivery url)

/-- With a URL that is the id of the webhook, the attempt is in the history. -/
theorem historyRight_oneDelivery :
    ∃ p, afterDelivery "webhook:0:a" = some p ∧
      (p.attemptsFor "webhooks" "webhook:0:a").length = 1 ∧
      HistoryRight .stored "webhooks" p "webhook:0:a" := by
  have hrec : (system .stored "webhooks").StepsMeet (Recording "webhooks")
      ⟨⟨fun _ => none, .empty⟩, []⟩ (oneDelivery "webhook:0:a") := by decide +kernel
  have hfacts : (afterDelivery "webhook:0:a").any fun p =>
      decide p.Settled && "webhook:0:a" ∈ p.registered &&
        (p.attemptsFor "webhooks" "webhook:0:a").length = 1 := by decide +kernel
  obtain ⟨p, hrun, hp⟩ := (Option.any_eq_true _ _).mp hfacts
  simp only [Bool.and_eq_true, decide_eq_true_eq] at hp
  exact ⟨p, hrun, hp.2, historyRight_of_run hrec hrun hp.1.1 hp.1.2⟩

/-- With any other URL it is not: the history looks for another key. -/
theorem not_historyRight_oneDelivery :
    ∃ p, afterDelivery "hook" = some p ∧ p.Settled ∧ "webhook:0:a" ∈ p.registered ∧
      ¬ HistoryRight .stored "webhooks" p "webhook:0:a" := by
  have hfacts : (afterDelivery "hook").any fun p =>
      decide p.Settled && "webhook:0:a" ∈ p.registered &&
        (p.attemptsFor "webhooks" "webhook:0:a").length = 1 &&
        (p.server.entries.entries.all fun e => decide (e.2.IsLive 0)) &&
        (((getDeliveryHistory "webhooks" "webhook:0:a" 1).alone (serve .stored)).run
          ⟨p.toShared, fun _ => {}, []⟩).1.toOption.map List.length = some 0 := by decide +kernel
  obtain ⟨p, hrun, hp⟩ := (Option.any_eq_true _ _).mp hfacts
  simp only [Bool.and_eq_true, decide_eq_true_eq] at hp
  obtain ⟨⟨⟨⟨hsettled, hregistered⟩, hattempts⟩, hlive⟩, hempty⟩ := hp
  refine ⟨p, hrun, hsettled, hregistered, fun h => ?_⟩
  obtain ⟨documents, w, hread, hperm⟩ := h 1 (fun _ => {}) (by simp [hattempts])
    fun key e _ he _ => by
      have hmem := List.all_eq_true.mp hlive ⟨key, e⟩ (Store.mem_entries.mpr he)
      exact of_decide_eq_true hmem
  rw [hread] at hempty
  have hlength := hperm.length_eq
  rw [List.length_map, List.length_map, hattempts] at hlength
  rw [Except.toOption, Option.map_some, hlength] at hempty
  cases hempty

end KitiumJobQueue.Webhook
