import KitiumJobQueue.Foundations.RelyGuarantee
import KitiumJobQueue.Webhook.Listing

/-!
# Webhooks that were disabled or deleted

`sendEvent` posts to the webhooks that it reads as active. An update writes back the whole record
it has read, from the cache or from Redis, with the `active` it found there; meanwhile the webhook
may have been disabled or deleted. `silent_of_run` says of any interleaving of calls in which no
such record is written that a webhook that was disabled or deleted gets no event.

That a method which stops a webhook has written or deleted its record (`Stops`), and that
`sendEvent` posts only to what it has read as active (`Sourced`), are properties of each method on
its own; that the record stays inactive is one of the database.
-/

namespace KitiumJobQueue.Webhook

open Effects JavaScript Redis

/-! ## Active webhooks -/

/-- The webhook a call makes, or sets `active` of by its arguments. -/
def Call.setsActive? : Call → Option String
  | .registerWebhook _ now random => some (newWebhookId now random)
  | .updateWebhook webhookId config => if config.active = .absent then none else some webhookId
  | .enableWebhook webhookId => some webhookId
  | .disableWebhook _ | .deleteWebhook _ | .getWebhook _ | .listWebhooks | .sendEvent _
  | .retryDelivery _ _ | .testWebhook _ _ | .getDeliveryHistory _ _ => none

/-- The webhook a call disables or deletes. -/
def Call.stops? : Call → Option String
  | .disableWebhook webhookId | .deleteWebhook webhookId => some webhookId
  | .registerWebhook _ _ _ | .updateWebhook _ _ | .enableWebhook _ | .getWebhook _ | .listWebhooks
  | .sendEvent _ | .retryDelivery _ _ | .testWebhook _ _ | .getDeliveryHistory _ _ => none

theorem setsActive?_of_stops? {c : Call} {webhookId : String} (h : c.stops? = some webhookId) :
    c.setsActive? = none := by
  cases c with
  | disableWebhook _ | deleteWebhook _ => rfl
  | registerWebhook _ _ _ | updateWebhook _ _ | enableWebhook _ | getWebhook _ | listWebhooks
  | sendEvent _ | retryDelivery _ _ | testWebhook _ _ | getDeliveryHistory _ _ => cases h

/-- What is stored under a key, expired or not, is active. -/
def IsActive (s : Store Document) (key : String) : Prop :=
  ((s.lookup key).bind fun e => e.value.active) = some true

instance (s : Store Document) (key : String) : Decidable (IsActive s key) :=
  inferInstanceAs (Decidable (_ = _))

theorem isActive_iff {s : Store Document} {key : String} :
    IsActive s key ↔ ∃ e, s.lookup key = some e ∧ e.value.active = some true :=
  Option.bind_eq_some_iff

/-- No call that sets `active` of the webhook is under way. -/
def World.Quiet (p : World) (webhookId : String) : Prop :=
  ∀ t ∈ p.threads, t.label.setsActive? = some webhookId → ∃ r, t.stage = .settled r

/-- The call has resolved. -/
def Stage.isResolved : Stage Thrown Cache Reply Result → Bool
  | .settled (.ok _) => true
  | .settled (.error _) | .waiting _ _ | .ready _ _ _ => false

/-- The call `i` has resolved. -/
def World.Resolved (p : World) (i : ℕ) : Prop :=
  ∃ t, p.threads[i]? = some t ∧ Stage.isResolved t.stage = true

theorem exists_of_isResolved {stage : Stage Thrown Cache Reply Result}
    (h : Stage.isResolved stage = true) : ∃ a, stage = .settled (.ok a) := by
  cases stage with
  | waiting c k => cases h
  | ready c r k => cases h
  | settled r =>
    cases r with
    | ok a => exact ⟨a, rfl⟩
    | error e => cases h

section

variable (scan : Scan Document) (keyPrefix : String)

/-- In the run, an event sent after a webhook was disabled or deleted is not posted to it, where no
call that sets its `active` is under way when it is disabled or deleted, or is made later. -/
def Silent (w : World) (es : List (PoolEvent Call Choice)) : Prop :=
  ∀ es₁ stop es₂ payload es₃,
    es = es₁ ++ .spawn stop :: es₂ ++ .spawn (.sendEvent payload) :: es₃ →
    ∀ webhookId, stop.stops? = some webhookId →
    (∀ c, .spawn c ∈ es₂ ++ es₃ → c.setsActive? ≠ some webhookId) →
    ∀ p₁ p₂ p₃, (system scan keyPrefix).runFrom w es₁ = some p₁ → p₁.Quiet webhookId →
      (system scan keyPrefix).runFrom p₁ (.spawn stop :: es₂) = some p₂ →
      p₂.Resolved p₁.threads.length →
      (system scan keyPrefix).runFrom p₂ (.spawn (.sendEvent payload) :: es₃) = some p₃ →
      ∀ t, p₃.threads[p₂.threads.length]? = some t →
        postsTo (buildWebhookKey keyPrefix webhookId) t.heard = []

/-- A record is written as active over an active one, or by a call that sets `active`. -/
def Justified (p : World) (label : Call) : Command → Prop
  | .set key document _ => document.active = some true →
      IsActive p.server key ∨ label.setsActive?.map (buildWebhookKey keyPrefix) = some key
  | .get _ | .record _ _ _ _ | .del _ | .keys _ | .post _ _ _ _ _ _ | .timer _ => True

/-- The steps in which no webhook becomes active by an update of something else. -/
def Justly (p : World) : PoolEvent Call Choice → Prop
  | .exec i _ => ∀ t ∈ p.threads[i]?, ∀ c ∈ t.stage.command?, Justified keyPrefix p t.label c
  | .spawn _ | .resume _ => True

instance (p : World) (label : Call) : DecidablePred (Justified keyPrefix p label)
  | .set key document _ => inferInstanceAs (Decidable (document.active = some true →
      IsActive p.server key ∨ label.setsActive?.map (buildWebhookKey keyPrefix) = some key))
  | .get _ | .record _ _ _ _ | .del _ | .keys _ | .post _ _ _ _ _ _ | .timer _ => .isTrue trivial

instance (p : World) : DecidablePred (Justly keyPrefix p)
  | .exec i _ => inferInstanceAs (Decidable (∀ t ∈ p.threads[i]?, ∀ c ∈ t.stage.command?,
      Justified keyPrefix p t.label c))
  | .spawn _ | .resume _ => .isTrue trivial

end

/-! ## What a method that stops a webhook does -/

/-- The step that leaves nothing active under a key. -/
def Stops (key : String) : (Σ c, Except Thrown (Reply c)) → Prop
  | ⟨.set key' document _, _⟩ => key' = key ∧ document.active ≠ some true
  | ⟨.del key', _⟩ => key' = key
  | ⟨.get _, _⟩ | ⟨.record _ _ _ _, _⟩ | ⟨.keys _, _⟩ | ⟨.post _ _ _ _ _ _, _⟩
  | ⟨.timer _, _⟩ => False

section

variable {scan : Scan Document} {keyPrefix : String}

theorem not_isActive_of_stops {key : String} {v : Choice} {c : Command} {s : Store Document}
    (h : Stops key ⟨c, (serve scan v c s).1⟩) : ¬ IsActive (serve scan v c s).2 key := by
  cases c with
  | set key' document ttl =>
    obtain ⟨rfl, hactive⟩ := h
    rintro hkey
    obtain ⟨e, he, hvalue⟩ := isActive_iff.mp hkey
    rw [serve, respond, Store.lookup_set, if_pos rfl] at he
    cases he
    exact hactive hvalue
  | del key' =>
    obtain rfl : key' = key := h
    intro hkey
    obtain ⟨e, he, -⟩ := isActive_iff.mp hkey
    rw [serve, respond, Store.lookup_del, if_pos rfl] at he
    cases he
  | get _ | record _ _ _ _ | keys _ | post _ _ _ _ _ _ | timer _ => exact h.elim

/-- An update that leaves the webhook inactive. -/
theorem stops_of_updateWebhook {webhookId : String} {config : PartialConfig}
    (hactive : ∀ b, config.active.laidOver b ≠ some true) (h : Transcript Thrown Reply)
    (w₀ w : Shared Cache (Store Document)) :
    Meets (serve scan) (.noting fun _ => True)
      (fun h _ _ r => ∀ a, r = .ok a → ∃ x ∈ h, Stops (buildWebhookKey keyPrefix webhookId) x)
      (updateWebhook keyPrefix webhookId config) h w₀ w := by
  refine meets_bind.mpr (meets_noting_true (fun h w₀ w r => ?_) _ _ _ _)
  cases r with
  | error e => exact fun a ha => by cases ha
  | ok existing =>
    refine meets_bind.mpr (meets_await.mpr ⟨trivial, fun w₁ _ v _ => ⟨trivial, fun w₂ _ _ => ?_⟩⟩)
    exact fun a _ => ⟨_, List.mem_cons_self, rfl, hactive existing.active⟩

/-- A method that has disabled or deleted a webhook has made a step that leaves it inactive. -/
theorem stops_of_method {stop : Call} {webhookId : String} (hstop : stop.stops? = some webhookId)
    (w : Shared Cache (Store Document)) :
    Meets (serve scan) (.noting fun _ => True)
      (fun h _ _ r => ∀ a, r = .ok a → ∃ x ∈ h, Stops (buildWebhookKey keyPrefix webhookId) x)
      (stop.method keyPrefix) [] w w := by
  cases stop with
  | disableWebhook id =>
    obtain rfl := Option.some.inj hstop
    have hactive (b : Option Bool) : (OptionalField.value false).laidOver b ≠ some true := by
      simp [OptionalField.laidOver]
    refine meets_bind.mpr ((stops_of_updateWebhook hactive [] w w).mono fun h w₀ w r hr => ?_)
    cases r with
    | error e => exact fun a ha => by cases ha
    | ok a => exact fun _ _ => hr a rfl
  | deleteWebhook id =>
    obtain rfl := Option.some.inj hstop
    refine meets_bind.mpr (meets_bind.mpr
      (meets_await.mpr ⟨trivial, fun w₁ _ v _ => ⟨trivial, fun w₂ _ _ => ?_⟩⟩))
    exact fun a _ => ⟨_, List.mem_cons_self, rfl⟩
  | registerWebhook _ _ _ | updateWebhook _ _ | enableWebhook _ | getWebhook _ | listWebhooks
  | sendEvent _ | retryDelivery _ _ | testWebhook _ _ | getDeliveryHistory _ _ => cases hstop

/-! ## What `sendEvent` posts to -/

/-- The step that reads something active under a key. -/
def ReadsActive (key : String) : (Σ c, Except Thrown (Reply c)) → Prop
  | ⟨.get key', .ok (some document)⟩ => key' = key ∧ document.active = some true
  | ⟨.get _, .ok none⟩ | ⟨.get _, .error _⟩ | ⟨.set _ _ _, _⟩ | ⟨.record _ _ _ _, _⟩ | ⟨.del _, _⟩
  | ⟨.keys _, _⟩ | ⟨.post _ _ _ _ _ _, _⟩ | ⟨.timer _, _⟩ => False

theorem isActive_of_readsActive {key : String} {v : Choice} {c : Command} {s : Store Document}
    (h : ReadsActive key ⟨c, (serve scan v c s).1⟩) : IsActive s key := by
  cases c with
  | get key' =>
    rw [serve, respond] at h
    cases hget : s.get v.now key' with
    | none =>
      rw [hget] at h
      exact h.elim
    | some document =>
      rw [hget] at h
      obtain ⟨rfl, hactive⟩ := h
      obtain ⟨e, he, -, rfl⟩ := Store.get_eq_some.mp hget
      exact isActive_iff.mpr ⟨e, he, hactive⟩
  | set _ _ _ | record _ _ _ _ | del _ | keys _ | post _ _ _ _ _ _ | timer _ => exact h.elim

/-- What lies under the key of the entry was read as active, if it is. -/
def Seen (h : Transcript Thrown Reply) (entry : String × Document) : Prop :=
  entry.2.active = some true → ∃ x ∈ h, ReadsActive entry.1 x

/-- Every post goes to what was read as active. -/
def Sourced (h : Transcript Thrown Reply) : Prop :=
  ∀ post ∈ posts h, ∃ x ∈ h, ReadsActive post.1 x

theorem Seen.suffix {h h' : Transcript Thrown Reply} (hh : h <:+ h') {entry : String × Document}
    (hseen : Seen h entry) : Seen h' entry := fun hactive =>
  let ⟨x, hx, hread⟩ := hseen hactive
  ⟨x, hh.subset hx, hread⟩

theorem Sourced.cons {h : Transcript Thrown Reply} (hs : Sourced h)
    {x : Σ c, Except Thrown (Reply c)}
    (hx : ∀ post, postOf? x = some post → ∃ y ∈ h, ReadsActive post.1 y) : Sourced (x :: h) := by
  intro post hpost
  rw [posts_cons, List.mem_append, Option.mem_toList] at hpost
  have hread : ∃ y ∈ h, ReadsActive post.1 y := hpost.elim (hs post) (hx post)
  obtain ⟨y, hy, hread⟩ := hread
  exact ⟨y, List.mem_cons_of_mem x hy, hread⟩

/-- The transcript while an entry is served. -/
def Serving (key : String) (h : Transcript Thrown Reply) : Prop :=
  Sourced h ∧ ∃ x ∈ h, ReadsActive key x

theorem serving_ask {key : String} {c : Command}
    (hc : ∀ r post, postOf? ⟨c, r⟩ = some post → post.1 = key) :
    Maintains (serve scan) (.noting Sourced) (Serving key) (ask c) := by
  refine .await (fun h _ _ hs => hs.1) fun h v s hs => ⟨hs.1.cons fun post hpost => ?_, ?_⟩
  · rw [hc _ post hpost]
    exact hs.2
  · obtain ⟨x, hx, hread⟩ := hs.2
    exact ⟨x, List.mem_cons_of_mem _ hx, hread⟩

theorem serving_tryDeliverWebhookAttempt (key : String) (webhook : Document)
    (payload : WebhookPayload) (strategy : WebhookDeliveryStrategy) (n : ℕ) :
    Maintains (serve scan) (.noting Sourced) (Serving key)
      (tryDeliverWebhookAttempt keyPrefix key webhook payload strategy n) := by
  refine (serving_ask fun r post hpost => ?_).bind fun posted =>
    (serving_ask fun r post hpost => ?_).bind fun _ => .pure _
  · cases r with
    | ok posted => rw [← Option.some.inj hpost]
    | error e => cases hpost
  · cases hpost

theorem serving_deliverWebhook (key : String) (webhook : Document) (payload : WebhookPayload) :
    Maintains (serve scan) (.noting Sourced) (Serving key)
      (deliverWebhook keyPrefix key webhook payload) :=
  attemptLoop_rule keyPrefix
    (M := fun _ m => Maintains (serve scan) (.noting Sourced) (Serving key) m)
    (fun _ a => .pure a) (fun _ _ _ _ hm hf => hm.bind hf)
    (fun n _ _ => serving_tryDeliverWebhookAttempt key webhook payload _ n)
    (fun _ => serving_ask fun r post hpost => by cases hpost) _ le_rfl

/-- The body of the loop posts to an entry that was read as active. -/
theorem sourced_sendTo (payload : WebhookPayload) (entry : String × Document)
    {h : Transcript Thrown Reply} (hs : Sourced h) (hseen : Seen h entry)
    (w₀ w : Shared Cache (Store Document)) :
    Meets (serve scan) (.noting Sourced) (fun h _ _ _ => Sourced h)
      (sendTo keyPrefix payload entry) h w₀ w := by
  unfold sendTo
  split
  case isFalse => exact hs
  case isTrue hactive =>
  split
  · exact hs
  split
  · exact (serving_deliverWebhook entry.1 entry.2 payload h w₀ w ⟨hs, hseen hactive⟩).mono
      fun _ _ _ _ hserving => hserving.1
  · exact hs

/-- What is read is seen. -/
theorem seen_readDocuments (keys : List String) {h : Transcript Thrown Reply} (hs : Sourced h)
    (w₀ w : Shared Cache (Store Document)) :
    Meets (serve scan) (.noting Sourced)
      (fun h _ _ r => Sourced h ∧ ∀ entries, r = .ok entries → ∀ entry ∈ entries, Seen h entry)
      (readDocuments keys) h w₀ w := by
  induction keys generalizing h w₀ w with
  | nil =>
    refine ⟨hs, fun entries hentries entry hmem => ?_⟩
    cases hentries
    cases hmem
  | cons key keys ih =>
    refine meets_bind.mpr (meets_await.mpr ⟨hs, fun w₁ _ v _ => ?_⟩)
    have hs' : Sourced (⟨.get key, (serve scan v (.get key) w₁.server).1⟩ :: h) :=
      hs.cons fun post hpost => by cases hpost
    refine ⟨hs', fun w₂ _ _ => meets_bind.mpr ((ih hs' w₂ w₂).suffix.mono fun h' w₀ w r hr => ?_)⟩
    obtain ⟨hsuffix, hs'', hseen⟩ := hr
    cases r with
    | error e => exact ⟨hs'', fun _ hentries => by cases hentries⟩
    | ok documents =>
      refine ⟨hs'', fun entries hentries entry hmem => ?_⟩
      cases hentries
      cases hget : w₁.server.get v.now key with
      | none =>
        simp only [respond, hget] at hmem
        exact hseen documents rfl entry hmem
      | some document =>
        simp only [respond, hget, List.mem_cons] at hmem
        obtain rfl | hmem := hmem
        · intro hactive
          refine ⟨_, hsuffix.subset List.mem_cons_self, ?_⟩
          rw [serve, respond, hget]
          exact ⟨rfl, hactive⟩
        · exact hseen documents rfl entry hmem

theorem seen_listEntries {h : Transcript Thrown Reply} (hs : Sourced h)
    (w₀ w : Shared Cache (Store Document)) :
    Meets (serve scan) (.noting Sourced)
      (fun h _ _ r => Sourced h ∧ ∀ entries, r = .ok entries → ∀ entry ∈ entries, Seen h entry)
      (listEntries keyPrefix) h w₀ w := by
  refine meets_tryCatch.mpr (meets_bind.mpr (meets_await.mpr ⟨hs, fun w₁ _ v _ => ?_⟩))
  have hs' : Sourced (⟨.keys (keyPrefix ++ ":*"),
      (serve scan v (.keys (keyPrefix ++ ":*")) w₁.server).1⟩ :: h) :=
    hs.cons fun post hpost => by cases hpost
  refine ⟨hs', fun w₂ _ _ => (seen_readDocuments _ hs' w₂ w₂).mono fun h w₀ w r hr => ?_⟩
  cases r with
  | ok entries => exact hr
  | error e =>
    refine ⟨hr.1, fun entries hentries entry hmem => ?_⟩
    cases hentries
    cases hmem

/-- `sendEvent` posts to what it has read as active. -/
theorem sourced_sendEvent (payload : WebhookPayload) (w : Shared Cache (Store Document)) :
    Meets (serve scan) (.noting Sourced) (fun h _ _ _ => Sourced h)
      (Call.method keyPrefix (.sendEvent payload)) [] w w := by
  have hnil : Sourced [] := fun post hpost => by cases hpost
  refine meets_bind.mpr (meets_tryCatch.mpr (meets_bind.mpr ?_))
  refine (seen_listEntries hnil w w).mono fun h w₀ w r hr => ?_
  cases r with
  | error e => exact hr.1
  | ok entries =>
    -- the entries that are left have been seen
    refine meets_forEach (fun l h _ _ => Sourced h ∧ ∀ entry ∈ l, Seen h entry)
      (fun h _ _ hJ => hJ.1) (fun entry l h w₀ w hJ => ?_) ⟨hr.1, hr.2 entries rfl⟩
    refine (sourced_sendTo payload entry hJ.1 (hJ.2 entry List.mem_cons_self) w₀ w).suffix.mono ?_
    intro h' w₀ w r hs
    cases r with
    | error e => exact hs.2
    | ok _ =>
      exact ⟨hs.2, fun entry' hmem => (hJ.2 entry' (List.mem_cons_of_mem _ hmem)).suffix hs.1⟩

/-! ## The database -/

theorem isActive_respond {key : String} {v : Choice} {c : Command} {s : Store Document}
    (h : IsActive (respond scan v c s).2 key) :
    IsActive s key ∨ ∃ document ttl, c = .set key document ttl ∧ document.active = some true := by
  obtain ⟨e, he, hactive⟩ := isActive_iff.mp h
  cases c with
  | set key' document ttl =>
    rw [respond, Store.lookup_set] at he
    split at he
    · next hkey =>
      cases he
      exact .inr ⟨document, ttl, by rw [hkey], hactive⟩
    · exact .inl (isActive_iff.mpr ⟨e, he, hactive⟩)
  | record source key' attempt ttl =>
    rw [respond, Store.lookup_set] at he
    split at he
    · cases he
      cases hactive
    · exact .inl (isActive_iff.mpr ⟨e, he, hactive⟩)
  | del key' =>
    rw [respond, Store.lookup_del] at he
    split at he
    · cases he
    · exact .inl (isActive_iff.mpr ⟨e, he, hactive⟩)
  | get _ | keys _ | post _ _ _ _ _ _ | timer _ => exact .inl h

variable {p p' : World} {e : PoolEvent Call Choice} {webhookId : String}

/-- An inactive webhook stays so while no call that sets its `active` is under way. -/
theorem inactive_step (hquiet : p.Quiet webhookId) (hjust : Justly keyPrefix p e)
    (hstep : (system scan keyPrefix).step p e = some p')
    (h : ¬ IsActive p.server (buildWebhookKey keyPrefix webhookId)) :
    ¬ IsActive p'.server (buildWebhookKey keyPrefix webhookId) := by
  rcases Pool.server_of_step hstep with hserver | ⟨i, v, l, heard, c, k, rfl, hi, hserver⟩
  · rw [hserver]
    exact h
  · rw [hserver]
    intro hactive
    obtain hactive | ⟨document, ttl, rfl, hdocument⟩ := isActive_respond hactive
    · exact h hactive
    obtain hactive | hsets := hjust _ hi _ rfl hdocument
    · exact h hactive
    obtain ⟨id, hid, hkey⟩ := Option.map_eq_some_iff.mp hsets
    obtain rfl := buildWebhookKey_inj.mp hkey
    obtain ⟨r, hr⟩ := hquiet _ (List.mem_of_getElem? hi) hid
    cases hr

/-- No call that sets `active` of the webhook is under way as long as none is made. -/
theorem quiet_step (hquiet : p.Quiet webhookId)
    (he : ∀ c, e = .spawn c → c.setsActive? ≠ some webhookId)
    (hstep : (system scan keyPrefix).step p e = some p') : p'.Quiet webhookId := by
  intro t ht hsets
  rcases Pool.mem_threads_of_step hstep ht with ht | ⟨c, rfl, -, rfl⟩ |
    ⟨i, v, l, heard, c, k, -, hi, -, rfl⟩ | ⟨i, l, heard, c, r, k, -, hi, -, rfl⟩
  · exact hquiet t ht hsets
  · exact absurd hsets (he c rfl)
  · obtain ⟨r, hr⟩ := hquiet _ (List.mem_of_getElem? hi) hsets
    cases hr
  · obtain ⟨r, hr⟩ := hquiet _ (List.mem_of_getElem? hi) hsets
    cases hr

/-- A step in which no webhook becomes active by an update of something else, and which is no call
that sets `active` of this one. -/
def LeavesAlone (keyPrefix webhookId : String) (p : World) (e : PoolEvent Call Choice) : Prop :=
  Justly keyPrefix p e ∧ ∀ c, e = .spawn c → c.setsActive? ≠ some webhookId

/-- If the method `i` has made its step, the webhook is inactive. -/
def Stopped (keyPrefix webhookId : String) (i : ℕ) (p : World) : Prop :=
  p.Quiet webhookId ∧ ∀ t, p.threads[i]? = some t →
    (∃ x ∈ t.heard, Stops (buildWebhookKey keyPrefix webhookId) x) →
    ¬ IsActive p.server (buildWebhookKey keyPrefix webhookId)

theorem stopped_step {i : ℕ} (h : Stopped keyPrefix webhookId i p)
    (he : LeavesAlone keyPrefix webhookId p e)
    (hstep : (system scan keyPrefix).step p e = some p') : Stopped keyPrefix webhookId i p' := by
  refine ⟨quiet_step h.1 he.2 hstep, fun t' ht' hstops => ?_⟩
  obtain hnil | ⟨t, ht, hheard⟩ | ⟨t, v, c, ht, hheard, hserver⟩ :=
    Agreement.heard_of_step hstep ht'
  · obtain ⟨x, hx, -⟩ := hstops
    rw [hnil] at hx
    cases hx
  · exact inactive_step h.1 he.1 hstep (h.2 t ht (hheard ▸ hstops))
  · obtain ⟨x, hx, hx'⟩ := hstops
    rw [hheard] at hx
    obtain rfl | hx := List.mem_cons.mp hx
    · rw [hserver]
      exact not_isActive_of_stops hx'
    · exact inactive_step h.1 he.1 hstep (h.2 t ht ⟨x, hx, hx'⟩)

/-- The webhook is inactive, and the method `j` has not read it as active. -/
def Unseen (keyPrefix webhookId : String) (j : ℕ) (p : World) : Prop :=
  p.Quiet webhookId ∧ ¬ IsActive p.server (buildWebhookKey keyPrefix webhookId) ∧
    ∀ t, p.threads[j]? = some t →
      ∀ x ∈ t.heard, ¬ ReadsActive (buildWebhookKey keyPrefix webhookId) x

theorem unseen_step {j : ℕ} (h : Unseen keyPrefix webhookId j p)
    (he : LeavesAlone keyPrefix webhookId p e)
    (hstep : (system scan keyPrefix).step p e = some p') : Unseen keyPrefix webhookId j p' := by
  obtain ⟨hquiet, hinactive, hunseen⟩ := h
  refine ⟨quiet_step hquiet he.2 hstep, inactive_step hquiet he.1 hstep hinactive,
    fun t' ht' x hx hread => ?_⟩
  obtain hnil | ⟨t, ht, hheard⟩ | ⟨t, v, c, ht, hheard, -⟩ := Agreement.heard_of_step hstep ht'
  · rw [hnil] at hx
    cases hx
  · exact hunseen t ht x (hheard ▸ hx) hread
  · rw [hheard] at hx
    obtain rfl | hx := List.mem_cons.mp hx
    · exact hinactive (isActive_of_readsActive hread)
    · exact hunseen t ht x hx hread

theorem postsTo_eq_nil {key : String} {h : Transcript Thrown Reply} (hs : Sourced h)
    (hunseen : ∀ x ∈ h, ¬ ReadsActive key x) : postsTo key h = [] := by
  rw [postsTo, List.map_eq_nil_iff, List.filter_eq_nil_iff]
  intro post hpost hkey
  obtain ⟨x, hx, hread⟩ := hs post hpost
  exact hunseen x hx (of_decide_eq_true hkey ▸ hread)

/-- **When a webhook that was disabled or deleted gets no event.** In a run of interleaved calls,
from any cache and database, in which a record is written as active only over an active one or by a
call that sets `active`, no `sendEvent` posts to a webhook that was disabled or deleted before it
started, unless a call sets `active` of that webhook at the same time or later. -/
theorem silent_of_run {cache : Cache} {s : Store Document} {es : List (PoolEvent Call Choice)}
    (hjust : (system scan keyPrefix).StepsMeet (Justly keyPrefix) ⟨⟨cache, s⟩, []⟩ es) :
    Silent scan keyPrefix ⟨⟨cache, s⟩, []⟩ es := by
  intro es₁ stop es₂ payload es₃ hes webhookId hstop hnone p₁ p₂ p₃ hrun₁ hquiet hrun₂ hresolved
    hrun₃ t ht
  rw [hes, List.append_assoc, System.stepsMeet_append] at hjust
  obtain ⟨hjust₂, hjust₃⟩ := System.stepsMeet_append.mp (hjust.2 p₁ hrun₁)
  -- nothing of the run sets `active` of the webhook
  have hstops (c : Call) (hc : .spawn c ∈ (.spawn stop :: es₂ : List (PoolEvent Call Choice))) :
      c.setsActive? ≠ some webhookId := by
    obtain hc | hc := List.mem_cons.mp hc
    · cases hc
      simp [setsActive?_of_stops? hstop]
    · exact hnone c (List.mem_append_left _ hc)
  have hsends (c : Call)
      (hc : .spawn c ∈ (.spawn (.sendEvent payload) :: es₃ : List (PoolEvent Call Choice))) :
      c.setsActive? ≠ some webhookId := by
    obtain hc | hc := List.mem_cons.mp hc
    · cases hc
      simp [Call.setsActive?]
    · exact hnone c (List.mem_append_right _ hc)
  -- when the webhook has been disabled or deleted, it is inactive
  obtain ⟨hquiet₂, hinactive⟩ := System.invariant_of_stepsMeet
    (I := Stopped keyPrefix webhookId p₁.threads.length) (C := LeavesAlone keyPrefix webhookId)
    (fun p e p' h he hs => stopped_step h he hs) ⟨hquiet, fun t ht => by simp at ht⟩
    (hjust₂.and_forall fun e he c hc => hstops c (hc ▸ he)) hrun₂
  obtain ⟨stopped, hstopped, -, hpost⟩ :=
    heard_of_called (Q := fun _ => True) (fun w => (stops_of_method hstop w).mono
      fun _ _ _ _ h => ⟨trivial, h⟩) hrun₂
  obtain ⟨t', ht', hsettled⟩ := hresolved
  obtain rfl := Option.some.inj (hstopped.symm.trans ht')
  obtain ⟨a, hsettled⟩ := exists_of_isResolved hsettled
  have hinactive := hinactive stopped hstopped (hpost _ hsettled a rfl)
  -- from then on no method that is called reads it as active
  obtain ⟨-, -, hunseen⟩ := System.invariant_of_stepsMeet
    (I := Unseen keyPrefix webhookId p₂.threads.length) (C := LeavesAlone keyPrefix webhookId)
    (fun p e p' h he hs => unseen_step h he hs) ⟨hquiet₂, hinactive, fun t ht => by simp at ht⟩
    ((hjust₃ p₂ hrun₂).and_forall fun e he c hc => hsends c (hc ▸ he)) hrun₃
  obtain ⟨sent, hsent, hsourced, -⟩ :=
    heard_of_called (fun w => (sourced_sendEvent payload w).mono
      fun _ _ _ _ h => (⟨h, trivial⟩ : Sourced _ ∧ True)) hrun₃
  obtain rfl := Option.some.inj (hsent.symm.trans ht)
  exact postsTo_eq_nil hsourced (hunseen sent ht)

end

/-- A manager of a database with one webhook. -/
def oneHook : World := ⟨⟨fun _ => none, storeWith (webhookFor none)⟩, []⟩

/-- The webhook is disabled, and a job completes. -/
def disabledFirst : List (PoolEvent Call Choice) :=
  [.spawn (.disableWebhook "webhook:0:a"), .exec 0 {}, .resume 0, .exec 0 {}, .resume 0,
    .spawn (.sendEvent completed), .exec 1 {}, .resume 1, .exec 1 {}, .resume 1]

theorem silent_disabledFirst :
    ((system .stored "webhooks").runFrom oneHook disabledFirst).isSome ∧
      Silent .stored "webhooks" oneHook disabledFirst :=
  ⟨by decide +kernel, silent_of_run (by decide +kernel)⟩

/-- While the webhook is disabled, its URL is changed. Both calls have read it before one writes. -/
def changing : List (PoolEvent Call Choice) :=
  [.spawn (.updateWebhook "webhook:0:a" { url := .value "elsewhere" }), .exec 0 {}, .exec 1 {},
    .resume 0, .resume 1, .exec 0 {}, .exec 1 {}, .resume 0, .resume 1]

/-- An event is posted. -/
def posting : List (PoolEvent Call Choice) :=
  [.exec 2 {}, .resume 2, .exec 2 {}, .resume 2, .exec 2 {}]

/-- **A disabled webhook gets an event**: the change of its URL, written last, sets it active
again. -/
theorem not_silent_changing :
    ¬ Silent .stored "webhooks" oneHook
      ([] ++ .spawn (.disableWebhook "webhook:0:a") :: changing ++
        .spawn (.sendEvent completed) :: posting) := by
  have hfacts : ((system .stored "webhooks").runFrom oneHook
        (.spawn (.disableWebhook "webhook:0:a") :: changing)).any fun p₂ =>
      ((p₂.threads[0]?).any fun t => Stage.isResolved t.stage) &&
      ((system .stored "webhooks").runFrom p₂ (.spawn (.sendEvent completed) :: posting)).any
        fun p₃ => (p₃.threads[p₂.threads.length]?).any fun t =>
          !(postsTo "webhooks:webhook:0:a" t.heard).isEmpty := by decide +kernel
  obtain ⟨p₂, hrun₂, hfacts⟩ := (Option.any_eq_true _ _).mp hfacts
  obtain ⟨hresolved, hfacts⟩ := (Bool.and_eq_true _ _).mp hfacts
  obtain ⟨p₃, hrun₃, hfacts⟩ := (Option.any_eq_true _ _).mp hfacts
  obtain ⟨t, ht, hposts⟩ := (Option.any_eq_true _ _).mp hfacts
  intro h
  have hnil := h [] _ changing completed posting rfl "webhook:0:a" rfl ?_ oneHook p₂ p₃ rfl
    (fun t ht => absurd ht List.not_mem_nil) hrun₂ ((Option.any_eq_true _ _).mp hresolved) hrun₃
    t ht
  · have hkey : buildWebhookKey "webhooks" "webhook:0:a" = "webhooks:webhook:0:a" := by
      decide +kernel
    rw [hkey] at hnil
    simp [hnil] at hposts
  · intro c hc
    obtain rfl : c = .updateWebhook "webhook:0:a" { url := .value "elsewhere" } := by
      simpa [changing, posting] using hc
    decide

end KitiumJobQueue.Webhook
