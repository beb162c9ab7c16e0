import KitiumJobQueue.Webhook.Manager
import Mathlib.Tactic.Linarith

/-!
# Which webhooks an event is posted to, and how often

`sendEvent` run on its own, from any database and with any answers to its `POST`s. `Attempted` says
how the loop of `deliverWebhook` goes through its attempts, `Correct` what the attempts at one
webhook should be. `delivers_iff` compares the two for all webhooks at once: they agree unless a
webhook allows no attempt at all, or the pattern of the listing does not mean the keys it should.
-/

namespace KitiumJobQueue.Webhook

open Effects JavaScript Redis

/-! ## Posts -/

/-- The webhook a step posts to, and what becomes of it. -/
def postOf? : (Σ c, Except Thrown (Reply c)) → Option (String × Posted)
  | ⟨.post source _ _ _ _ _, .ok posted⟩ => some (source, posted)
  | ⟨.post _ _ _ _ _ _, .error _⟩ | ⟨.get _, _⟩ | ⟨.set _ _ _, _⟩ | ⟨.record _ _ _ _, _⟩
  | ⟨.del _, _⟩ | ⟨.keys _, _⟩ | ⟨.timer _, _⟩ => none

/-- The posts of a method, the first one first. -/
def posts (heard : Transcript Thrown Reply) : List (String × Posted) :=
  (heard.filterMap postOf?).reverse

/-- What became of the posts to one webhook. -/
def postsTo (source : String) (heard : Transcript Thrown Reply) : List Posted :=
  ((posts heard).filter fun p => p.1 = source).map Prod.snd

/-- A `2xx` answer. -/
def Posted.IsSuccess (posted : Posted) : Prop :=
  ∃ response, posted.response = .ok response ∧ response.IsSuccess

theorem delivered_iff {strategy : WebhookDeliveryStrategy} {posted : Posted} :
    delivered strategy posted = true ↔ posted.IsSuccess ∨ strategy = .bestEffort := by
  unfold delivered Posted.IsSuccess
  split
  · next response h => simp [h]
  · next e h => simp [h]

theorem posts_cons (x : Σ c, Except Thrown (Reply c)) (h : Transcript Thrown Reply) :
    posts (x :: h) = posts h ++ (postOf? x).toList := by
  cases hx : postOf? x <;> simp [posts, hx]

/-- Only a `POST` is one. -/
theorem posts_send {scan : Scan Document} {c : Command} (hc : ∀ r, postOf? ⟨c, r⟩ = none)
    (w : SoloWorld) : posts (w.send (serve scan) c).2.heard = posts w.heard := by
  rw [Solo.send, posts_cons, hc]
  exact List.append_nil _

theorem postsTo_append {source : String} {h h' : Transcript Thrown Reply}
    {ps : List (String × Posted)}
    (hposts : posts h' = posts h ++ ps) :
    postsTo source h' =
      postsTo source h ++ (ps.filter fun p => p.1 = source).map Prod.snd := by
  rw [postsTo, hposts, List.filter_append, List.map_append]
  rfl

/-! ## The attempts at one webhook -/

/-- The attempts from the number `n` on. -/
inductive Attempted (strategy : WebhookDeliveryStrategy) (maxRetries : ℚ) :
    ℕ → List Posted → Prop
  | exhausted {n : ℕ} (h : maxRetries < n) : Attempted strategy maxRetries n []
  | last {n : ℕ} {posted : Posted} (h : n ≤ maxRetries)
      (hlast : posted.IsSuccess ∨ strategy = .bestEffort) :
      Attempted strategy maxRetries n [posted]
  | again {n : ℕ} {posted : Posted} {ps : List Posted} (h : n ≤ maxRetries)
      (hfailed : ¬ posted.IsSuccess) (hstrategy : strategy ≠ .bestEffort)
      (later : Attempted strategy maxRetries (n + 1) ps) :
      Attempted strategy maxRetries n (posted :: ps)

/-- What the posts to a webhook should be: at least one, none after a `2xx` answer, exactly one if
that is the strategy, and otherwise up to a `2xx` answer or `maxRetries` of them. -/
structure Correct (webhook : Document) (ps : List Posted) : Prop where
  ne_nil : ps ≠ []
  failed : ∀ p ∈ ps.dropLast, ¬ p.IsSuccess
  once : webhook.strategy = .bestEffort → ps.length = 1
  tried : webhook.strategy ≠ .bestEffort → (ps.length : ℚ) ≤ webhook.retries ∧
    ((∃ p ∈ ps.getLast?, p.IsSuccess) ∨ webhook.retries < ps.length + 1)

section

variable {strategy : WebhookDeliveryStrategy} {maxRetries : ℚ} {n : ℕ} {ps : List Posted}

theorem Attempted.eq_nil_iff (h : Attempted strategy maxRetries n ps) :
    ps = [] ↔ maxRetries < n := by
  cases h with
  | exhausted h => exact iff_of_true rfl h
  | last h => exact iff_of_false (List.cons_ne_nil _ _) (not_lt.mpr h)
  | again h => exact iff_of_false (List.cons_ne_nil _ _) (not_lt.mpr h)

theorem Attempted.failed (h : Attempted strategy maxRetries n ps) :
    ∀ p ∈ ps.dropLast, ¬ p.IsSuccess := by
  induction h with
  | exhausted => simp
  | last => simp
  | @again n posted ps _ hfailed _ later ih =>
    cases ps with
    | nil => simp
    | cons p ps =>
      intro q hq
      obtain rfl | hq := List.mem_cons.mp hq
      · exact hfailed
      · exact ih q hq

theorem Attempted.once (h : Attempted .bestEffort maxRetries n ps) : ps.length ≤ 1 := by
  cases h with
  | exhausted => exact Nat.zero_le 1
  | last => exact le_rfl
  | again _ _ hstrategy => exact absurd rfl hstrategy

theorem Attempted.tried (h : Attempted strategy maxRetries n ps)
    (hstrategy : strategy ≠ .bestEffort) (hn : n ≤ maxRetries) :
    (n + ps.length : ℚ) ≤ maxRetries + 1 ∧
      ((∃ p ∈ ps.getLast?, p.IsSuccess) ∨ maxRetries < n + ps.length) := by
  induction h with
  | exhausted h => exact absurd hn (not_le.mpr h)
  | @last n posted _ hlast =>
    refine ⟨by simpa using hn, .inl ⟨posted, rfl, hlast.resolve_right hstrategy⟩⟩
  | @again n posted ps _ _ _ later ih =>
    by_cases hnext : ((n + 1 : ℕ) : ℚ) ≤ maxRetries
    · obtain ⟨hle, hend⟩ := ih hnext
      simp only [List.length_cons]
      push_cast at hle hend ⊢
      refine ⟨by linarith, ?_⟩
      rcases hend with ⟨p, hp, hsuccess⟩ | hlt
      · refine .inl ⟨p, ?_, hsuccess⟩
        rw [List.getLast?_cons, Option.mem_def.mp hp]
        rfl
      · exact .inr (by linarith)
    · obtain rfl := later.eq_nil_iff.mpr (not_le.mp hnext)
      refine ⟨by simpa using hn, .inr ?_⟩
      simpa using not_le.mp hnext

/-- What the loop does is what should be done, if it does anything. -/
theorem Attempted.correct {webhook : Document}
    (h : Attempted webhook.strategy webhook.retries 1 ps) (hretries : 1 ≤ webhook.retries) :
    Correct webhook ps := by
  have hretries' : ((1 : ℕ) : ℚ) ≤ webhook.retries := by exact_mod_cast hretries
  have hne : ps ≠ [] := fun hnil => not_lt.mpr hretries' (h.eq_nil_iff.mp hnil)
  refine ⟨hne, h.failed, fun hstrategy => ?_, fun hstrategy => ?_⟩
  · rw [hstrategy] at h
    have hlength := List.length_pos_iff.mpr hne
    have := h.once
    omega
  · obtain ⟨hle, hend⟩ := h.tried hstrategy hretries'
    push_cast at hle hend
    refine ⟨by linarith, hend.imp_right fun hlt => by linarith⟩

end

/-! ## The loop -/

section

variable (scan : Scan Document) (keyPrefix : String)

/-- What becomes of the next post. -/
def nextPosted (w : SoloWorld) : Posted := ⟨(w.choices 0).response, (w.choices 0).now⟩

variable (source : String) (webhook : Document) (payload : WebhookPayload)
variable (strategy : WebhookDeliveryStrategy)

theorem run_tryDeliverWebhookAttempt (n : ℕ) (w : SoloWorld) :
    ∃ w', ((tryDeliverWebhookAttempt keyPrefix source webhook payload strategy n).alone
        (serve scan)).run w = (.ok (delivered strategy (nextPosted w)), w') ∧
      posts w'.heard = posts w.heard ++ [(source, nextPosted w)] := by
  refine ⟨_, rfl, ?_⟩
  simp only [Solo.send, posts_cons]
  exact List.append_nil _

theorem run_waitBeforeRetry (n : ℕ) (maxRetries : ℚ) (w : SoloWorld) :
    ∃ w', ((waitBeforeRetry n maxRetries).alone (serve scan)).run w = (.ok (), w') ∧
      posts w'.heard = posts w.heard := by
  unfold waitBeforeRetry
  split
  · exact ⟨w, rfl, rfl⟩
  · exact ⟨_, rfl, posts_send (fun _ => rfl) w⟩

/-- The rounds are no bound of the loop: they last until the number is beyond `maxRetries`. -/
theorem run_attemptLoop {maxRetries : ℚ} {rounds n : ℕ} (hrounds : maxRetries < n + rounds)
    (w : SoloWorld) :
    ∃ w' ps, ((attemptLoop keyPrefix source webhook payload strategy maxRetries rounds n).alone
        (serve scan)).run w = (.ok (), w') ∧
      posts w'.heard = posts w.heard ++ ps.map (source, ·) ∧
      Attempted strategy maxRetries n ps := by
  induction rounds generalizing n w with
  | zero => exact ⟨w, [], rfl, by simp, .exhausted (by simpa using hrounds)⟩
  | succ rounds ih =>
    rw [attemptLoop]
    split
    case isFalse h => exact ⟨w, [], rfl, by simp, .exhausted (not_le.mp h)⟩
    case isTrue h =>
    obtain ⟨w₁, hrun₁, hposts₁⟩ :=
      run_tryDeliverWebhookAttempt scan keyPrefix source webhook payload strategy n w
    rw [Coroutine.alone_bind, Async.run_bind_of_ok hrun₁]
    by_cases hdelivered : delivered strategy (nextPosted w) = true
    · rw [if_pos hdelivered]
      exact ⟨w₁, [nextPosted w], rfl, by simp [hposts₁],
        .last h (delivered_iff.mp hdelivered)⟩
    · obtain ⟨hfailed, hstrategy⟩ := not_or.mp fun hor => hdelivered (delivered_iff.mpr hor)
      rw [if_neg hdelivered, if_neg hstrategy]
      obtain ⟨w₂, hrun₂, hposts₂⟩ := run_waitBeforeRetry scan (n + 1) maxRetries w₁
      obtain ⟨w₃, ps, hrun₃, hposts₃, hps⟩ :=
        ih (n := n + 1) (by push_cast at hrounds ⊢; linarith) w₂
      refine ⟨w₃, nextPosted w :: ps, ?_, ?_, .again h hfailed hstrategy hps⟩
      · rw [Coroutine.alone_bind, Async.run_bind_of_ok hrun₂, hrun₃]
      · simp [hposts₃, hposts₂, hposts₁]

theorem run_deliverWebhook (w : SoloWorld) :
    ∃ w' ps, ((deliverWebhook keyPrefix source webhook payload).alone (serve scan)).run w =
        (.ok (), w') ∧
      posts w'.heard = posts w.heard ++ ps.map (source, ·) ∧
      Attempted webhook.strategy webhook.retries 1 ps := by
  refine run_attemptLoop scan keyPrefix source webhook payload webhook.strategy ?_ w
  have hfloor := Nat.lt_floor_add_one webhook.retries
  push_cast
  linarith

end

/-! ## The loop over the webhooks -/

/-- A webhook that an event should be posted to. -/
def Document.Subscribed (webhook : Document) (payload : WebhookPayload) : Prop :=
  webhook.active = some true ∧ ∃ events ∈ webhook.events, payload.eventType ∈ events

instance (webhook : Document) (payload : WebhookPayload) : Decidable (webhook.Subscribed payload) :=
  inferInstanceAs (Decidable (_ ∧ ∃ events ∈ webhook.events, payload.eventType ∈ events))

/-- What `sendEvent` does about one webhook. -/
def Sent (payload : WebhookPayload) (webhook : Document) (ps : List Posted) : Prop :=
  (webhook.Subscribed payload → Attempted webhook.strategy webhook.retries 1 ps) ∧
    (¬ webhook.Subscribed payload → ps = [])

/-- An active document has a list of events. -/
def Document.IsTyped (document : Document) : Prop :=
  document.active = some true → document.events.isSome = true

section

variable (scan : Scan Document) (keyPrefix : String) (payload : WebhookPayload)

theorem run_sendTo {entry : String × Document} (htyped : entry.2.IsTyped) (w : SoloWorld) :
    ∃ w' ps, ((sendTo keyPrefix payload entry).alone (serve scan)).run w = (.ok (), w') ∧
      posts w'.heard = posts w.heard ++ ps.map (entry.1, ·) ∧ Sent payload entry.2 ps := by
  have hnothing (h : ¬ entry.2.Subscribed payload) : Sent payload entry.2 [] :=
    ⟨fun hsub => absurd hsub h, fun _ => rfl⟩
  unfold sendTo
  split
  case isFalse hactive =>
    exact ⟨w, [], rfl, by simp, hnothing fun hsub => hactive hsub.1⟩
  case isTrue hactive =>
  obtain ⟨events, hevents⟩ := Option.isSome_iff_exists.mp (htyped hactive)
  rw [hevents]
  by_cases hmem : payload.eventType ∈ events
  · simp only [if_pos hmem]
    obtain ⟨w', ps, hrun, hposts, hps⟩ :=
      run_deliverWebhook scan keyPrefix entry.1 entry.2 payload w
    exact ⟨w', ps, hrun, hposts, fun _ => hps, fun hsub =>
      absurd ⟨hactive, events, hevents, hmem⟩ hsub⟩
  · simp only [if_neg hmem]
    refine ⟨w, [], rfl, by simp, hnothing fun hsub => ?_⟩
    obtain ⟨-, events', hevents', hmem'⟩ := hsub
    cases hevents.symm.trans hevents'
    exact hmem hmem'

/-- Every webhook gets what is due to it, whatever became of the ones before. -/
theorem run_forEach_sendTo {entries : List (String × Document)}
    (htyped : ∀ entry ∈ entries, entry.2.IsTyped) (hnodup : (entries.map Prod.fst).Nodup)
    (w : SoloWorld) :
    ∃ w', ((Coroutine.forEach (sendTo keyPrefix payload) entries).alone (serve scan)).run w =
        (.ok (), w') ∧
      ∀ source, ∃ ps, postsTo source w'.heard = postsTo source w.heard ++ ps ∧
        (∀ webhook, (source, webhook) ∈ entries → Sent payload webhook ps) ∧
        (source ∉ entries.map Prod.fst → ps = []) := by
  induction entries generalizing w with
  | nil => exact ⟨w, rfl, fun source => ⟨[], by simp, by simp, fun _ => rfl⟩⟩
  | cons entry entries ih =>
    obtain ⟨key, document⟩ := entry
    obtain ⟨w₁, ps₁, hrun₁, hposts₁, hsent₁⟩ :=
      run_sendTo scan keyPrefix payload (htyped _ List.mem_cons_self) w
    obtain ⟨hfresh, hnodup'⟩ := List.nodup_cons.mp hnodup
    obtain ⟨w₂, hrun₂, hposts₂⟩ :=
      ih (fun e he => htyped e (List.mem_cons_of_mem _ he)) hnodup' w₁
    refine ⟨w₂, ?_, fun source => ?_⟩
    · rw [Coroutine.forEach, Coroutine.alone_bind, Async.run_bind_of_ok hrun₁, hrun₂]
    obtain ⟨ps₂, hps₂, hsent₂, hnil₂⟩ := hposts₂ source
    by_cases hsource : source = key
    · subst hsource
      refine ⟨ps₁, ?_, ?_, ?_⟩
      · rw [hps₂, hnil₂ hfresh, postsTo_append hposts₁]
        simp [List.filter_map, Function.comp_def]
      · intro webhook hmem
        obtain heq | hmem := List.mem_cons.mp hmem
        · cases heq
          exact hsent₁
        · exact absurd (List.mem_map_of_mem hmem) hfresh
      · exact fun hnot => absurd List.mem_cons_self hnot
    · refine ⟨ps₂, ?_, ?_, ?_⟩
      · rw [hps₂, postsTo_append hposts₁]
        simp [List.filter_map, Function.comp_def, Ne.symm hsource]
      · intro webhook hmem
        obtain heq | hmem := List.mem_cons.mp hmem
        · cases heq
          exact absurd rfl hsource
        · exact hsent₂ webhook hmem
      · exact fun hnot => hnil₂ fun hmem => hnot (List.mem_cons_of_mem _ hmem)

/-! ## The listing -/

/-- What is read is what was there when it was read. -/
theorem run_readDocuments {keys : List String} (hnodup : keys.Nodup) (w : SoloWorld) :
    ∃ w' documents, ((readDocuments keys).alone (serve scan)).run w = (.ok documents, w') ∧
      w'.memory = w.memory ∧ w'.server = w.server ∧ posts w'.heard = posts w.heard ∧
      (documents.map Prod.fst).Nodup ∧
      (∀ key document, (key, document) ∈ documents →
        key ∈ keys ∧ ∃ n, w.server.get (w.choices n).now key = some document) ∧
      ∀ key ∈ keys, ∀ document, (∀ n, w.server.get (w.choices n).now key = some document) →
        (key, document) ∈ documents := by
  induction keys generalizing w with
  | nil => exact ⟨w, [], rfl, rfl, rfl, rfl, by simp, by simp, by simp⟩
  | cons key keys ih =>
    obtain ⟨hfresh, hnodup'⟩ := List.nodup_cons.mp hnodup
    obtain ⟨w', documents, hrun, hmemory, hserver, hposts, hkeys, hread, hall⟩ :=
      ih hnodup' (w.send (serve scan) (.get key)).2
    have hserver₁ : (w.send (serve scan) (.get key)).2.server = w.server := rfl
    have hchoices₁ (n : ℕ) : (w.send (serve scan) (.get key)).2.choices n = w.choices (n + 1) := rfl
    simp only [hserver₁, hchoices₁] at hread hall
    have hget : (respond scan (w.choices 0) (.get key) w.server).1 =
      w.server.get (w.choices 0).now key := rfl
    have hrun' : ((readDocuments (key :: keys)).alone (serve scan)).run w =
        (.ok (((w.server.get (w.choices 0).now key).map (key, ·)).toList ++ documents), w') := by
      rw [readDocuments, run_ask_bind, Coroutine.alone_bind, Async.run_bind_of_ok hrun, hget]
      cases w.server.get (w.choices 0).now key <;> rfl
    refine ⟨w', _, hrun', hmemory, hserver,
      hposts.trans (posts_send (fun _ => rfl) w), ?_, ?_, ?_⟩
    · cases w.server.get (w.choices 0).now key with
      | none => exact hkeys
      | some found =>
        refine List.nodup_cons.mpr ⟨fun hmem => ?_, hkeys⟩
        obtain ⟨⟨k, document⟩, hdocument, rfl⟩ := List.mem_map.mp hmem
        exact hfresh (hread k document hdocument).1
    · intro k document hmem
      obtain hmem | hmem := List.mem_append.mp hmem
      · obtain ⟨found, hfound, heq⟩ := Option.map_eq_some_iff.mp (Option.mem_toList.mp hmem)
        cases heq
        exact ⟨List.mem_cons_self, 0, hfound⟩
      · obtain ⟨hk, n, hn⟩ := hread k document hmem
        exact ⟨List.mem_cons_of_mem _ hk, n + 1, hn⟩
    · intro k hk document hlasting
      obtain rfl | hk := List.mem_cons.mp hk
      · rw [hlasting 0]
        exact List.mem_cons_self
      · exact List.mem_append_right _ (hall k hk document fun n => hlasting (n + 1))

/-- What is read of the keys of a pattern. -/
theorem run_readKeys (pattern : String) (w : SoloWorld) :
    ∃ w' entries, ((readDocuments (respond scan (w.choices 0) (.keys pattern) w.server).1).alone
        (serve scan)).run (w.send (serve scan) (.keys pattern)).2 = (.ok entries, w') ∧
      w'.memory = w.memory ∧ w'.server = w.server ∧ posts w'.heard = posts w.heard ∧
      (entries.map Prod.fst).Nodup ∧
      (∀ key document, (key, document) ∈ entries →
        KeyMatches pattern key ∧ ∃ n, w.server.get (w.choices n).now key = some document) ∧
      ∀ key document, KeyMatches pattern key →
        (∀ n, w.server.get (w.choices n).now key = some document) → (key, document) ∈ entries := by
  obtain ⟨w', entries, hrun, hmemory, hserver, hposts, hnodup, hread, hall⟩ :=
    run_readDocuments scan (Store.nodup_keys w.server (w.choices 0).now pattern)
      (w.send (serve scan) (.keys pattern)).2
  refine ⟨w', entries, hrun, hmemory, hserver, hposts.trans (posts_send (fun _ => rfl) w),
    hnodup, ?_, ?_⟩
  · intro key document hmem
    obtain ⟨hkey, n, hn⟩ := hread key document hmem
    exact ⟨(Store.mem_keys.mp hkey).2, n + 1, hn⟩
  · intro key document hmatches hlasting
    refine hall key (Store.mem_keys.mpr ⟨?_, hmatches⟩) document fun n => hlasting (n + 1)
    rw [hlasting 0]
    rfl

/-- What the listing reads lies under the keys of its pattern. -/
theorem run_listEntries (w : SoloWorld) :
    ∃ w' entries, ((listEntries keyPrefix).alone (serve scan)).run w = (.ok entries, w') ∧
      w'.memory = w.memory ∧ w'.server = w.server ∧ posts w'.heard = posts w.heard ∧
      (entries.map Prod.fst).Nodup ∧
      (∀ key document, (key, document) ∈ entries →
        KeyMatches (keyPrefix ++ ":*") key ∧
          ∃ n, w.server.get (w.choices n).now key = some document) ∧
      ∀ key document, KeyMatches (keyPrefix ++ ":*") key →
        (∀ n, w.server.get (w.choices n).now key = some document) → (key, document) ∈ entries := by
  obtain ⟨w', entries, hrun, hentries⟩ := run_readKeys scan (keyPrefix ++ ":*") w
  refine ⟨w', entries, ?_, hentries⟩
  unfold listEntries
  rw [Coroutine.alone_tryCatch]
  refine Async.run_tryCatch_of_ok ?_
  rw [run_ask_bind]
  exact hrun

end

/-- What is read under the keys of a kind while none of it expires is what is stored there. -/
theorem perm_of_read {P : String → Prop} {s : Store Document} {choices : ℕ → Choice}
    {entries stored : List (String × Document)} (hnodup : (entries.map Prod.fst).Nodup)
    (hread : ∀ key document, (key, document) ∈ entries →
      P key ∧ ∃ n, s.get (choices n).now key = some document)
    (hall : ∀ key document, P key → (∀ n, s.get (choices n).now key = some document) →
      (key, document) ∈ entries)
    (hlive : ∀ key e, P key → s.lookup key = some e → ∀ n, e.IsLive (choices n).now)
    (hstored : ∀ key document, (key, document) ∈ stored ↔
      P key ∧ ∃ e, s.lookup key = some e ∧ e.value = document)
    (hkeys : (stored.map Prod.fst).Nodup) : entries.Perm stored := by
  refine (List.perm_ext_iff_of_nodup (.of_map _ hnodup) (.of_map _ hkeys)).mpr ?_
  rintro ⟨key, document⟩
  rw [hstored]
  constructor
  · intro hmem
    obtain ⟨hkey, n, hget⟩ := hread key document hmem
    obtain ⟨e, he, -, hvalue⟩ := Store.get_eq_some.mp hget
    exact ⟨hkey, e, he, hvalue⟩
  · rintro ⟨hkey, e, he, hvalue⟩
    exact hall key document hkey fun n =>
      Store.get_eq_some.mpr ⟨e, he, hlive key e hkey he n, hvalue⟩

/-! ## One event -/

section

variable (scan : Scan Document) (keyPrefix : String) (payload : WebhookPayload)
variable (cache : Cache) (store : Store Document) (choices : ℕ → Choice)

/-- The steps of `sendEvent`. -/
def sendingSteps : Transcript Thrown Reply :=
  (((sendEvent keyPrefix payload).alone (serve scan)).run ⟨⟨cache, store⟩, choices, []⟩).2.heard

/-- A document that is there as long as the event is sent. -/
def Lasting (key : String) (document : Document) : Prop :=
  ∀ n, store.get (choices n).now key = some document

/-- A key of the manager's own. -/
def Own (key : String) : Prop := ∃ webhookId, key = buildWebhookKey keyPrefix webhookId

/-- The event is posted to the webhooks it should be posted to, as it should be. Nothing is said of
a document that expires in the meantime. -/
structure Delivers : Prop where
  subscribed : ∀ key webhook, Lasting store choices key webhook → Own keyPrefix key →
    webhook.Subscribed payload →
    Correct webhook (postsTo key (sendingSteps scan keyPrefix payload cache store choices))
  others : ∀ key webhook, Lasting store choices key webhook →
    ¬ (Own keyPrefix key ∧ webhook.Subscribed payload) →
    postsTo key (sendingSteps scan keyPrefix payload cache store choices) = []
  absent : ∀ key, (∀ n, store.get (choices n).now key = none) →
    postsTo key (sendingSteps scan keyPrefix payload cache store choices) = []

/-- Every webhook for the event allows an attempt, and the listing finds it; and if the listing
finds a document that is not the manager's, that allows no attempt. -/
def Deliverable : Prop :=
  ∀ key webhook, Lasting store choices key webhook → webhook.Subscribed payload →
    (Own keyPrefix key → KeyMatches (keyPrefix ++ ":*") key ∧ 1 ≤ webhook.retries) ∧
      (¬ Own keyPrefix key → KeyMatches (keyPrefix ++ ":*") key → webhook.retries < 1)

variable {store}

/-- What is listed gets what is due to it, and nothing else gets anything. -/
theorem postsTo_sendingSteps (htyped : ∀ key e, store.lookup key = some e → e.value.IsTyped) :
    ∃ entries : List (String × Document),
      (∀ key webhook, (key, webhook) ∈ entries → KeyMatches (keyPrefix ++ ":*") key ∧
        ∃ n, store.get (choices n).now key = some webhook) ∧
      (∀ key webhook, KeyMatches (keyPrefix ++ ":*") key → Lasting store choices key webhook →
        (key, webhook) ∈ entries) ∧
      ∀ key, (∀ webhook, (key, webhook) ∈ entries → Sent payload webhook
          (postsTo key (sendingSteps scan keyPrefix payload cache store choices))) ∧
        (key ∉ entries.map Prod.fst →
          postsTo key (sendingSteps scan keyPrefix payload cache store choices) = []) := by
  obtain ⟨w₁, entries, hrun₁, -, -, hposts₁, hnodup, hread, hall⟩ :=
    run_listEntries scan keyPrefix ⟨⟨cache, store⟩, choices, []⟩
  have htyped' (entry : String × Document) (hmem : entry ∈ entries) : entry.2.IsTyped := by
    obtain ⟨-, n, hget⟩ := hread entry.1 entry.2 hmem
    obtain ⟨e, he, -, hvalue⟩ := Store.get_eq_some.mp hget
    exact hvalue ▸ htyped _ e he
  obtain ⟨w₂, hrun₂, hposts₂⟩ := run_forEach_sendTo scan keyPrefix payload htyped' hnodup w₁
  have hrun : ((sendEvent keyPrefix payload).alone (serve scan)).run ⟨⟨cache, store⟩, choices, []⟩ =
      (.ok (), w₂) := by
    unfold sendEvent
    rw [Coroutine.alone_tryCatch]
    refine Async.run_tryCatch_of_ok ?_
    rw [Coroutine.alone_bind, Async.run_bind_of_ok hrun₁, hrun₂]
  have hsteps : sendingSteps scan keyPrefix payload cache store choices = w₂.heard := by
    rw [sendingSteps, hrun]
  refine ⟨entries, hread, fun key webhook hkey hlasting => hall key webhook hkey hlasting,
    fun key => ?_⟩
  obtain ⟨ps, hps, hsent, hnil⟩ := hposts₂ key
  have hps' : postsTo key w₂.heard = ps := by
    rw [hps, postsTo, hposts₁]
    rfl
  rw [hsteps, hps']
  exact ⟨hsent, hnil⟩

/-- **When `sendEvent` delivers.** It posts to every active webhook subscribed to the event and to
no other, each time until a `2xx` answer or as often as the strategy and `maxRetries` allow, exactly
if all these webhooks allow at least one attempt and the listing finds them and no others. -/
theorem delivers_iff (store : Store Document)
    (htyped : ∀ key e, store.lookup key = some e → e.value.IsTyped) :
    Delivers scan keyPrefix payload cache store choices ↔
      Deliverable keyPrefix payload store choices := by
  obtain ⟨entries, hread, hall, hposts⟩ :=
    postsTo_sendingSteps scan keyPrefix payload cache choices htyped
  have honly {key : String} {webhook webhook' : Document}
      (hlasting : Lasting store choices key webhook) (hmem : (key, webhook') ∈ entries) :
      webhook' = webhook := by
    obtain ⟨-, n, hget⟩ := hread key webhook' hmem
    exact Option.some.inj (hget.symm.trans (hlasting n))
  have hunlisted {key : String} (h : ∀ webhook, (key, webhook) ∉ entries) :
      postsTo key (sendingSteps scan keyPrefix payload cache store choices) = [] := by
    refine (hposts key).2 fun hmem => ?_
    obtain ⟨⟨k, webhook⟩, hentry, rfl⟩ := List.mem_map.mp hmem
    exact h webhook hentry
  constructor
  · intro h key webhook hlasting hsub
    constructor
    · intro hown
      have hcorrect := h.subscribed key webhook hlasting hown hsub
      have hlisted : (key, webhook) ∈ entries := by
        by_contra hnot
        refine hcorrect.ne_nil (hunlisted fun webhook' hmem => hnot ?_)
        rwa [← honly hlasting hmem]
      refine ⟨(hread key webhook hlisted).1, ?_⟩
      have hattempted := ((hposts key).1 webhook hlisted).1 hsub
      exact_mod_cast not_lt.mp fun hlt => hcorrect.ne_nil (hattempted.eq_nil_iff.mpr hlt)
    · intro hown hmatches
      have hattempted := ((hposts key).1 webhook (hall key webhook hmatches hlasting)).1 hsub
      exact_mod_cast hattempted.eq_nil_iff.mp
        (h.others key webhook hlasting fun hboth => hown hboth.1)
  · intro h
    refine ⟨fun key webhook hlasting hown hsub => ?_, fun key webhook hlasting hnot => ?_,
      fun key habsent => hunlisted fun webhook hmem => ?_⟩
    · obtain ⟨hmatches, hretries⟩ := (h key webhook hlasting hsub).1 hown
      exact (((hposts key).1 webhook (hall key webhook hmatches hlasting)).1 hsub).correct hretries
    · by_cases hlisted : (key, webhook) ∈ entries
      · by_cases hsub : webhook.Subscribed payload
        · have hlt := (h key webhook hlasting hsub).2 (fun hown => hnot ⟨hown, hsub⟩)
            (hread key webhook hlisted).1
          exact (((hposts key).1 webhook hlisted).1 hsub).eq_nil_iff.mpr (by exact_mod_cast hlt)
        · exact ((hposts key).1 webhook hlisted).2 hsub
      · refine hunlisted fun webhook' hmem => hlisted ?_
        rwa [← honly hlasting hmem]
    · obtain ⟨-, n, hget⟩ := hread key webhook hmem
      rw [habsent n] at hget
      cases hget

end

/-- A webhook for completed jobs. -/
def webhookFor (maxRetries : Option ℚ) : Document where
  url := some "hook"
  events := some [.jobCompleted]
  maxRetries := maxRetries
  active := some true
  createdAt := some 0

/-- A database with one webhook. -/
def storeWith (webhook : Document) : Store Document :=
  Store.empty.set "webhooks:webhook:0:a" webhook (some 31536000000)

/-- A job has completed. -/
def completed : WebhookPayload where
  eventType := .jobCompleted
  eventId := "event"

/-- A text that a random number may have. -/
theorem alphanumeric_a : ∀ c ∈ "a".toList, c.isDigit ∨ c.isLower := by
  simp

/-- A database with two webhooks, of which the second one is listed first. -/
def storeWithTwo : Store Document :=
  (storeWith (webhookFor (some 1))).set "webhooks:webhook:1:a" (webhookFor none)
    (some 31536000000)

/-- No connection is accepted for the first eleven commands. -/
def refusedAtFirst (n : ℕ) : Choice :=
  if n < 11 then { response := .error (.value "ECONNREFUSED") } else {}

theorem lookup_storeWithTwo {key : String} {e : Entry Document}
    (h : storeWithTwo.lookup key = some e) :
    key = "webhooks:webhook:1:a" ∧ e.value = webhookFor none ∨
      key = "webhooks:webhook:0:a" ∧ e.value = webhookFor (some 1) := by
  rw [storeWithTwo, storeWith, Store.lookup_set, Store.lookup_set] at h
  split at h
  · next hkey =>
    cases h
    exact .inl ⟨hkey, rfl⟩
  · split at h
    · next hkey =>
      cases h
      exact .inr ⟨hkey, rfl⟩
    · cases h

/-- Three posts to the first webhook are refused, and the second one gets the event. -/
theorem delivers_storeWithTwo :
    ((postsTo "webhooks:webhook:1:a" (sendingSteps Scan.stored "webhooks" completed
        (fun _ => none) storeWithTwo refusedAtFirst)).length = 3 ∧
      (postsTo "webhooks:webhook:0:a" (sendingSteps Scan.stored "webhooks" completed
        (fun _ => none) storeWithTwo refusedAtFirst)).length = 1) ∧
      Delivers Scan.stored "webhooks" completed (fun _ => none) storeWithTwo refusedAtFirst := by
  have htyped : ∀ key e, storeWithTwo.lookup key = some e → e.value.IsTyped := by
    intro key e he _
    rcases lookup_storeWithTwo he with ⟨-, hvalue⟩ | ⟨-, hvalue⟩
    · rw [hvalue]
      rfl
    · rw [hvalue]
      rfl
  refine ⟨by decide +kernel, (delivers_iff Scan.stored "webhooks" completed (fun _ => none)
    refusedAtFirst storeWithTwo htyped).mpr fun key webhook hlasting _ => ?_⟩
  obtain ⟨e, he, -, rfl⟩ := Store.get_eq_some.mp (hlasting 0)
  rcases lookup_storeWithTwo he with ⟨rfl, hvalue⟩ | ⟨rfl, hvalue⟩
  · rw [hvalue]
    refine ⟨fun _ => ⟨by decide +kernel, by norm_num [webhookFor, Document.retries]⟩,
      fun hown => ?_⟩
    exact absurd ⟨"webhook:1:a", rfl⟩ hown
  · rw [hvalue]
    refine ⟨fun _ => ⟨by decide +kernel, by norm_num [webhookFor, Document.retries]⟩,
      fun hown => ?_⟩
    exact absurd ⟨"webhook:0:a", rfl⟩ hown

/-- A webhook that was registered with `maxRetries: 0` never gets an event. -/
theorem not_delivers_webhookFor_zero :
    ¬ Delivers Scan.stored "webhooks" completed (fun _ => none) (storeWith (webhookFor (some 0)))
      fun _ => {} := by
  intro h
  refine (h.subscribed "webhooks:webhook:0:a" (webhookFor (some 0)) (fun n => by decide +kernel)
    ⟨"webhook:0:a", rfl⟩ ⟨rfl, _, rfl, List.mem_cons_self⟩).ne_nil ?_
  exact List.isEmpty_iff.mp (by decide +kernel)

end KitiumJobQueue.Webhook
