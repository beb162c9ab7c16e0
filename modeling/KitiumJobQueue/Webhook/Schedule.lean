import KitiumJobQueue.Webhook.Delivery
import KitiumJobQueue.Webhook.History

/-!
# When the next attempt is made, and when the records say it is

One delivery on its own, over a clock that only timers advance: a `POST` and a write to the store
take no time, and a timer is never late. What becomes of the `POST`s is any sequence of outcomes.

`schedule` is what is posted and when (`run_deliverWebhook_onTime`). The records announce an attempt
where an exception is caught and nowhere else, which agrees with the schedule exactly if
`Foretold` (`announces_iff`).
-/

namespace KitiumJobQueue.Webhook

open Effects JavaScript Redis

/-! ## A clock -/

/-- What becomes of a `POST`. -/
abbrev Outcome := Except Thrown HttpResponse

/-- A `2xx` answer. -/
def Succeeds (outcome : Outcome) : Prop := ∃ response, outcome = .ok response ∧ response.IsSuccess

/-- The store, the time, and how many `POST`s have been made. -/
structure Clocked where
  store : Store Document
  now : ℕ
  posted : ℕ

/-- How long a command takes. -/
def Command.duration : Command → ℕ
  | .timer ms => ms
  | .get _ | .set _ _ _ | .record _ _ _ _ | .del _ | .keys _ | .post _ _ _ _ _ _ => 0

/-- The `POST`s made after a command. -/
def Command.counted (posted : ℕ) : Command → ℕ
  | .post _ _ _ _ _ _ => posted + 1
  | .get _ | .set _ _ _ | .record _ _ _ _ | .del _ | .keys _ | .timer _ => posted

section

variable (scan : Scan Document) (outcomes : ℕ → Outcome)

/-- What Redis and the HTTP server answer while only timers take time. -/
def onTime : Serve Thrown Clocked Unit Reply := fun _ c s =>
  let answer := respond scan ⟨s.now, outcomes s.posted⟩ c s.store
  (.ok answer.1, ⟨answer.2, s.now + c.duration, c.counted s.posted⟩)

/-- A delivery in progress. -/
abbrev ClockedWorld := Solo Thrown Cache Clocked Unit Reply

/-- The records of a method, the first one first. -/
def records (heard : Transcript Thrown Reply) : List WebhookDeliveryAttempt :=
  ((heard.filterMap recordOf?).map Recorded.attempt).reverse

/-- The `POST`s of a delivery, when `rounds` attempts are left, `made` have been made, and the next
one is due at `now`. -/
def schedule (strategy : WebhookDeliveryStrategy) : (rounds made now : ℕ) → List Posted
  | 0, _, _ => []
  | rounds + 1, made, now =>
    let posted : Posted := ⟨outcomes made, now⟩
    if delivered strategy posted then [posted]
    else posted :: schedule strategy rounds (made + 1) (now + 5000 * (made + 1))

end

theorem records_cons (x : Σ c, Except Thrown (Reply c)) (h : Transcript Thrown Reply) :
    records (x :: h) = records h ++ ((recordOf? x).map Recorded.attempt).toList := by
  cases hx : recordOf? x <;> simp [records, hx]

/-! ## A delivery -/

section

variable (scan : Scan Document) (outcomes : ℕ → Outcome) (keyPrefix source : String)
variable (webhook : Document) (payload : WebhookPayload) (strategy : WebhookDeliveryStrategy)

/-- The next post. -/
def nextPost (w : ClockedWorld) : Posted := ⟨outcomes w.server.posted, w.server.now⟩

theorem run_tryDeliverWebhookAttempt_onTime (n : ℕ) (w : ClockedWorld) :
    ∃ w', ((tryDeliverWebhookAttempt keyPrefix source webhook payload strategy n).alone
        (onTime scan outcomes)).run w = (.ok (delivered strategy (nextPost outcomes w)), w') ∧
      w'.server.now = w.server.now ∧ w'.server.posted = w.server.posted + 1 ∧
      posts w'.heard = posts w.heard ++ [(source, nextPost outcomes w)] ∧
      records w'.heard = records w.heard ++
        [attemptRecord webhook payload strategy n (nextPost outcomes w)] := by
  refine ⟨_, rfl, rfl, rfl, ?_, ?_⟩
  · simp only [Solo.send, posts_cons]
    exact List.append_nil _
  · simp only [Solo.send, records_cons]
    exact congrArg (· ++ _) (List.append_nil _)

/-- The wait before an attempt that will be made lasts as long as it should, and nothing is posted
or recorded in it. -/
theorem run_waitBeforeRetry_onTime (n : ℕ) (maxRetries : ℚ) (w : ClockedWorld) :
    ∃ w', ((waitBeforeRetry n maxRetries).alone (onTime scan outcomes)).run w = (.ok (), w') ∧
      (n ≤ maxRetries → w'.server.now = w.server.now + 5000 * (n - 1)) ∧
      w'.server.posted = w.server.posted ∧ posts w'.heard = posts w.heard ∧
      records w'.heard = records w.heard := by
  unfold waitBeforeRetry
  split
  case isTrue h => exact ⟨w, rfl, fun hle => absurd h (not_lt.mpr hle), rfl, rfl, rfl⟩
  case isFalse h =>
    refine ⟨_, rfl, fun _ => rfl, rfl, ?_, ?_⟩
    · simp only [Solo.send, posts_cons]
      exact List.append_nil _
    · simp only [Solo.send, records_cons]
      exact List.append_nil _

/-- The loop posts what is scheduled, and records every `POST`. -/
theorem run_attemptLoop_onTime {maxRetries : ℚ} {rounds made : ℕ}
    (hrounds : ∀ n : ℕ, made < n → (n ≤ maxRetries ↔ n ≤ made + rounds)) {w : ClockedWorld}
    (hmade : w.server.posted = made) :
    ∃ w', ((attemptLoop keyPrefix source webhook payload strategy maxRetries rounds
        (made + 1)).alone (onTime scan outcomes)).run w = (.ok (), w') ∧
      posts w'.heard = posts w.heard ++
        (schedule outcomes strategy rounds made w.server.now).map (source, ·) ∧
      records w'.heard = records w.heard ++
        (schedule outcomes strategy rounds made w.server.now).mapIdx fun i posted =>
          attemptRecord webhook payload strategy (made + 1 + i) posted := by
  subst hmade
  induction rounds generalizing w with
  | zero => exact ⟨w, rfl, by simp [schedule], by simp [schedule]⟩
  | succ rounds ih =>
    have hfirst : ((w.server.posted + 1 : ℕ) : ℚ) ≤ maxRetries :=
      (hrounds _ (by omega)).mpr (by omega)
    obtain ⟨w₁, hrun₁, hnow₁, hposted₁, hposts₁, hrecords₁⟩ :=
      run_tryDeliverWebhookAttempt_onTime scan outcomes keyPrefix source webhook payload strategy
        (w.server.posted + 1) w
    rw [attemptLoop, if_pos hfirst, Coroutine.alone_bind, Async.run_bind_of_ok hrun₁, schedule]
    by_cases hdelivered : delivered strategy (nextPost outcomes w) = true
    · have hdelivered' : delivered strategy ⟨outcomes w.server.posted, w.server.now⟩ = true :=
        hdelivered
      rw [if_pos hdelivered, if_pos hdelivered']
      exact ⟨w₁, rfl, hposts₁, hrecords₁⟩
    · have hdelivered' : ¬ delivered strategy ⟨outcomes w.server.posted, w.server.now⟩ = true :=
        hdelivered
      have hstrategy : strategy ≠ .bestEffort := fun h => hdelivered (delivered_iff.mpr (.inr h))
      rw [if_neg hdelivered, if_neg hdelivered', if_neg hstrategy]
      obtain ⟨w₂, hrun₂, hnow₂, hposted₂, hposts₂, hrecords₂⟩ :=
        run_waitBeforeRetry_onTime scan outcomes (w.server.posted + 1 + 1) maxRetries w₁
      have hmade : w₂.server.posted = w.server.posted + 1 := hposted₂.trans hposted₁
      have hlater : schedule outcomes strategy rounds (w.server.posted + 1) w₂.server.now =
          schedule outcomes strategy rounds (w.server.posted + 1)
            (w.server.now + 5000 * (w.server.posted + 1)) := by
        cases rounds with
        | zero => rfl
        | succ rounds =>
          rw [hnow₂ ((hrounds _ (by omega)).mpr (by omega)), hnow₁, Nat.add_sub_cancel]
      obtain ⟨w₃, hrun₃, hposts₃, hrecords₃⟩ := ih (w := w₂) fun n hn => by
        rw [hmade] at hn ⊢
        rw [hrounds n (by omega)]
        omega
      rw [hmade] at hrun₃ hposts₃ hrecords₃
      rw [hlater] at hposts₃ hrecords₃
      refine ⟨w₃, ?_, ?_, ?_⟩
      · rw [Coroutine.alone_bind, Async.run_bind_of_ok hrun₂, hrun₃]
      · rw [hposts₃, hposts₂, hposts₁, List.append_assoc]
        rfl
      · rw [hrecords₃, hrecords₂, hrecords₁, List.append_assoc, List.mapIdx_cons]
        simp only [Nat.add_assoc, Nat.add_comm 1]
        rfl

/-- **What a delivery does.** It posts what is scheduled, and records every `POST`. -/
theorem run_deliverWebhook_onTime (cache : Cache) (store : Store Document) (now : ℕ) :
    ∃ w', ((deliverWebhook keyPrefix source webhook payload).alone (onTime scan outcomes)).run
        ⟨⟨cache, ⟨store, now, 0⟩⟩, fun _ => (), []⟩ = (.ok (), w') ∧
      posts w'.heard =
        (schedule outcomes webhook.strategy ⌊webhook.retries⌋₊ 0 now).map (source, ·) ∧
      records w'.heard =
        (schedule outcomes webhook.strategy ⌊webhook.retries⌋₊ 0 now).mapIdx fun i posted =>
          attemptRecord webhook payload webhook.strategy (i + 1) posted := by
  have hrounds (n : ℕ) (hn : 0 < n) : n ≤ webhook.retries ↔ n ≤ 0 + ⌊webhook.retries⌋₊ := by
    rw [Nat.zero_add, Nat.le_floor_iff' (by omega)]
  obtain ⟨w', hrun, hposts, hrecords⟩ := run_attemptLoop_onTime scan outcomes keyPrefix source
    webhook payload webhook.strategy hrounds
    (w := ⟨⟨cache, ⟨store, now, 0⟩⟩, fun _ => (), []⟩) rfl
  refine ⟨w', hrun, hposts, ?_⟩
  rw [hrecords]
  simp only [Nat.add_comm 1, Nat.zero_add]
  rfl

end

/-! ## What the records announce -/

/-- What is announced after an attempt. -/
theorem nextRetryAt_attemptRecord (webhook : Document) (payload : WebhookPayload)
    (strategy : WebhookDeliveryStrategy) (n : ℕ) (outcome : Outcome) (now : ℕ) :
    (attemptRecord webhook payload strategy n ⟨outcome, now⟩).nextRetryAt =
      match outcome with
      | .ok _ => none
      | .error _ => if strategy ≠ .bestEffort then some (now + 5000 * n) else none := by
  cases outcome <;> rfl

theorem attemptNumber_attemptRecord (webhook : Document) (payload : WebhookPayload)
    (strategy : WebhookDeliveryStrategy) (n : ℕ) (posted : Posted) :
    (attemptRecord webhook payload strategy n posted).attemptNumber = n := by
  unfold attemptRecord
  split <;> rfl

section

variable (webhook : Document) (payload : WebhookPayload) {strategy : WebhookDeliveryStrategy}
variable (outcomes : ℕ → Outcome)

/-- The records of the posts `ps`, of which the first is the attempt `n`, announce the next one. -/
def Agrees (strategy : WebhookDeliveryStrategy) (n : ℕ) (ps : List Posted) : Prop :=
  ∀ i posted, ps[i]? = some posted →
    (attemptRecord webhook payload strategy (n + i) posted).nextRetryAt =
      ps[i + 1]?.map Posted.now

theorem agrees_cons {n : ℕ} {posted : Posted} {ps : List Posted} :
    Agrees webhook payload strategy n (posted :: ps) ↔
      (attemptRecord webhook payload strategy n posted).nextRetryAt = ps.head?.map Posted.now ∧
        Agrees webhook payload strategy (n + 1) ps := by
  constructor
  · intro h
    refine ⟨by simpa [List.head?_eq_getElem?] using h 0 posted rfl, fun i p hp => ?_⟩
    rw [Nat.add_assoc, Nat.add_comm 1]
    exact h (i + 1) p hp
  · rintro ⟨hfirst, hlater⟩ i p hp
    cases i with
    | zero =>
      obtain rfl := Option.some.inj hp
      simpa [List.head?_eq_getElem?] using hfirst
    | succ i =>
      rw [Nat.add_comm i, ← Nat.add_assoc, Nat.add_comm 1]
      exact hlater i p hp

/-- A round is left as long as there is one to come. -/
theorem head?_schedule (rounds made now : ℕ) :
    (schedule outcomes strategy rounds made now).head? =
      if 0 < rounds then some ⟨outcomes made, now⟩ else none := by
  cases rounds with
  | zero => rfl
  | succ rounds =>
    rw [schedule, if_pos (Nat.succ_pos rounds)]
    split <;> rfl

/-- With `rounds` attempts left and `made` made, an attempt that fails after nothing but failures
fails with an exception if another one may follow it, and with an answer if it is the last. -/
def ForetoldFrom (rounds made : ℕ) : Prop :=
  ∀ i < rounds, (∀ j < i, ¬ Succeeds (outcomes (made + j))) →
    Succeeds (outcomes (made + i)) ∨ ((∃ e, outcomes (made + i) = .error e) ↔ i + 1 < rounds)

theorem foretoldFrom_succ {rounds made : ℕ} :
    ForetoldFrom outcomes (rounds + 1) made ↔
      (Succeeds (outcomes made) ∨ ((∃ e, outcomes made = .error e) ↔ 0 < rounds)) ∧
        (¬ Succeeds (outcomes made) → ForetoldFrom outcomes rounds (made + 1)) := by
  constructor
  · intro h
    constructor
    · simpa using h 0 (Nat.succ_pos rounds) fun j hj => absurd hj (Nat.not_lt_zero j)
    · intro hfailed i hi hbefore
      have hnext := h (i + 1) (by omega) fun j hj => by
        cases j with
        | zero => exact hfailed
        | succ j =>
          rw [Nat.add_comm j, ← Nat.add_assoc]
          exact hbefore j (by omega)
      rw [Nat.add_comm i, ← Nat.add_assoc, Nat.add_comm 1, Nat.add_lt_add_iff_right] at hnext
      exact hnext
  · rintro ⟨hfirst, hlater⟩ i hi hbefore
    cases i with
    | zero => simpa using hfirst
    | succ i =>
      have hnext := hlater (hbefore 0 (Nat.succ_pos i)) i (by omega) fun j hj => by
        rw [Nat.add_assoc, Nat.add_comm 1]
        exact hbefore (j + 1) (by omega)
      rw [Nat.add_comm i 1, ← Nat.add_assoc, Nat.add_comm 1 i, Nat.add_lt_add_iff_right]
      exact hnext

/-- Of a schedule the records announce what follows if the failures are the ones that do. -/
theorem agrees_schedule_iff (hstrategy : strategy ≠ .bestEffort) (rounds made now : ℕ) :
    Agrees webhook payload strategy (made + 1) (schedule outcomes strategy rounds made now) ↔
      ForetoldFrom outcomes rounds made := by
  induction rounds generalizing made now with
  | zero =>
    refine iff_of_true (fun i posted h => ?_) fun i hi => absurd hi (Nat.not_lt_zero i)
    simp [schedule] at h
  | succ rounds ih =>
    have hdelivered : delivered strategy ⟨outcomes made, now⟩ = true ↔ Succeeds (outcomes made) :=
      delivered_iff.trans (or_iff_left hstrategy)
    rw [schedule, foretoldFrom_succ]
    by_cases hsuccess : Succeeds (outcomes made)
    · rw [if_pos (hdelivered.mpr hsuccess), agrees_cons, nextRetryAt_attemptRecord]
      refine iff_of_true ⟨?_, fun i posted h => by simp at h⟩
        ⟨.inl hsuccess, fun h => absurd hsuccess h⟩
      obtain ⟨response, hresponse, -⟩ := hsuccess
      rw [hresponse]
      rfl
    · rw [if_neg (fun h => hsuccess (hdelivered.mp h)), agrees_cons, ih, head?_schedule,
        nextRetryAt_attemptRecord, or_iff_right hsuccess, imp_iff_right hsuccess]
      refine and_congr_left fun _ => ?_
      cases houtcome : outcomes made with
      | ok response => simp
      | error e => simp [hstrategy]

theorem agrees_schedule_bestEffort (n rounds made now : ℕ) :
    Agrees webhook payload .bestEffort n (schedule outcomes .bestEffort rounds made now) := by
  cases rounds with
  | zero => exact fun i posted h => by simp [schedule] at h
  | succ rounds =>
    rw [schedule, if_pos (delivered_iff.mpr (.inr rfl)), agrees_cons, nextRetryAt_attemptRecord]
    refine ⟨?_, fun i posted h => by simp at h⟩
    cases outcomes made <;> rfl

end

/-! ## One delivery -/

section

variable (scan : Scan Document) (keyPrefix source : String) (outcomes : ℕ → Outcome)
variable (webhook : Document) (payload : WebhookPayload)
variable (cache : Cache) (store : Store Document) (now : ℕ)

/-- The steps of a delivery that begins at `now`. -/
def deliverySteps : Transcript Thrown Reply :=
  (((deliverWebhook keyPrefix source webhook payload).alone (onTime scan outcomes)).run
    ⟨⟨cache, ⟨store, now, 0⟩⟩, fun _ => (), []⟩).2.heard

/-- The records of a delivery are numbered from one, one for each `POST`, and a record says when the
next `POST` is made if there is one, and says nothing otherwise. -/
structure Announces : Prop where
  numbered : (records (deliverySteps scan keyPrefix source outcomes webhook payload cache store
      now)).map (·.attemptNumber) =
    List.range' 1 (posts (deliverySteps scan keyPrefix source outcomes webhook payload cache store
      now)).length
  announced : ∀ i record,
    (records (deliverySteps scan keyPrefix source outcomes webhook payload cache store
      now))[i]? = some record →
    record.nextRetryAt = (posts (deliverySteps scan keyPrefix source outcomes webhook payload cache
      store now))[i + 1]?.map fun p => p.2.now

/-- The strategy allows one attempt, or of the attempts up to the first `2xx` answer every one that
is not the last one allowed fails with an exception, and the last one does not. -/
def Foretold : Prop :=
  webhook.strategy = .bestEffort ∨
    ∀ i < ⌊webhook.retries⌋₊, (∀ j < i, ¬ Succeeds (outcomes j)) →
      Succeeds (outcomes i) ∨ ((∃ e, outcomes i = .error e) ↔ i + 1 < ⌊webhook.retries⌋₊)

/-- **When the records are right.** They are numbered as the attempts are, always; what they say of
the next attempt is right exactly if every failure before the last attempt allowed is an exception,
and that of the last attempt is none. -/
theorem announces_iff :
    Announces scan keyPrefix source outcomes webhook payload cache store now ↔
      Foretold outcomes webhook := by
  obtain ⟨w', hrun, hposts, hrecords⟩ := run_deliverWebhook_onTime scan outcomes keyPrefix source
    webhook payload cache store now
  have hsteps : deliverySteps scan keyPrefix source outcomes webhook payload cache store now =
      w'.heard := by rw [deliverySteps, hrun]
  have hforetold : Foretold outcomes webhook ↔
      Agrees webhook payload webhook.strategy 1
        (schedule outcomes webhook.strategy ⌊webhook.retries⌋₊ 0 now) := by
    by_cases hstrategy : webhook.strategy = .bestEffort
    · rw [hstrategy]
      exact iff_of_true (.inl hstrategy)
        (agrees_schedule_bestEffort webhook payload outcomes _ _ _ _)
    · rw [agrees_schedule_iff webhook payload outcomes hstrategy _ 0, Foretold,
        or_iff_right hstrategy]
      simp only [ForetoldFrom, Nat.zero_add]
  have hnext (i : ℕ) : ((posts w'.heard)[i + 1]?.map fun p => p.2.now) =
      (schedule outcomes webhook.strategy ⌊webhook.retries⌋₊ 0 now)[i + 1]?.map Posted.now := by
    rw [hposts, List.getElem?_map, Option.map_map]
    rfl
  rw [hforetold]
  constructor
  · intro h i posted hi
    have hannounced := h.announced i _ (by rw [hsteps, hrecords, List.getElem?_mapIdx, hi]; rfl)
    rw [hsteps, hnext] at hannounced
    rw [Nat.add_comm 1 i]
    exact hannounced
  · intro h
    refine ⟨?_, fun i record hrecord => ?_⟩
    · rw [hsteps, hrecords, hposts, List.length_map]
      refine List.ext_getElem (by simp) fun i _ _ => ?_
      simp [attemptNumber_attemptRecord, Nat.add_comm]
    · rw [hsteps, hrecords, List.getElem?_mapIdx] at hrecord
      obtain ⟨posted, hi, rfl⟩ := Option.map_eq_some_iff.mp hrecord
      have hannounced := h i posted hi
      rw [Nat.add_comm 1 i] at hannounced
      rw [hsteps, hnext]
      exact hannounced

end

/-- A server that is not there for the first attempt. -/
def unavailableOnce : ℕ → Outcome
  | 0 => .ok { statusCode := 503, body := "" }
  | _ + 1 => .ok { statusCode := 200, body := "" }

/-- The record of the first attempt says nothing of the second, which is made five seconds later. -/
theorem not_announces_unavailableOnce :
    ¬ Announces Scan.stored "webhooks" "webhooks:webhook:0:a" unavailableOnce (webhookFor none)
      completed (fun _ => none) Store.empty 0 := by
  intro h
  have hretries : ⌊(webhookFor none).retries⌋₊ = 3 := by
    norm_num [webhookFor, Document.retries]
  rcases (announces_iff ..).mp h with hstrategy | hforetold
  · cases hstrategy
  · rw [hretries] at hforetold
    rcases hforetold 0 (by omega) fun j hj => absurd hj (Nat.not_lt_zero j) with
      ⟨response, hresponse, hsuccess⟩ | hexception
    · cases hresponse
      exact absurd hsuccess (by decide)
    · obtain ⟨e, he⟩ := hexception.mpr (by omega)
      cases he

end KitiumJobQueue.Webhook
