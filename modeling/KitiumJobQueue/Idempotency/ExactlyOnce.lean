import KitiumJobQueue.Idempotency.Manager
import KitiumJobQueue.Foundations.Systems
import Mathlib.Logic.Function.Basic

/-!
# Exactly once

Any number of workers handle jobs with one idempotency key, each as documented: ask for the recorded
result; without one, perform the operation and record its result; otherwise use the recorded result.
Their steps interleave in any order, a read may be rejected, an operation may fail, and records
expire.

While a record lives the operation should not be performed again (`Safe`). Nothing makes the
question and the record one step, so two workers may both be told that there is no record, and a
rejected read is told the same. `exactlyOnce_of_run` says that these are the only ways to go wrong.
-/

namespace KitiumJobQueue.Idempotency

open Effects Redis

/-- Where a worker is in its sequence. -/
inductive Phase
  /-- It has not asked yet. -/
  | waiting
  /-- It was told that there is no record. -/
  | missed
  /-- It has performed the operation. -/
  | performed (result : Option Json)
  /-- It has recorded its result until `expiresAt`. -/
  | recorded (result : Option Json) (expiresAt : ℕ)
  /-- It has used a recorded result. -/
  | cached (result : Option Json) (now : ℕ)
  /-- Its operation has failed. -/
  | failed

/-- The worker has been told that there is no record and has not recorded a result yet. -/
def Phase.Busy : Phase → Prop
  | .missed | .performed _ => True
  | .waiting | .recorded _ _ | .cached _ _ | .failed => False

instance : DecidablePred Phase.Busy := fun phase => by
  unfold Phase.Busy
  cases phase <;> infer_instance

/-- Redis, the clock, the workers by their number, and who performed the operation when, the last
one first. -/
structure World where
  redis : Database
  clock : ℕ := 0
  phase : ℕ → Phase := fun _ => .waiting
  performs : List (ℕ × ℕ) := []

/-- What a worker does next. -/
inductive Action
  /-- It asks; `rejected` tells whether the read fails. -/
  | getExecutionResult (rejected : Bool)
  /-- Its operation resolves with a result. -/
  | perform (result : Option Json)
  /-- Its operation rejects. -/
  | fail
  /-- It records its result for the job it handles, having read its clock at `calledAt`. -/
  | recordExecution (calledAt : ℕ) (jobId jobName : String) (ttlMs : ℚ)

/-- A step of a worker at a time. -/
structure Event where
  worker : ℕ
  now : ℕ
  action : Action

/-- What becomes of a read. -/
def readAnswer : Bool → Answer Unit
  | true => .rejected () false
  | false => .answered

variable (keyPrefix idempotencyKey : String)

/-- A worker goes on to another phase. -/
def World.move (w : World) (e : Event) (phase : Phase) : World :=
  { w with clock := e.now, phase := Function.update w.phase e.worker phase }

/-- The step of a worker, from the phase it is in. -/
def World.act (w : World) (e : Event) : Option World :=
  match w.phase e.worker, e.action with
  | .waiting, .getExecutionResult rejected =>
    let r := (getExecutionResult keyPrefix (fun _ => readAnswer rejected) e.now idempotencyKey).run
      ⟨w.redis, 0⟩
    match r.1 with
    | .ok (some record) => some (w.move e (.cached record.result e.now))
    | .ok none | .error _ => some (w.move e .missed)
  | .missed, .perform result =>
    some { w.move e (.performed result) with performs := (e.worker, e.now) :: w.performs }
  | .missed, .fail => some (w.move e .failed)
  | .performed result, .recordExecution calledAt jobId jobName ttlMs =>
    let r := (recordExecution (ε := Unit) keyPrefix (fun _ => .answered) calledAt e.now
      idempotencyKey jobId jobName result ttlMs).run ⟨w.redis, 0⟩
    some { w.move e (.recorded result (e.now + 1000 * ttlSeconds ttlMs)) with redis := r.2.server }
  | _, _ => none

/-- Workers on one key under any interleaving, the clock never going back. -/
def system : System World Event where
  step w e := if w.clock ≤ e.now then w.act keyPrefix idempotencyKey e else none

/-- No worker has asked, and there is no record under the key. -/
def World.init (s : Database) : World := { redis := s.del (buildKey keyPrefix idempotencyKey) }

/-! ## Safety -/

/-- The worker's record had expired by the time `now`. -/
def World.Expired (w : World) (i now : ℕ) : Prop :=
  ∃ result expiresAt, w.phase i = .recorded result expiresAt ∧ expiresAt ≤ now

instance (w : World) (i now : ℕ) : Decidable (w.Expired i now) :=
  match h : w.phase i with
  | .recorded result t => decidable_of_iff (t ≤ now) (by simp [World.Expired, h])
  | .waiting | .missed | .performed _ | .cached _ _ | .failed =>
    .isFalse (by simp [World.Expired, h])

/-- The operation is performed again only after the record of the earlier one has expired, and a
worker that does not perform it uses what a performer recorded, while that lives. -/
structure Safe (w : World) : Prop where
  once : w.performs.Pairwise fun later earlier => w.Expired earlier.1 later.2
  cached : ∀ i result now, w.phase i = .cached result now →
    ∃ j expiresAt, w.phase j = .recorded result expiresAt ∧ now < expiresAt

/-- A worker asks only while no other worker is between the answer `null` and its record, and its
read is not rejected while a record lives. -/
def ReadsAlone (w : World) (e : Event) : Prop :=
  ∀ rejected, e.action = .getExecutionResult rejected →
    (∀ i ≠ e.worker, ¬ (w.phase i).Busy) ∧
      (rejected = true → w.redis.get e.now (buildKey keyPrefix idempotencyKey) = none)

/-! ## The invariant -/

variable {keyPrefix idempotencyKey}

@[simp] theorem World.phase_move_self (w : World) (e : Event) (phase : Phase) :
    (w.move e phase).phase e.worker = phase :=
  Function.update_self _ _ _

theorem World.phase_move_of_ne (w : World) (e : Event) (phase : Phase) {i : ℕ} (h : i ≠ e.worker) :
    (w.move e phase).phase i = w.phase i :=
  Function.update_of_ne h _ _

/-- **What a worker's step can be**: one of five moves, each from its own phase. -/
theorem step_cases {w w' : World} {e : Event}
    (h : (system keyPrefix idempotencyKey).step w e = some w') :
    w.clock ≤ e.now ∧
      ((∃ rejected, e.action = .getExecutionResult rejected ∧ w.phase e.worker = .waiting ∧
          ((∃ record, w.redis.get e.now (buildKey keyPrefix idempotencyKey) = some record ∧
              w' = w.move e (.cached record.result e.now)) ∨
            ((w.redis.get e.now (buildKey keyPrefix idempotencyKey) = none ∨ rejected = true) ∧
              w' = w.move e .missed))) ∨
        (w.phase e.worker = .missed ∧ w' = w.move e .failed) ∨
        (∃ result, w.phase e.worker = .missed ∧
          w' = { w.move e (.performed result) with performs := (e.worker, e.now) :: w.performs }) ∨
        ∃ result record expiresAt, w.phase e.worker = .performed result ∧ record.result = result ∧
          w' = { w.move e (.recorded result expiresAt) with
            redis :=
              w.redis.set (buildKey keyPrefix idempotencyKey) record (some expiresAt) }) := by
  simp only [system, Option.ite_none_right_eq_some] at h
  obtain ⟨hclock, hact⟩ := h
  refine ⟨hclock, ?_⟩
  unfold World.act at hact
  split at hact
  case h_1 rejected hphase haction =>
    refine .inl ⟨rejected, haction, hphase, ?_⟩
    cases rejected with
    | true =>
      rw [getExecutionResult_of_rejected rfl] at hact
      exact .inr ⟨.inr rfl, (Option.some.inj hact).symm⟩
    | false =>
      rw [getExecutionResult_of_answered rfl] at hact
      cases hget : w.redis.get e.now (buildKey keyPrefix idempotencyKey) with
      | none =>
        simp only [hget] at hact
        exact .inr ⟨.inl rfl, (Option.some.inj hact).symm⟩
      | some record =>
        simp only [hget] at hact
        exact .inl ⟨record, rfl, (Option.some.inj hact).symm⟩
  case h_2 result hphase haction =>
    exact .inr (.inr (.inl ⟨result, hphase, (Option.some.inj hact).symm⟩))
  case h_3 hphase haction =>
    exact .inr (.inl ⟨hphase, (Option.some.inj hact).symm⟩)
  case h_4 result calledAt jobId jobName ttlMs hphase haction =>
    refine .inr (.inr (.inr ⟨result, executionRecord calledAt idempotencyKey jobId jobName result
      ttlMs, e.now + 1000 * ttlSeconds ttlMs, hphase, rfl, ?_⟩))
    rw [recordExecution_of_answered rfl] at hact
    exact (Option.some.inj hact).symm
  case h_5 => cases hact

/-- What holds in every run whose steps meet `ReadsAlone`. -/
structure Inv (keyPrefix idempotencyKey : String) (w : World) : Prop where
  safe : Safe w
  alone : ∀ i j, (w.phase i).Busy → (w.phase j).Busy → i = j
  /-- when a worker is about to perform or has performed, the others' records have expired -/
  others : ∀ i, (w.phase i).Busy → ∀ q ∈ w.performs,
    w.Expired q.1 w.clock ∨ (q.1 = i ∧ w.phase i ≠ .missed)
  /-- whoever performed is about to record or has a record, expired or stored -/
  live : ∀ q ∈ w.performs, (w.phase q.1).Busy ∨
    ∃ result expiresAt, w.phase q.1 = .recorded result expiresAt ∧ (expiresAt ≤ w.clock ∨
      ∃ record, w.redis.lookup (buildKey keyPrefix idempotencyKey) =
        some ⟨record, some expiresAt⟩)
  stored : ∀ e, w.redis.lookup (buildKey keyPrefix idempotencyKey) = some e →
    ∃ i expiresAt, w.phase i = .recorded e.value.result expiresAt ∧ e.expiresAt = some expiresAt

theorem inv_init (s : Database) :
    Inv keyPrefix idempotencyKey (World.init keyPrefix idempotencyKey s) where
  safe := ⟨.nil, fun _ _ _ h => nomatch h⟩
  alone _ _ h := h.elim
  others _ h := h.elim
  live _ h := absurd h List.not_mem_nil
  stored e h := by
    rw [World.init, Store.lookup_del, if_pos rfl] at h
    cases h

/-- What has been recorded stays when a worker without a record moves. -/
theorem World.recorded_move {w : World} {e : Event} (hk : ∀ result t, w.phase e.worker ≠
    .recorded result t) (phase : Phase) {i : ℕ} {result : Option Json} {t : ℕ}
    (hi : w.phase i = .recorded result t) : (w.move e phase).phase i = .recorded result t := by
  rw [w.phase_move_of_ne e phase, hi]
  rintro rfl
  exact hk result t hi

theorem World.Expired.move {w : World} {e : Event} {i now now' : ℕ} (h : w.Expired i now)
    (hle : now ≤ now') (hk : ∀ result t, w.phase e.worker ≠ .recorded result t) (phase : Phase) :
    (w.move e phase).Expired i now' := by
  obtain ⟨result, t, hi, ht⟩ := h
  exact ⟨result, t, World.recorded_move hk phase hi, ht.trans hle⟩

/-- A result taken from Redis is one that has been recorded, also after a move. -/
theorem Inv.cached_move {w : World} {e : Event} (h : Inv keyPrefix idempotencyKey w)
    (hrec : ∀ result t, w.phase e.worker ≠ .recorded result t) {phase : Phase}
    (hcached : ∀ result now, phase = .cached result now →
      ∃ j t, w.phase j = .recorded result t ∧ now < t) (i : ℕ) (result : Option Json) (now : ℕ)
    (hi : (w.move e phase).phase i = .cached result now) :
    ∃ j t, (w.move e phase).phase j = .recorded result t ∧ now < t := by
  obtain ⟨j, t, hj, ht⟩ : ∃ j t, w.phase j = .recorded result t ∧ now < t := by
    by_cases hie : i = e.worker
    · subst hie
      rw [w.phase_move_self] at hi
      exact hcached result now hi
    · rw [w.phase_move_of_ne e phase hie] at hi
      exact h.safe.cached i result now hi
  exact ⟨j, t, World.recorded_move hrec phase hj, ht⟩

theorem Inv.alone_move {w : World} {e : Event} (h : Inv keyPrefix idempotencyKey w) {phase : Phase}
    (hbusy : phase.Busy → ∀ i ≠ e.worker, ¬ (w.phase i).Busy) (i j : ℕ)
    (hi : ((w.move e phase).phase i).Busy) (hj : ((w.move e phase).phase j).Busy) : i = j := by
  by_cases hie : i = e.worker
  · by_cases hje : j = e.worker
    · rw [hie, hje]
    · rw [hie, w.phase_move_self] at hi
      rw [w.phase_move_of_ne e phase hje] at hj
      exact absurd hj (hbusy hi j hje)
  · rw [w.phase_move_of_ne e phase hie] at hi
    by_cases hje : j = e.worker
    · rw [hje, w.phase_move_self] at hj
      exact absurd hi (hbusy hj i hie)
    · rw [w.phase_move_of_ne e phase hje] at hj
      exact h.alone i j hi hj

theorem Inv.others_move {w : World} {e : Event} (h : Inv keyPrefix idempotencyKey w)
    (hclock : w.clock ≤ e.now) {phase : Phase}
    (hrec : ∀ result t, w.phase e.worker ≠ .recorded result t)
    (hbusy : phase.Busy → ∀ q ∈ w.performs, w.Expired q.1 e.now) (i : ℕ)
    (hi : ((w.move e phase).phase i).Busy) (q : ℕ × ℕ) (hq : q ∈ w.performs) :
    (w.move e phase).Expired q.1 e.now ∨ (q.1 = i ∧ (w.move e phase).phase i ≠ .missed) := by
  by_cases hie : i = e.worker
  · rw [hie, w.phase_move_self] at hi
    exact .inl ((hbusy hi q hq).move (le_refl _) hrec phase)
  · rw [w.phase_move_of_ne e phase hie] at hi ⊢
    rcases h.others i hi q hq with hexp | hself
    · exact .inl (hexp.move hclock hrec phase)
    · exact .inr hself

/-- A worker that moves has not performed. -/
theorem Inv.not_performed {w : World} {e : Event} (h : Inv keyPrefix idempotencyKey w)
    (hk : w.phase e.worker = .waiting ∨ w.phase e.worker = .missed) {q : ℕ × ℕ}
    (hq : q ∈ w.performs) (hb : (w.phase q.1).Busy) : q.1 ≠ e.worker := by
  intro hqe
  rcases hk with hk | hk
  · rw [hqe, hk] at hb
    exact hb
  · rcases h.others q.1 hb q hq with ⟨_, _, hr, -⟩ | ⟨-, hne⟩
    · rw [hqe, hk] at hr
      cases hr
    · exact hne (hqe ▸ hk)

/-- A move that touches neither Redis nor the performers: into a phase in which a recorded result is
used, or alone into a busy one, or out of it without having performed. -/
theorem Inv.move {w : World} {e : Event} (h : Inv keyPrefix idempotencyKey w)
    (hclock : w.clock ≤ e.now) {phase : Phase}
    (hk : w.phase e.worker = .waiting ∨ w.phase e.worker = .missed)
    (hcached : ∀ result now, phase = .cached result now →
      ∃ j t, w.phase j = .recorded result t ∧ now < t)
    (hbusy : phase.Busy → (∀ i ≠ e.worker, ¬ (w.phase i).Busy) ∧
      ∀ q ∈ w.performs, w.Expired q.1 e.now) :
    Inv keyPrefix idempotencyKey (w.move e phase) := by
  have hrec : ∀ result t, w.phase e.worker ≠ .recorded result t := by
    intro result t
    rcases hk with hk | hk <;> simp [hk]
  refine ⟨⟨?_, h.cached_move hrec hcached⟩, h.alone_move fun hb => (hbusy hb).1,
    h.others_move hclock hrec fun hb => (hbusy hb).2, ?_, ?_⟩
  · exact h.safe.once.imp fun hq => hq.move (le_refl _) hrec phase
  · intro q hq
    rcases h.live q hq with hb | ⟨result, t, ht, hlive⟩
    · exact .inl (by rwa [w.phase_move_of_ne e phase (h.not_performed hk hq hb)])
    · have hlive := hlive.imp_left fun hle => hle.trans hclock
      exact .inr ⟨result, t, World.recorded_move hrec phase ht, hlive⟩
  · intro entry hentry
    obtain ⟨i, t, hi, ht⟩ := h.stored entry hentry
    exact ⟨i, t, World.recorded_move hrec phase hi, ht⟩

/-- With nobody busy and no live record, all records have expired. -/
theorem Inv.expired {w : World} (h : Inv keyPrefix idempotencyKey w) {now : ℕ}
    (hclock : w.clock ≤ now) (hbusy : ∀ i, ¬ (w.phase i).Busy)
    (hget : w.redis.get now (buildKey keyPrefix idempotencyKey) = none) :
    ∀ q ∈ w.performs, w.Expired q.1 now := by
  intro q hq
  rcases h.live q hq with hb | ⟨result, t, ht, hle | ⟨record, hrecord⟩⟩
  · exact absurd hb (hbusy q.1)
  · exact ⟨result, t, ht, hle.trans hclock⟩
  · refine ⟨result, t, ht, ?_⟩
    rw [Store.get, hrecord] at hget
    simpa [Entry.IsLive] using hget

/-- A record that was read is the one of a performer, and lives. -/
theorem Inv.recorded_of_get {w : World} (h : Inv keyPrefix idempotencyKey w) {now : ℕ}
    {record : IdempotencyRecord}
    (hget : w.redis.get now (buildKey keyPrefix idempotencyKey) = some record) :
    ∃ j t, w.phase j = .recorded record.result t ∧ now < t := by
  unfold Store.get at hget
  obtain ⟨entry, hentry, rfl⟩ := Option.map_eq_some_iff.mp hget
  obtain ⟨hlookup, hlive⟩ := Option.filter_eq_some_iff.mp hentry
  obtain ⟨j, t, hj, ht⟩ := h.stored entry hlookup
  exact ⟨j, t, hj, of_decide_eq_true hlive t ht⟩

/-- When the worker about to move is busy, the records of the performers before it have expired. -/
theorem Inv.expired_of_busy {w : World} {e : Event} (h : Inv keyPrefix idempotencyKey w)
    (hk : (w.phase e.worker).Busy) {q : ℕ × ℕ} (hq : q ∈ w.performs)
    (hne : q.1 = e.worker → w.phase e.worker = .missed) : w.Expired q.1 w.clock :=
  (h.others e.worker hk q hq).resolve_right fun hself => hself.2 (hne hself.1)

/-- The operation is performed. -/
theorem Inv.perform {w : World} {e : Event} (h : Inv keyPrefix idempotencyKey w)
    (hclock : w.clock ≤ e.now) (hk : w.phase e.worker = .missed) (result : Option Json) :
    Inv keyPrefix idempotencyKey
      { w.move e (.performed result) with performs := (e.worker, e.now) :: w.performs } := by
  have hbusy : (w.phase e.worker).Busy := by
    rw [hk]
    trivial
  have hrec : ∀ result t, w.phase e.worker ≠ .recorded result t := by simp [hk]
  have hexpired : ∀ q ∈ w.performs, (w.move e (.performed result)).Expired q.1 e.now :=
    fun q hq => (h.expired_of_busy hbusy hq fun _ => hk).move hclock hrec _
  -- the same workers are busy as before
  have hsame : ∀ i, ((w.move e (.performed result)).phase i).Busy → i = e.worker := by
    intro i hi
    by_contra hne
    rw [w.phase_move_of_ne e _ hne] at hi
    exact hne (h.alone i e.worker hi hbusy)
  refine ⟨⟨?_, h.cached_move hrec nofun⟩, ?_, ?_, ?_, ?_⟩
  · exact List.pairwise_cons.mpr
      ⟨hexpired, h.safe.once.imp fun hq => hq.move (le_refl _) hrec _⟩
  · intro i j hi hj
    rw [hsame i hi, hsame j hj]
  · intro i hi q hq
    obtain rfl := hsame i hi
    rcases List.mem_cons.mp hq with rfl | hq
    · exact .inr ⟨rfl, by simp⟩
    · exact .inl (hexpired q hq)
  · intro q hq
    rcases List.mem_cons.mp hq with rfl | hq
    · exact .inl (by simp [Phase.Busy])
    · obtain ⟨r, t, hr, ht⟩ := hexpired q hq
      exact .inr ⟨r, t, hr, .inl ht⟩
  · intro entry hentry
    obtain ⟨i, t, hi, ht⟩ := h.stored entry hentry
    exact ⟨i, t, World.recorded_move hrec _ hi, ht⟩

/-- A result is recorded. -/
theorem Inv.record {w : World} {e : Event} (h : Inv keyPrefix idempotencyKey w)
    (hclock : w.clock ≤ e.now) {record : IdempotencyRecord} (expiresAt : ℕ)
    (hk : w.phase e.worker = .performed record.result) :
    Inv keyPrefix idempotencyKey
      { w.move e (.recorded record.result expiresAt) with
        redis := w.redis.set (buildKey keyPrefix idempotencyKey) record (some expiresAt) } := by
  have hbusy : (w.phase e.worker).Busy := by
    rw [hk]
    trivial
  have hrec : ∀ result t, w.phase e.worker ≠ .recorded result t := by simp [hk]
  -- nobody is busy any more
  have hidle : ∀ i, ¬ ((w.move e (.recorded record.result expiresAt)).phase i).Busy := by
    intro i hi
    by_cases hie : i = e.worker
    · subst hie
      rw [w.phase_move_self] at hi
      exact hi
    · rw [w.phase_move_of_ne e _ hie] at hi
      exact hie (h.alone i e.worker hi hbusy)
  refine ⟨⟨?_, h.cached_move hrec nofun⟩, ?_, ?_, ?_, ?_⟩
  · exact h.safe.once.imp fun hq => hq.move (le_refl _) hrec _
  · exact fun i j hi => absurd hi (hidle i)
  · exact fun i hi => absurd hi (hidle i)
  · intro q hq
    right
    by_cases hqe : q.1 = e.worker
    · refine ⟨record.result, expiresAt, by rw [hqe, w.phase_move_self], .inr ⟨record, ?_⟩⟩
      show (w.redis.set _ record _).lookup _ = _
      rw [Store.lookup_set, if_pos rfl]
    · obtain ⟨r, t, hr, ht⟩ := h.expired_of_busy hbusy hq fun hself => absurd hself hqe
      exact ⟨r, t, World.recorded_move hrec _ hr, .inl (ht.trans hclock)⟩
  · intro entry hentry
    have hentry : (w.redis.set _ record _).lookup _ = some entry := hentry
    rw [Store.lookup_set, if_pos rfl] at hentry
    obtain rfl := Option.some.inj hentry
    exact ⟨e.worker, expiresAt, w.phase_move_self e _, rfl⟩

theorem inv_step {w w' : World} {e : Event} (h : Inv keyPrefix idempotencyKey w)
    (halone : ReadsAlone keyPrefix idempotencyKey w e)
    (hw : (system keyPrefix idempotencyKey).step w e = some w') :
    Inv keyPrefix idempotencyKey w' := by
  obtain ⟨hclock, ⟨rejected, haction, hk, hread⟩ | ⟨hk, rfl⟩ | ⟨result, hk, rfl⟩ |
    ⟨_, record, expiresAt, hk, rfl, rfl⟩⟩ := step_cases hw
  · obtain ⟨hothers, hrejected⟩ := halone rejected haction
    rcases hread with ⟨record, hget, rfl⟩ | ⟨hget, rfl⟩
    · refine h.move hclock (.inl hk) ?_ fun hb => hb.elim
      intro result now heq
      cases heq
      exact h.recorded_of_get hget
    · refine h.move hclock (.inl hk) (fun _ _ heq => nomatch heq) fun _ => ⟨hothers, ?_⟩
      refine h.expired hclock (fun i => ?_) (hget.elim id hrejected)
      by_cases hi : i = e.worker
      · rw [hi, hk]
        exact id
      · exact hothers i hi
  · exact h.move hclock (.inr hk) (fun _ _ heq => nomatch heq) fun hb => hb.elim
  · exact h.perform hclock hk result
  · exact h.record hclock expiresAt hk

/-- **Exactly once, for workers that read alone.** In every interleaving in which a worker asks only
while no other is between the answer `null` and its record, and no read is rejected while a record
lives, the operation is performed at most once in the lifetime of a record, and whoever does not
perform it uses the result that was recorded. -/
theorem exactlyOnce_of_run {s : Database} {es : List Event} {w : World}
    (halone : (system keyPrefix idempotencyKey).StepsMeet (ReadsAlone keyPrefix idempotencyKey)
      (.init keyPrefix idempotencyKey s) es)
    (hw : (system keyPrefix idempotencyKey).runFrom (.init keyPrefix idempotencyKey s) es =
      some w) :
    Safe w :=
  Inv.safe <| System.invariant_of_stepsMeet (fun _ _ _ h hc hs => inv_step h hc hs) (inv_init s)
    halone hw

/-- One worker performs and records; another asks and uses the record. -/
def oneAfterTheOther : List Event :=
  [⟨0, 0, .getExecutionResult false⟩, ⟨0, 0, .perform (some (.str "paid"))⟩,
    ⟨0, 1, .recordExecution 1 "1" "pay" 1000⟩, ⟨1, 2, .getExecutionResult false⟩]

theorem safe_of_oneAfterTheOther :
    ∃ w, (system "idempotency" "k").runFrom (.init "idempotency" "k" .empty) oneAfterTheOther =
      some w ∧ Safe w := by
  obtain ⟨w, hw⟩ := Option.isSome_iff_exists.mp
    (show ((system "idempotency" "k").runFrom (.init "idempotency" "k" .empty)
      oneAfterTheOther).isSome from by decide +kernel)
  refine ⟨w, hw, exactlyOnce_of_run ?_ hw⟩
  refine ⟨?_, fun s₁ h₁ => ⟨?_, fun s₂ h₂ => ⟨?_, fun s₃ h₃ => ⟨?_, fun _ _ => trivial⟩⟩⟩⟩
  · exact fun _ h => ⟨fun _ _ => id, fun hr => by cases h; cases hr⟩
  · exact fun _ h => nomatch h
  · exact fun _ h => nomatch h
  · -- the first worker has recorded its result, and no other has moved
    obtain rfl := Option.some.inj h₁
    obtain rfl := Option.some.inj h₂
    obtain rfl := Option.some.inj h₃
    refine fun _ h => ⟨fun i _ => ?_, fun hr => by cases h; cases hr⟩
    cases i <;> exact id

/-- Two workers ask before either has recorded anything. -/
def bothAsk : List Event :=
  [⟨0, 0, .getExecutionResult false⟩, ⟨1, 0, .getExecutionResult false⟩,
    ⟨0, 0, .perform (some (.str "paid"))⟩, ⟨0, 1, .recordExecution 1 "1" "pay" 1000⟩,
    ⟨1, 2, .perform (some (.str "paid again"))⟩]

/-- **The operation is performed twice** while the record of the first time lives. -/
theorem not_safe_of_bothAsk :
    ∃ w, (system "idempotency" "k").runFrom (.init "idempotency" "k" .empty) bothAsk = some w ∧
      w.performs = [(1, 2), (0, 0)] ∧ ¬ Safe w := by
  obtain ⟨w, hw, hperforms⟩ := Option.map_eq_some_iff.mp
    (show ((system "idempotency" "k").runFrom (.init "idempotency" "k" .empty) bothAsk).map
      (fun w => (w.performs, decide (w.performs.Pairwise fun later earlier =>
        w.Expired earlier.1 later.2))) = some ([(1, 2), (0, 0)], false) from by decide +kernel)
  obtain ⟨hp, honce⟩ := Prod.mk.inj hperforms
  exact ⟨w, hw, hp, fun hsafe => of_decide_eq_false honce hsafe.once⟩

end KitiumJobQueue.Idempotency
