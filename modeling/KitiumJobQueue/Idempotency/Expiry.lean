import KitiumJobQueue.Idempotency.Cleaning

/-!
# How long a record is found

A record says when it expires, in milliseconds, and Redis drops it after so many whole seconds as
cover its lifetime. Nobody compares the two when it is read: it is found until Redis has dropped it
or a cleaner has deleted it, which is some time after it has expired unless its lifetime is a number
of whole seconds.

`right_iff` says of every run, with cleaners at any time, when the answer to `getExecutionResult` is
right: always but in that time, if no cleaner was about to delete an older record under the key when
this one was written.
-/

namespace KitiumJobQueue.Idempotency.Clients

open Effects Redis

variable {ε : Type} {scan : Scan IdempotencyRecord} {keyPrefix : String}

/-! ## Runs -/

/-- The clock does not go back. -/
def Timely (w : World ε) : PoolEvent Call (Choice ε) → Prop
  | .exec _ v => w.server.clock ≤ v.now
  | .spawn _ | .resume _ => True

/-- The key that a `DEL` names. -/
def deletedKey : Command → Option String
  | .del key => some key
  | .setex _ _ _ | .get _ | .keys _ | .now => none

/-- Nothing is written under the key, and only cleaners delete it. -/
def Leaves (key : String) (w : World ε) : PoolEvent Call (Choice ε) → Prop
  | .exec i v => ∀ t ∈ w.threads[i]?, ∀ c ∈ waitsFor t.stage,
      key ∉ writtenKey v c ∧
        (key ∈ deletedKey c → v.answer.TakesEffect → t.label.writesBefore.isSome = true)
  | .spawn _ | .resume _ => True

/-- No cleaner has read an expired record under the key and is still to delete it. -/
def Undisturbed (key : String) (w : World ε) : Prop :=
  ∀ t ∈ w.threads, ¬ ∃ record, Doomed t.heard key record

instance (w : World ε) : DecidablePred (Timely w)
  | .exec _ v => inferInstanceAs (Decidable (w.server.clock ≤ v.now))
  | .spawn _ | .resume _ => .isTrue trivial

instance (key : String) (w : World ε) : DecidablePred (Leaves key w)
  | .exec i v => inferInstanceAs (Decidable (∀ t ∈ w.threads[i]?, ∀ c ∈ waitsFor t.stage,
      key ∉ writtenKey v c ∧
        (key ∈ deletedKey c → v.answer.TakesEffect → t.label.writesBefore.isSome = true)))
  | .spawn _ | .resume _ => .isTrue trivial

instance (key : String) (w : World ε) : Decidable (Undisturbed key w) :=
  inferInstanceAs (Decidable (∀ t ∈ w.threads, ¬ ∃ record, Doomed t.heard key record))

/-- What a call of `getExecutionResult` that is answered at `t` resolves with. -/
def found (scan : Scan IdempotencyRecord) (keyPrefix idempotencyKey : String) (w : World ε)
    (t : ℕ) : Except ε (Option IdempotencyRecord) :=
  (((getExecutionResult keyPrefix idempotencyKey).alone (serve scan)).run
    ⟨w.toShared, fun _ => { now := t }, []⟩).1

theorem found_eq {idempotencyKey : String} (w : World ε) (t : ℕ) :
    found scan keyPrefix idempotencyKey w t =
      .ok (w.server.redis.get t (buildKey keyPrefix idempotencyKey)) := by
  rw [found, getExecutionResult, Coroutine.alone_tryCatch, Async.run_tryCatch, run_alone_ask]
  rfl

/-- A record written at `t₀` is found for `ttlMs`, and not later. -/
structure Right (scan : Scan IdempotencyRecord) (keyPrefix idempotencyKey : String)
    (record : IdempotencyRecord) (w : World ε) (t : ℕ) : Prop where
  before : (t : ℚ) < record.expiresAt →
    found scan keyPrefix idempotencyKey w t = .ok (some record)
  after : record.expiresAt < t → found scan keyPrefix idempotencyKey w t = .ok none

/-! ## What a record is written by -/

/-- The command of a call of `recordExecution`. -/
def MaySend (keyPrefix : String) : Call → Command → Prop
  | .recordExecution now idempotencyKey jobId jobName result ttlMs, c =>
    c = .setex (buildKey keyPrefix idempotencyKey) (ttlSeconds ttlMs)
      (executionRecord now idempotencyKey jobId jobName result ttlMs)
  | .getExecutionResult _, _ | .cleanExpired _, _ | .clear _, _ => True

theorem confined_method (l : Call) :
    (Call.method keyPrefix l : Method ε Result).Confined (fun _ => True)
      (MaySend keyPrefix l) := by
  cases l with
  | recordExecution now idempotencyKey jobId jobName result ttlMs =>
    exact .bind (.handle (.await rfl) fun _ => .throw _) fun _ => .pure _
  | getExecutionResult _ | cleanExpired _ | clear _ => exact .of_true (fun _ => trivial) _

/-- What a call of `recordExecution` waits for is its `SETEX`. -/
theorem eq_setex_of_run {redis : Database} {es : List (PoolEvent Call (Choice ε))} {w : World ε}
    (h : (system scan keyPrefix).runFrom (World.init redis) es = some w) {now : ℕ}
    {idempotencyKey jobId jobName : String} {result : Option Json} {ttlMs : ℚ}
    {t : Thread ε Unit Reply Call Result} (ht : t ∈ w.threads)
    (hlabel : t.label = .recordExecution now idempotencyKey jobId jobName result ttlMs)
    {c : Command} (hc : c ∈ waitsFor t.stage) :
    c = .setex (buildKey keyPrefix idempotencyKey) (ttlSeconds ttlMs)
      (executionRecord now idempotencyKey jobId jobName result ttlMs) := by
  have hsends := Pool.sends_of_run confined_method h t ht
  obtain ⟨l, heard, stage⟩ := t
  obtain rfl : l = _ := hlabel
  cases stage with
  | waiting c' k =>
    obtain rfl : c' = c := Option.some.inj hc
    exact hsends.1
  | ready c' r k => cases hc
  | settled r => cases hc

/-! ## While the record is there -/

/-- The clocks that cleaners have read. -/
def ReadingsPast (w : World ε) : Prop :=
  ∀ t ∈ w.threads, ∀ now ∈ clockReading t.heard, now ≤ w.server.clock

theorem clockReading_cons (v : Choice ε) (c : Command) (s : Server) (heard : Transcript ε Reply) :
    clockReading (⟨c, (serve scan v c s).1⟩ :: heard) = clockReading heard ∨
      clockReading (⟨c, (serve scan v c s).1⟩ :: heard) = some v.now := by
  cases c with
  | now => exact .inr rfl
  | setex _ _ _ | get _ | del _ | keys _ => exact .inl rfl

theorem clock_le_of_step {w w' : World ε} {e : PoolEvent Call (Choice ε)} (htimely : Timely w e)
    (hstep : (system scan keyPrefix).step w e = some w') : w.server.clock ≤ w'.server.clock := by
  rcases Pool.server_of_step hstep with hserver | ⟨i, v, l, heard, c, k, rfl, -, hserver⟩
  · rw [hserver]
  · rw [hserver, clock_serve]
    exact htimely

theorem readingsPast_step {w w' : World ε} {e : PoolEvent Call (Choice ε)} (h : ReadingsPast w)
    (htimely : Timely w e) (hstep : (system scan keyPrefix).step w e = some w') :
    ReadingsPast w' := by
  have hclock := clock_le_of_step htimely hstep
  intro t ht now hnow
  rcases Pool.mem_threads_of_step hstep ht with ht | ⟨l, -, -, rfl⟩ |
    ⟨i, v, l, heard, c, k, rfl, hi, hserver, rfl⟩ | ⟨i, l, heard, c, r, k, -, hi, -, rfl⟩
  · exact (h t ht now hnow).trans hclock
  · cases hnow
  · rcases @clockReading_cons ε scan v c w.server heard with hold | hnew
    · exact (h _ (List.mem_of_getElem? hi) now (hold ▸ hnow)).trans hclock
    · rw [hserver, clock_serve]
      exact (Option.some.inj (hnew.symm.trans hnow)).ge
  · exact (h _ (List.mem_of_getElem? hi) now hnow).trans hclock

/-- The record is there, or a cleaner has deleted it, whose clock said that it had expired. What
cleaners have read under the key is the record. -/
structure Kept (key : String) (record : IdempotencyRecord) (deadline : ℕ) (w : World ε) :
    Prop where
  lookup : w.server.redis.lookup key = some ⟨record, some deadline⟩ ∨
    w.server.redis.lookup key = none ∧ record.expiresAt < w.server.clock
  read : ∀ t ∈ w.threads, ∀ record', Doomed t.heard key record' → record' = record

/-- Every method minds what it should, and goes on so. -/
abbrev Followed (scan : Scan IdempotencyRecord) (w : World ε) : Prop :=
  Agreement.Followed (serve scan)
    (fun l => (.noting (Minds l) : Rules ε Unit Server (Choice ε) Reply)) (fun _ _ _ _ => True)
    (fun _ => True) w

section Step

variable {key : String} {record : IdempotencyRecord} {deadline : ℕ} {w w' : World ε}
  {e : PoolEvent Call (Choice ε)}

/-- The cleaner that deletes the record has found it expired. -/
theorem expired_of_deleted (hkept : Kept key record deadline w) (hpast : ReadingsPast w)
    {now : ℕ} (hnow : w.server.clock ≤ now) {t : Thread ε Unit Reply Call Result}
    (ht : t ∈ w.threads) (hdoomed : ∃ record, Doomed t.heard key record) :
    record.expiresAt < now := by
  obtain ⟨record', hdoomed⟩ := hdoomed
  obtain rfl := hkept.read t ht record' hdoomed
  obtain ⟨rest, hheard, reading, hreading, hexpired⟩ := hdoomed
  have hle : reading ≤ now := (hpast t ht reading (hheard ▸ hreading)).trans hnow
  exact hexpired.trans_le (Nat.cast_le.mpr hle)

/-- A cleaner that deletes a key has found an expired record under it. -/
theorem doomed_of_del (hfollowed : Followed scan w) {i : ℕ} {l : Call}
    {heard : Transcript ε Reply} {k : Except ε Unit → Method ε Result}
    (hi : w.threads[i]? = some ⟨l, heard, .waiting (.del key) k⟩)
    (hcleans : l.writesBefore.isSome = true) (v : Choice ε) :
    ∃ record, Doomed heard key record := by
  obtain ⟨writes, hwrites⟩ := Option.isSome_iff_exists.mp hcleans
  have hminds := (hfollowed.2 i _ hi w.toShared trivial v trivial).1
  exact (deletesDoomed_of_minds hminds hwrites).1

/-- The record stays, or the cleaner that deletes it has found it expired. -/
theorem lookup_of_step (hkept : Kept key record deadline w) (hpast : ReadingsPast w)
    (hfollowed : Followed scan w) (htimely : Timely w e) (hleaves : Leaves key w e)
    (hstep : (system scan keyPrefix).step w e = some w') :
    w'.server.redis.lookup key = some ⟨record, some deadline⟩ ∨
      w'.server.redis.lookup key = none ∧ record.expiresAt < w'.server.clock := by
  rcases Pool.server_of_step hstep with hserver | ⟨i, v, l, heard, c, k, rfl, hi, hserver⟩
  · rw [hserver]
    exact hkept.lookup
  · obtain ⟨hnot, hdeletes⟩ := hleaves _ hi c rfl
    rw [hserver, clock_serve]
    obtain ⟨hsame | ⟨rfl, heffect, hnone⟩, -⟩ := @lookup_serve ε scan v key c w.server hnot
    · rw [hsame]
      refine hkept.lookup.imp_right fun hgone => ⟨hgone.1, ?_⟩
      exact hgone.2.trans_le (Nat.cast_le.mpr htimely)
    · have hdoomed := doomed_of_del hfollowed hi (hdeletes rfl heffect) v
      exact .inr ⟨hnone,
        expired_of_deleted hkept hpast htimely (List.mem_of_getElem? hi) hdoomed⟩

theorem kept_step (hkept : Kept key record deadline w) (hpast : ReadingsPast w)
    (hfollowed : Followed scan w) (htimely : Timely w e) (hleaves : Leaves key w e)
    (hstep : (system scan keyPrefix).step w e = some w') : Kept key record deadline w' := by
  refine ⟨lookup_of_step hkept hpast hfollowed htimely hleaves hstep, ?_⟩
  intro t ht record' hdoomed
  rcases Pool.mem_threads_of_step hstep ht with ht | ⟨l, -, -, rfl⟩ |
    ⟨i, v, l, heard, c, k, -, hi, -, rfl⟩ | ⟨i, l, heard, c, r, k, -, hi, -, rfl⟩
  · exact hkept.read t ht record' hdoomed
  · obtain ⟨rest, heq, -⟩ := hdoomed
    cases heq
  · -- what was just read is what is there
    obtain ⟨-, hget, -⟩ := doomed_serve hdoomed
    obtain ⟨entry, hentry, -, hvalue⟩ := Store.get_eq_some.mp hget
    rcases hkept.lookup with hthere | ⟨hgone, -⟩
    · obtain rfl := Option.some.inj (hentry.symm.trans hthere)
      exact hvalue.symm
    · exact absurd (hentry.symm.trans hgone) (Option.some_ne_none entry)
  · exact hkept.read _ (List.mem_of_getElem? hi) record' hdoomed

end Step

/-! ## When the answer is right -/

/-- A record that has expired and that Redis has not dropped yet is still there. -/
def Overdue (key : String) (record : IdempotencyRecord) (deadline : ℕ) (w : World ε) (t : ℕ) :
    Prop :=
  record.expiresAt < t ∧ t < deadline ∧ (w.server.redis.lookup key).isSome = true

/-- What is there is found until Redis drops it. -/
theorem get_of_kept {key : String} {record : IdempotencyRecord} {deadline : ℕ} {w : World ε}
    (h : w.server.redis.lookup key = some ⟨record, some deadline⟩) (t : ℕ) :
    w.server.redis.get t key = if t < deadline then some record else none := by
  have hlive : (⟨record, some deadline⟩ : Entry IdempotencyRecord).IsLive t ↔ t < deadline := by
    simp [Entry.IsLive]
  rw [Store.get, h, Option.filter_some]
  by_cases ht : t < deadline
  · rw [if_pos ht, if_pos (decide_eq_true (hlive.mpr ht))]
    rfl
  · rw [if_neg ht, if_neg (by simpa using mt hlive.mp ht)]
    rfl

/-- An answer is right but where the record is overdue. -/
theorem right_iff_of_kept {idempotencyKey : String} {record : IdempotencyRecord} {deadline : ℕ}
    {w : World ε} {t : ℕ} (hkept : Kept (buildKey keyPrefix idempotencyKey) record deadline w)
    (hle : record.expiresAt ≤ deadline) (ht : w.server.clock ≤ t) :
    Right scan keyPrefix idempotencyKey record w t ↔
      ¬ Overdue (buildKey keyPrefix idempotencyKey) record deadline w t := by
  rcases hkept.lookup with hthere | ⟨hgone, hexpired⟩
  · have hget := get_of_kept hthere t
    constructor
    · rintro hright ⟨hexpired, hlt, -⟩
      have hnone := hright.after hexpired
      rw [found_eq, hget, if_pos hlt] at hnone
      cases hnone
    · intro hnot
      refine ⟨fun hbefore => ?_, fun hafter => ?_⟩
      · have hlt : t < deadline := Nat.cast_lt.mp (hbefore.trans_le hle)
        rw [found_eq, hget, if_pos hlt]
      · have hlt : ¬ t < deadline := fun hlt =>
          hnot ⟨hafter, hlt, Option.isSome_iff_exists.mpr ⟨_, hthere⟩⟩
        rw [found_eq, hget, if_neg hlt]
  · have hlate : record.expiresAt < t := hexpired.trans_le (Nat.cast_le.mpr ht)
    have hget : w.server.redis.get t (buildKey keyPrefix idempotencyKey) = none := by
      rw [Store.get, hgone]
      rfl
    refine iff_of_true ⟨fun hbefore => absurd hbefore hlate.asymm, fun _ => ?_⟩ fun hover => ?_
    · rw [found_eq, hget]
    · obtain ⟨-, -, hsome⟩ := hover
      rw [hgone] at hsome
      cases hsome

section Right

variable {redis : Database} {es₀ es : List (PoolEvent Call (Choice ε))} {w₁ w₂ w : World ε}
  {i : ℕ} {thread : Thread ε Unit Reply Call Result} {t₀ t : ℕ}
  {idempotencyKey jobId jobName : String} {result : Option Json} {ttlMs : ℚ}

/-- Redis keeps a record for its lifetime at least. -/
theorem expiresAt_le_deadline :
    (executionRecord t₀ idempotencyKey jobId jobName result ttlMs).expiresAt ≤
      ((t₀ + 1000 * ttlSeconds ttlMs : ℕ) : ℚ) := by
  have hceil : ttlMs / 1000 ≤ (ttlSeconds ttlMs : ℚ) := Nat.le_ceil _
  change (t₀ : ℚ) + ttlMs ≤ _
  push_cast
  linarith

/-- A record that was just written is there. -/
theorem kept_written (hrun : (system scan keyPrefix).runFrom (World.init redis) es₀ = some w₁)
    (hthread : w₁.threads[i]? = some thread)
    (hlabel : thread.label = .recordExecution t₀ idempotencyKey jobId jobName result ttlMs)
    (hstep : (system scan keyPrefix).step w₁ (.exec i { now := t₀ }) = some w₂)
    (hundisturbed : Undisturbed (buildKey keyPrefix idempotencyKey) w₁) :
    Kept (buildKey keyPrefix idempotencyKey)
      (executionRecord t₀ idempotencyKey jobId jobName result ttlMs)
      (t₀ + 1000 * ttlSeconds ttlMs) w₂ := by
  obtain ⟨l, heard, c, k, hi, rfl⟩ := Pool.exec_eq_some hstep
  obtain rfl := Option.some.inj (hthread.symm.trans hi)
  have hsetex := eq_setex_of_run hrun (List.mem_of_getElem? hi) hlabel rfl
  subst hsetex
  constructor
  · exact .inl ((Store.lookup_set _ _ _ _ _).trans (if_pos rfl))
  · intro t ht record' hdoomed
    rcases List.mem_or_eq_of_mem_set ht with ht | rfl
    · exact absurd ⟨record', hdoomed⟩ (hundisturbed t ht)
    · exact absurd (doomed_serve hdoomed).1 nofun

/-- **When the answer is right.** In every run with cleaners at any time, in which a record was
written at `t₀` while no cleaner was about to delete an older one, the answer to a later call of
`getExecutionResult` is right exactly if the record is not overdue. -/
theorem right_iff
    (htimely : (system scan keyPrefix).StepsMeet Timely (World.init redis)
      (es₀ ++ .exec i { now := t₀ } :: es))
    (hrun₁ : (system scan keyPrefix).runFrom (World.init redis) es₀ = some w₁)
    (hthread : w₁.threads[i]? = some thread)
    (hlabel : thread.label = .recordExecution t₀ idempotencyKey jobId jobName result ttlMs)
    (hstep : (system scan keyPrefix).step w₁ (.exec i { now := t₀ }) = some w₂)
    (hundisturbed : Undisturbed (buildKey keyPrefix idempotencyKey) w₁)
    (hrun : (system scan keyPrefix).runFrom w₂ es = some w)
    (hleaves : (system scan keyPrefix).StepsMeet (Leaves (buildKey keyPrefix idempotencyKey))
      w₂ es) (ht : w.server.clock ≤ t) :
    Right scan keyPrefix idempotencyKey
        (executionRecord t₀ idempotencyKey jobId jobName result ttlMs) w t ↔
      ¬ Overdue (buildKey keyPrefix idempotencyKey)
        (executionRecord t₀ idempotencyKey jobId jobName result ttlMs)
        (t₀ + 1000 * ttlSeconds ttlMs) w t := by
  obtain ⟨htimely₀, htimely₁⟩ := System.stepsMeet_append.mp htimely
  obtain ⟨htimelyExec, htimely₂⟩ := htimely₁ w₁ hrun₁
  have hpast₁ : ReadingsPast w₁ := System.invariant_of_stepsMeet
    (fun _ _ _ hI hC hs => readingsPast_step hI hC hs)
    (fun t ht => absurd ht List.not_mem_nil) htimely₀ hrun₁
  have hfollowed₁ : Followed scan w₁ := agreement.invariant (Agreement.followed_nil trivial)
    (System.stepsMeet_of_forall (fun _ _ => trivial) _ _) hrun₁
  let I (w : World ε) : Prop := Followed scan w ∧ ReadingsPast w ∧
    Kept (buildKey keyPrefix idempotencyKey)
      (executionRecord t₀ idempotencyKey jobId jobName result ttlMs)
      (t₀ + 1000 * ttlSeconds ttlMs) w
  have hI₂ : I w₂ := ⟨agreement.followed_step hfollowed₁ trivial hstep,
    readingsPast_step hpast₁ htimelyExec hstep,
    kept_written hrun₁ hthread hlabel hstep hundisturbed⟩
  have hI : I w := by
    refine System.invariant_of_stepsMeet (fun w e w' hI hC hs => ?_) hI₂
      ((htimely₂ w₂ hstep).and hleaves) hrun
    obtain ⟨hfollowed, hpast, hkept⟩ := hI
    exact ⟨agreement.followed_step hfollowed trivial hs, readingsPast_step hpast hC.1 hs,
      kept_step hkept hpast hfollowed hC.1 hC.2 hs⟩
  exact right_iff_of_kept hI.2.2 expiresAt_le_deadline ht

/-- A lifetime leaves a time at which a record may be overdue unless it is a number of whole
seconds, or less than a millisecond short of one. -/
theorem exists_overdue_time_iff (httl : 0 ≤ ttlMs) :
    (∃ t : ℕ, (executionRecord t₀ idempotencyKey jobId jobName result ttlMs).expiresAt < t ∧
        t < t₀ + 1000 * ttlSeconds ttlMs) ↔
      ⌊ttlMs⌋₊ + 1 < 1000 * ttlSeconds ttlMs := by
  change (∃ t : ℕ, (t₀ : ℚ) + ttlMs < t ∧ _) ↔ _
  constructor
  · rintro ⟨t, hafter, hlt⟩
    have hfloor : ⌊ttlMs⌋₊ + t₀ < t := by
      have hle : (⌊ttlMs⌋₊ : ℚ) ≤ ttlMs := Nat.floor_le httl
      have hcast : ((⌊ttlMs⌋₊ + t₀ : ℕ) : ℚ) < t := by
        push_cast
        linarith
      exact Nat.cast_lt.mp hcast
    omega
  · intro h
    refine ⟨t₀ + (⌊ttlMs⌋₊ + 1), ?_, by omega⟩
    have hlt : ttlMs < ⌊ttlMs⌋₊ + 1 := Nat.lt_floor_add_one ttlMs
    push_cast
    linarith

end Right

/-! ## A second and a half -/

/-- A record that expires at 1500 is to be written. -/
def recording : List (PoolEvent Call (Choice Empty)) :=
  [.spawn (.recordExecution 0 "a" "1" "charge" none 1500)]

/-- A cleaner at 1600. -/
def cleanedUp : List (PoolEvent Call (Choice Empty)) :=
  [.spawn (.cleanExpired 1), .exec 1 { now := 1600 }, .resume 1, .exec 1 { now := 1600 },
    .resume 1, .exec 1 { now := 1600 }, .resume 1, .exec 1 { now := 1600 }]

/-- Once the cleaner has deleted the record, it is not found any more. -/
theorem right_cleanedUp :
    ∃ w₁ ∈ (system .stored "idempotency").runFrom (World.init .empty) recording,
      ∃ w₂ ∈ (system .stored "idempotency").step w₁ (.exec 0 { now := 0 }),
        ∃ w ∈ (system .stored "idempotency").runFrom w₂ cleanedUp,
          Right .stored "idempotency" "a" (executionRecord 0 "a" "1" "charge" none 1500) w
            1700 := by
  obtain ⟨w₁, hrun₁, w₂, hstep, w, hrun, hundisturbed, hleaves, hclock, hgone⟩ :
      ∃ w₁ ∈ (system .stored "idempotency").runFrom (World.init .empty) recording,
        ∃ w₂ ∈ (system .stored "idempotency").step w₁ (.exec 0 { now := 0 }),
          ∃ w ∈ (system .stored "idempotency").runFrom w₂ cleanedUp,
            Undisturbed (buildKey "idempotency" "a") w₁ ∧
              (system .stored "idempotency").StepsMeet (Leaves (buildKey "idempotency" "a"))
                w₂ cleanedUp ∧
              w.server.clock ≤ 1700 ∧
              w.server.redis.lookup (buildKey "idempotency" "a") = none := by decide +kernel
  obtain ⟨thread, hthread, hlabel⟩ : ∃ thread, w₁.threads[0]? = some thread ∧
      thread.label = .recordExecution 0 "a" "1" "charge" none 1500 := by
    obtain rfl := Option.some.inj hrun₁
    exact ⟨_, rfl, rfl⟩
  have htimely : (system .stored "idempotency").StepsMeet Timely (World.init .empty)
      (recording ++ .exec 0 { now := 0 } :: cleanedUp) := by decide +kernel
  refine ⟨w₁, hrun₁, w₂, hstep, w, hrun,
    (right_iff htimely hrun₁ hthread hlabel hstep hundisturbed hrun hleaves hclock).mpr ?_⟩
  rintro ⟨-, -, hsome⟩
  rw [hgone] at hsome
  cases hsome

/-- **A record that has expired is found**, a fifth of a second late. -/
theorem not_right_uncleaned :
    ∃ w₁ ∈ (system .stored "idempotency").runFrom (World.init .empty) recording,
      ∃ w₂ ∈ (system .stored "idempotency").step w₁ (.exec 0 { now := 0 }),
        (w₂.server.redis.get 1700 (buildKey "idempotency" "a")).isSome ∧
          ¬ Right .stored "idempotency" "a" (executionRecord 0 "a" "1" "charge" none 1500) w₂
            1700 := by
  obtain ⟨w₁, hrun₁, w₂, hstep, hsome⟩ :
      ∃ w₁ ∈ (system .stored "idempotency").runFrom (World.init .empty) recording,
        ∃ w₂ ∈ (system .stored "idempotency").step w₁ (.exec 0 { now := 0 }),
          (w₂.server.redis.get 1700 (buildKey "idempotency" "a")).isSome := by decide +kernel
  refine ⟨w₁, hrun₁, w₂, hstep, hsome, fun hright => ?_⟩
  have hlate : (executionRecord 0 "a" "1" "charge" none 1500).expiresAt < (1700 : ℕ) := by
    norm_num [executionRecord]
  have hnone := hright.after hlate
  rw [found_eq] at hnone
  rw [Except.ok.inj hnone] at hsome
  cases hsome

end KitiumJobQueue.Idempotency.Clients
