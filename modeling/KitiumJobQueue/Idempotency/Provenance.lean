import KitiumJobQueue.Foundations.SharedInvariants
import KitiumJobQueue.Idempotency.Clients

/-!
# Where a result comes from

Whatever clients do at the same time, and whatever commands are rejected, a result that
`getExecutionResult` returns for a key was recorded for that very key by some call of
`recordExecution`. The reason is that the keys of different results differ, and that a record is
written whole.
-/

namespace KitiumJobQueue.Idempotency.Clients

open Effects Redis

variable {ε : Type} {scan : Scan IdempotencyRecord} {keyPrefix : String} {Called : Call → Prop}

theorem buildKey_inj {idempotencyKey idempotencyKey' : String} :
    buildKey keyPrefix idempotencyKey = buildKey keyPrefix idempotencyKey' ↔
      idempotencyKey = idempotencyKey' := by
  refine ⟨fun h => ?_, fun h => h ▸ rfl⟩
  simpa [buildKey, String.ext_iff] using h

/-- The record is that of a call made for the key. -/
def IsRecorded (Called : Call → Prop) (idempotencyKey : String) (record : IdempotencyRecord) :
    Prop :=
  ∃ now jobId jobName result ttlMs,
    Called (.recordExecution now idempotencyKey jobId jobName result ttlMs) ∧
      record = executionRecord now idempotencyKey jobId jobName result ttlMs

/-- Every record that is stored is that of a call made for its key. -/
def Recorded (keyPrefix : String) (Called : Call → Prop) (redis : Database) : Prop :=
  ∀ idempotencyKey e, redis.lookup (buildKey keyPrefix idempotencyKey) = some e →
    IsRecorded Called idempotencyKey e.value

theorem Recorded.set {redis : Database} (h : Recorded keyPrefix Called redis)
    {idempotencyKey : String} {record : IdempotencyRecord}
    (hrecord : IsRecorded Called idempotencyKey record) (expiresAt : Option ℕ) :
    Recorded keyPrefix Called (redis.set (buildKey keyPrefix idempotencyKey) record expiresAt) := by
  intro key e he
  rw [Store.lookup_set] at he
  split at he
  · next hkey =>
    obtain rfl := buildKey_inj.mp hkey
    obtain rfl := Option.some.inj he
    exact hrecord
  · exact h key e he

theorem Recorded.del {redis : Database} (h : Recorded keyPrefix Called redis) (key : String) :
    Recorded keyPrefix Called (redis.del key) := by
  intro k e he
  rw [Store.lookup_del] at he
  split at he
  · cases he
  · exact h k e he

/-- The same of the state that clients share. -/
abbrev SharedRecorded (keyPrefix : String) (Called : Call → Prop) (s : Shared Unit Server) : Prop :=
  Recorded keyPrefix Called s.server.redis

/-! ## What the methods ensure -/

/-- While others do likewise, the method leaves only recorded results, and what it resolves with
meets `Q`. -/
abbrev Safely (ε : Type) (scan : Scan IdempotencyRecord) (keyPrefix : String)
    (Called : Call → Prop) {α : Type} (Q : α → Prop) (m : Method ε α) : Prop :=
  Ensures (serve scan) (SharedRecorded keyPrefix Called) (fun _ _ => True) Q m

theorem safely_setex {idempotencyKey : String} {record : IdempotencyRecord}
    (hrecord : IsRecorded Called idempotencyKey record) (seconds : ℕ) :
    Safely ε scan keyPrefix Called (fun _ => True)
      (ask (.setex (buildKey keyPrefix idempotencyKey) seconds record)) := by
  refine .await fun v m s hs => ⟨⟨?_, .inr trivial⟩, fun _ _ => trivial⟩
  rcases snd_run_perform v.answer
    (fun s : Server =>
      ((), s.write (buildKey keyPrefix idempotencyKey) record (v.now + 1000 * seconds)))
    { s with clock := v.now } with hsame | hwritten
  · exact hsame.symm ▸ hs
  · exact hwritten.symm ▸ Recorded.set hs hrecord _

theorem safely_del (key : String) :
    Safely ε scan keyPrefix Called (fun _ => True) (ask (.del key)) := by
  refine .await fun v m s hs => ⟨⟨?_, .inr trivial⟩, fun _ _ => trivial⟩
  rcases snd_run_perform v.answer (fun s : Server => ((), s.delete key)) { s with clock := v.now }
    with hsame | hdeleted
  · exact hsame.symm ▸ hs
  · exact hdeleted.symm ▸ Recorded.del hs key

/-- What is read of a key was recorded for it. -/
theorem safely_get (key : String) :
    Safely ε scan keyPrefix Called
      (fun r => ∀ idempotencyKey record, key = buildKey keyPrefix idempotencyKey →
        r = some record → IsRecorded Called idempotencyKey record)
      (ask (.get key)) := by
  refine .await fun v m s hs => ⟨⟨?_, .inr trivial⟩, ?_⟩
  · rcases snd_run_perform v.answer (fun s : Server => (s.redis.get v.now key, s))
      { s with clock := v.now } with hsame | hsame <;> exact hsame.symm ▸ hs
  · rintro r hr idempotencyKey record rfl hrecord
    obtain rfl := fst_run_perform hr
    obtain ⟨e, he, -, rfl⟩ := Store.get_eq_some.mp hrecord
    exact hs idempotencyKey e he

theorem safely_keys (pattern : String) :
    Safely ε scan keyPrefix Called (fun _ => True) (ask (.keys pattern)) := by
  refine .await fun v m s hs => ⟨⟨?_, .inr trivial⟩, fun _ _ => trivial⟩
  rcases snd_run_perform v.answer (fun s : Server => (s.redis.keys scan v.now pattern, s))
    { s with clock := v.now } with hsame | hsame <;> exact hsame.symm ▸ hs

theorem safely_now : Safely ε scan keyPrefix Called (fun _ => True) (ask .now) :=
  .await fun _ _ _ hs => ⟨⟨hs, .inr trivial⟩, fun _ _ => trivial⟩

theorem safely_cleanKeyIfExpired (key : String) (now : ℕ) :
    Safely ε scan keyPrefix Called (fun _ => True) (cleanKeyIfExpired key now) := by
  refine .handle (.bind (safely_get key) fun data _ => ?_) fun _ => .pure trivial
  cases data with
  | none => exact .pure trivial
  | some record =>
    show Ensures _ _ _ _ (if (now : ℚ) ≤ record.expiresAt then _ else _)
    split
    · exact .pure trivial
    · exact .bind (safely_del key) fun _ _ => .pure trivial

/-- The loop, by induction on the keys that are left. -/
theorem safely_cleanKeys (now : ℕ) (keys : List String) (cleaned : ℕ) :
    Safely ε scan keyPrefix Called (fun _ => True) (cleanKeys now keys cleaned) := by
  induction keys generalizing cleaned with
  | nil => exact .pure trivial
  | cons key keys ih => exact .bind (safely_cleanKeyIfExpired key now) fun _ _ => ih _

theorem safely_cleanExpired :
    Safely ε scan keyPrefix Called (fun _ => True) (cleanExpired keyPrefix) := by
  refine .handle (.bind (safely_keys _) fun keys _ => ?_) fun _ => .pure trivial
  show Ensures _ _ _ _ (if keys = [] then _ else _)
  split
  · exact .pure trivial
  · exact .bind safely_now fun now _ => safely_cleanKeys now keys 0

/-- What a call resolves with: a result is one that was recorded for its key. -/
def Answered (Called : Call → Prop) : Call → Result → Prop
  | .getExecutionResult idempotencyKey, result =>
    ∃ found, result = .record found ∧
      ∀ record, found = some record → IsRecorded Called idempotencyKey record
  | .recordExecution _ _ _ _ _ _, _ | .cleanExpired _, _ | .clear _, _ => True

theorem safely_method {call : Call} (hcalled : Called call) :
    Safely ε scan keyPrefix Called (Answered Called call) (call.method keyPrefix) := by
  cases call with
  | recordExecution now idempotencyKey jobId jobName result ttlMs =>
    refine .bind (P := fun _ => True) ?_ fun _ _ => .pure trivial
    exact .handle (safely_setex ⟨now, jobId, jobName, result, ttlMs, hcalled, rfl⟩ _)
      fun _ => .throw _
  | getExecutionResult idempotencyKey =>
    refine .bind (P := fun found => ∀ record, found = some record →
      IsRecorded Called idempotencyKey record) ?_ fun found hfound => .pure ⟨found, rfl, hfound⟩
    refine .handle ?_ fun _ => .pure nofun
    exact (safely_get _).mono fun found hfound record => hfound idempotencyKey record rfl
  | cleanExpired writes => exact .bind safely_cleanExpired fun _ _ => .pure trivial
  | clear idempotencyKey =>
    exact .bind (P := fun _ => True) (.handle (safely_del _) fun _ => .throw _)
      fun _ _ => .pure trivial

/-! ## Runs -/

/-- **A result comes from a recording for its key.** Whatever the clients do and whatever commands
are rejected: if nothing is stored at first, a record that a call of `getExecutionResult` has
returned is that of a call of `recordExecution` made for the same key. -/
theorem recorded_of_run {redis : Database}
    (hredis : ∀ idempotencyKey, redis.lookup (buildKey keyPrefix idempotencyKey) = none)
    {es : List (PoolEvent Call (Choice ε))} {p : World ε}
    (h : (system scan keyPrefix).runFrom (.init redis) es = some p) :
    ∀ t ∈ p.threads, ∀ idempotencyKey record,
      t.label = .getExecutionResult idempotencyKey →
      t.stage = .settled (.ok (.record (some record))) →
        IsRecorded (fun call => .spawn call ∈ es) idempotencyKey record := by
  intro t ht idempotencyKey record hlabel hstage
  have hinit : Recorded keyPrefix (fun call => .spawn call ∈ es) redis := fun key e he => by
    rw [hredis key] at he
    cases he
  have hanswered := (ensures_of_run (P := fun call => .spawn call ∈ es)
    (fun _ hcalled => safely_method hcalled) hinit (fun _ hcalled => hcalled) h).2 t ht _ hstage
  rw [hlabel] at hanswered
  obtain ⟨found, hfound, hrecorded⟩ := hanswered
  cases hfound
  exact hrecorded record rfl

/-- A result is recorded, one client fails to read it and another one reads it while the first
cleans up. -/
def sharedRun : List (PoolEvent Call (Choice String)) :=
  [.spawn (.recordExecution 1000 "order-42" "7" "charge" (some (.bool true)) 60000), .exec 0 {},
    .spawn (.getExecutionResult "order-42"), .exec 1 { answer := .rejected "ECONNRESET" false },
    .spawn (.cleanExpired 1), .exec 2 { now := 2000 }, .spawn (.getExecutionResult "order-42"),
    .exec 3 { now := 3000 }, .resume 2, .resume 3, .resume 1, .resume 0]

/-- What it reads is what was recorded. -/
theorem recorded_of_sharedRun :
    ∃ p, (system Scan.stored "idempotency").runFrom (.init .empty) sharedRun = some p ∧
      ∀ t ∈ p.threads, ∀ idempotencyKey record,
        t.label = .getExecutionResult idempotencyKey →
        t.stage = .settled (.ok (.record (some record))) →
          IsRecorded (fun call => .spawn call ∈ sharedRun) idempotencyKey record :=
  ⟨_, rfl, recorded_of_run (fun _ => rfl) rfl⟩

end KitiumJobQueue.Idempotency.Clients
