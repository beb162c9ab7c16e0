import KitiumJobQueue.Idempotency.Clients

/-!
# What a cleaner deletes

`cleanExpired` deletes a key after it has read an expired record under it. The two commands are not
one: a record that is written between them is deleted unread. `deletesRightly_of_step` says that
nothing else goes wrong, in the runs in which no record is written there and a cleaner reads no
record that was written after its call and has expired by its clock.

A cleaner's transcript tells what it is about to delete (`Doomed`). The proof has two parts: a
cleaner sends `DEL` only where its transcript says so, whatever the others do, and what its
transcript says stays true until the deletion.
-/

namespace KitiumJobQueue.Idempotency.Clients

open Effects Redis

variable {ε : Type} {scan : Scan IdempotencyRecord} {keyPrefix : String}

/-! ## Transcripts -/

/-- What the clock of a cleaner said. -/
def clockReading (heard : Transcript ε Reply) : Option ℕ :=
  heard.findSome? fun
    | ⟨.now, .ok now⟩ => some now
    | _ => none

/-- The newest answer is a record under the key that has expired by the clock of the cleaner. -/
def Doomed (heard : Transcript ε Reply) (key : String) (record : IdempotencyRecord) : Prop :=
  ∃ rest, heard = ⟨.get key, .ok (some record)⟩ :: rest ∧
    ∃ now ∈ clockReading rest, record.expiresAt < now

instance (heard : Transcript ε Reply) (key : String) :
    Decidable (∃ record, Doomed heard key record) :=
  match heard with
  | ⟨.get key', .ok (some record)⟩ :: rest =>
    decidable_of_iff (key' = key ∧ ∃ now ∈ clockReading rest, record.expiresAt < now) (by
      constructor
      · rintro ⟨rfl, hnow⟩
        exact ⟨record, rest, rfl, hnow⟩
      · rintro ⟨record', rest', heq, hnow⟩
        cases heq
        exact ⟨rfl, hnow⟩)
  | [] | ⟨.get _, .ok none⟩ :: _ | ⟨.get _, .error _⟩ :: _ | ⟨.setex _ _ _, _⟩ :: _
  | ⟨.del _, _⟩ :: _ | ⟨.keys _, _⟩ :: _ | ⟨.now, _⟩ :: _ =>
    .isFalse fun ⟨_, _, heq, _⟩ => nomatch heq

/-- Every deletion follows the answer that tells of an expired record under the key. -/
def DeletesDoomed : Transcript ε Reply → Prop
  | [] => True
  | ⟨.del key, _⟩ :: heard => (∃ record, Doomed heard key record) ∧ DeletesDoomed heard
  | ⟨.setex _ _ _, _⟩ :: heard | ⟨.get _, _⟩ :: heard
  | ⟨.keys _, _⟩ :: heard | ⟨.now, _⟩ :: heard => DeletesDoomed heard

/-- A cleaner that has read its clock. -/
def CleansAt (now : ℕ) (heard : Transcript ε Reply) : Prop :=
  DeletesDoomed heard ∧ clockReading heard = some now

/-- What a method minds: a cleaner deletes what it has found expired. -/
def Minds : Call → Transcript ε Reply → Prop
  | .cleanExpired _ => DeletesDoomed
  | .recordExecution _ _ _ _ _ _ | .getExecutionResult _ | .clear _ => fun _ => True

theorem meets_cleanKeyIfExpired (key : String) {now : ℕ} {heard : Transcript ε Reply}
    {w₀ w : Shared Unit Server} (h : CleansAt now heard) :
    Meets (serve scan) (.noting DeletesDoomed)
      (fun heard _ _ r => ∃ a, r = .ok a ∧ CleansAt now heard) (cleanKeyIfExpired key now) heard
      w₀ w := by
  unfold cleanKeyIfExpired
  rw [meets_tryCatch, meets_bind]
  refine meets_await.mpr ⟨h.1, fun w₁ _ v _ => ⟨h.1, fun w₂ _ _ => ?_⟩⟩
  cases (serve scan v (.get key) w₁.server).1 with
  | error e => exact ⟨false, rfl, h⟩
  | ok data =>
    cases data with
    | none => exact ⟨false, rfl, h⟩
    | some record =>
      dsimp only
      split
      · exact ⟨false, rfl, h⟩
      · next hexpired =>
        rw [meets_bind]
        refine meets_await.mpr ⟨h.1, fun w₃ _ v' _ => ?_⟩
        have hdoomed : DeletesDoomed (⟨.del key, (serve scan v' (.del key) w₃.server).1⟩ ::
            ⟨.get key, .ok (some record)⟩ :: heard) :=
          ⟨⟨record, heard, rfl, now, h.2, not_le.mp hexpired⟩, h.1⟩
        refine ⟨hdoomed, fun w₄ _ _ => ?_⟩
        cases hanswer : (serve scan v' (.del key) w₃.server).1 with
        | error e =>
          rw [hanswer] at hdoomed
          exact ⟨false, rfl, hdoomed, h.2⟩
        | ok u =>
          rw [hanswer] at hdoomed
          exact ⟨true, rfl, hdoomed, h.2⟩

/-- By induction on the keys that are left. -/
theorem meets_cleanKeys {now : ℕ} (keys : List String) (cleaned : ℕ) {heard : Transcript ε Reply}
    {w₀ w : Shared Unit Server} (h : CleansAt now heard) :
    Meets (serve scan) (.noting DeletesDoomed) (fun heard _ _ _ => DeletesDoomed heard)
      (cleanKeys now keys cleaned) heard w₀ w := by
  induction keys generalizing cleaned heard w₀ w with
  | nil => exact h.1
  | cons key keys ih =>
    rw [cleanKeys, meets_bind]
    refine (meets_cleanKeyIfExpired key h).mono fun heard w₀ w r hr => ?_
    obtain ⟨isCleaned, rfl, hcleans⟩ := hr
    exact ih _ hcleans

/-- **A cleaner deletes only what it has found expired.** -/
theorem meets_cleanExpired (w : Shared Unit Server) :
    Meets (serve scan) (.noting DeletesDoomed) (fun heard _ _ _ => DeletesDoomed heard)
      (cleanExpired keyPrefix) ([] : Transcript ε Reply) w w := by
  unfold cleanExpired
  rw [meets_tryCatch, meets_bind]
  refine meets_await.mpr ⟨trivial, fun w₁ _ v _ => ⟨trivial, fun w₂ _ _ => ?_⟩⟩
  cases (serve scan v (.keys (keyPrefix ++ ":*")) w₁.server).1 with
  | error e => exact trivial
  | ok keys =>
    dsimp only
    split
    · exact trivial
    · rw [meets_bind]
      refine meets_await.mpr ⟨trivial, fun w₃ _ v' _ => ⟨trivial, fun w₄ _ _ => ?_⟩⟩
      have hcleans : CleansAt v'.now ([⟨.now, .ok v'.now⟩,
          ⟨.keys (keyPrefix ++ ":*"), .ok keys⟩] : Transcript ε Reply) := ⟨trivial, rfl⟩
      refine (meets_cleanKeys keys 0 hcleans).mono fun heard w₀ w r hr => ?_
      cases r with
      | ok cleaned => exact hr
      | error e => exact hr

/-- The methods mind what they should, whatever they do to each other. -/
theorem agreement : Agreement (serve scan) (Call.method keyPrefix)
    (fun l => (.noting (Minds l) : Rules ε Unit Server (Choice ε) Reply)) (fun _ _ _ _ => True)
    (fun _ _ => True) (fun _ => True) where
  spawn := by
    rintro p l - -
    cases l with
    | cleanExpired writes =>
      refine meets_bind.mpr ((meets_cleanExpired p.toShared).mono fun heard w₀ w r hr => ?_)
      cases r with
      | ok cleaned => exact ⟨hr, fun _ _ => trivial⟩
      | error e => exact ⟨hr, fun _ _ => trivial⟩
    | recordExecution now idempotencyKey jobId jobName result ttlMs
      | getExecutionResult idempotencyKey | clear idempotencyKey =>
      exact meets_noting_true (fun _ _ _ _ => ⟨trivial, fun _ _ => trivial⟩) _ _ _ _
  executes _ _ _ := trivial
  resumes _ _ _ := trivial
  relied _ _ _ _ _ _ _ _ _ := trivial
  keeps _ _ := trivial

/-! ## What a command does to Redis -/

section Commands

variable {v : Choice ε} {key : String}

/-- **What a command does**: time passes, and that is all but for a record that is written and a key
that is deleted. -/
theorem serve_cases (v : Choice ε) (c : Command) (s : Server) :
    (serve scan v c s).2 = { s with clock := v.now } ∨
      (∃ key seconds record, c = .setex key seconds record ∧ v.answer.TakesEffect ∧
        (serve scan v c s).2 =
          Server.write { s with clock := v.now } key record (v.now + 1000 * seconds)) ∨
      ∃ key, c = .del key ∧ v.answer.TakesEffect ∧
        (serve scan v c s).2 = Server.delete { s with clock := v.now } key := by
  obtain ⟨answer, now⟩ := v
  cases c with
  | setex key seconds record =>
    cases answer with
    | answered => exact .inr (.inl ⟨key, seconds, record, rfl, trivial, rfl⟩)
    | rejected e applied =>
      cases applied with
      | false => exact .inl rfl
      | true => exact .inr (.inl ⟨key, seconds, record, rfl, rfl, rfl⟩)
  | del key =>
    cases answer with
    | answered => exact .inr (.inr ⟨key, rfl, trivial, rfl⟩)
    | rejected e applied =>
      cases applied with
      | false => exact .inl rfl
      | true => exact .inr (.inr ⟨key, rfl, rfl, rfl⟩)
  | get key | keys pattern =>
    cases answer with
    | answered => exact .inl rfl
    | rejected e applied => cases applied <;> exact .inl rfl
  | now => exact .inl rfl

theorem clock_serve (v : Choice ε) (c : Command) (s : Server) :
    (serve scan v c s).2.clock = v.now := by
  rcases @serve_cases ε scan v c s with h | ⟨key, seconds, record, -, -, h⟩ | ⟨key, -, -, h⟩
  · exact congrArg Server.clock h
  · exact congrArg Server.clock h
  · exact congrArg Server.clock h

/-- The key under which the command writes a record. -/
def writtenKey (v : Choice ε) : Command → Option String
  | .setex key _ _ => if v.answer.TakesEffect then some key else none
  | .get _ | .del _ | .keys _ | .now => none

/-- Where no record is written under a key, what is stored there stays or is deleted. -/
theorem lookup_serve {c : Command} (s : Server) (h : key ∉ writtenKey v c) :
    ((serve scan v c s).2.redis.lookup key = s.redis.lookup key ∨
      c = .del key ∧ v.answer.TakesEffect ∧ (serve scan v c s).2.redis.lookup key = none) ∧
      (serve scan v c s).2.writtenAt key = s.writtenAt key := by
  rcases @serve_cases ε scan v c s with
    hs | ⟨key', seconds, record, rfl, heffect, hs⟩ | ⟨key', rfl, heffect, hs⟩
  · rw [hs]
    exact ⟨.inl rfl, rfl⟩
  · have hne : key ≠ key' := by
      rintro rfl
      exact h (if_pos heffect)
    rw [hs]
    exact ⟨.inl ((Store.lookup_set _ _ _ _ _).trans (if_neg hne)), Function.update_of_ne hne _ _⟩
  · rw [hs]
    by_cases hkey : key = key'
    · refine ⟨.inr ⟨congrArg Command.del hkey.symm, heffect, ?_⟩, rfl⟩
      exact (Store.lookup_del _ _ _).trans (if_pos hkey)
    · exact ⟨.inl ((Store.lookup_del _ _ _).trans (if_neg hkey)), rfl⟩

/-- Only `DEL` deletes a key. -/
theorem eq_del_of_lookup {c : Command} {s : Server} {entry : Entry IdempotencyRecord}
    (h : s.redis.lookup key = some entry)
    (hnone : (serve scan v c s).2.redis.lookup key = none) : c = .del key := by
  rcases @serve_cases ε scan v c s with
    hs | ⟨key', seconds, record, rfl, -, hs⟩ | ⟨key', rfl, -, hs⟩
  · rw [hs] at hnone
    exact absurd (h.symm.trans hnone) (Option.some_ne_none entry)
  · rw [hs] at hnone
    have hset := (Store.lookup_set s.redis key' key record _).symm.trans hnone
    split at hset
    · cases hset
    · exact absurd (h.symm.trans hset) (Option.some_ne_none entry)
  · rw [hs] at hnone
    by_contra hne
    have hkey : key ≠ key' := fun heq => hne (congrArg Command.del heq.symm)
    have hdel := (Store.lookup_del s.redis key' key).symm.trans hnone
    rw [if_neg hkey] at hdel
    exact absurd (h.symm.trans hdel) (Option.some_ne_none entry)

end Commands

/-! ## What is doomed stays so -/

/-- The command a method waits to have carried out. -/
def waitsFor : Stage ε Unit Reply Result → Option Command
  | .waiting c _ => some c
  | .ready _ _ _ | .settled _ => none

/-- The key that the command reads. -/
def readKey : Command → Option String
  | .get key => some key
  | .setex _ _ _ | .del _ | .keys _ | .now => none

/-- Of a call of `cleanExpired`, the number of records written before. -/
def Call.writesBefore : Call → Option ℕ
  | .cleanExpired writes => some writes
  | .recordExecution _ _ _ _ _ _ | .getExecutionResult _ | .clear _ => none

/-- A record is written under a key only while no cleaner has read an expired one there and is still
to delete it, and no cleaner reads a record that was written after its call and has expired by its
clock. Calls are labelled with the number of records written before. -/
def CleansAlone (w : World ε) : PoolEvent Call (Choice ε) → Prop
  | .spawn l => ∀ writes ∈ l.writesBefore, writes = w.server.writes
  | .exec i v => ∀ t ∈ w.threads[i]?, ∀ c ∈ waitsFor t.stage,
      (∀ key ∈ writtenKey v c, ∀ t' ∈ w.threads, ¬ ∃ record, Doomed t'.heard key record) ∧
        ∀ writes ∈ t.label.writesBefore, ∀ key ∈ readKey c,
          ∀ record ∈ w.server.redis.get v.now key,
            (∃ now ∈ clockReading t.heard, record.expiresAt < now) →
              w.server.writtenAt key ≤ writes
  | .resume _ => True

instance (w : World ε) : DecidablePred (CleansAlone w)
  | .spawn l =>
    inferInstanceAs (Decidable (∀ writes ∈ l.writesBefore, writes = w.server.writes))
  | .exec i v => inferInstanceAs (Decidable
      (∀ t ∈ w.threads[i]?, ∀ c ∈ waitsFor t.stage,
        (∀ key ∈ writtenKey v c, ∀ t' ∈ w.threads, ¬ ∃ record, Doomed t'.heard key record) ∧
          ∀ writes ∈ t.label.writesBefore, ∀ key ∈ readKey c,
            ∀ record ∈ w.server.redis.get v.now key,
              (∃ now ∈ clockReading t.heard, record.expiresAt < now) →
                w.server.writtenAt key ≤ writes))
  | .resume _ => .isTrue trivial

/-- What a cleaner is about to delete, if it is still there, is the record it has read, written
before its call. -/
def StillDoomed (w : World ε) : Prop :=
  ∀ t ∈ w.threads, ∀ writes ∈ t.label.writesBefore, ∀ key record,
    Doomed t.heard key record → ∀ entry, w.server.redis.lookup key = some entry →
      entry.value = record ∧ w.server.writtenAt key ≤ writes

/-- A record that a cleaner has been told of lies under its key. -/
theorem doomed_serve {v : Choice ε} {c : Command} {s : Server} {heard : Transcript ε Reply}
    {key : String} {record : IdempotencyRecord}
    (h : Doomed (⟨c, (serve scan v c s).1⟩ :: heard) key record) :
    c = .get key ∧ s.redis.get v.now key = some record ∧ (serve scan v c s).2.redis = s.redis ∧
      (serve scan v c s).2.writtenAt = s.writtenAt ∧
      ∃ now ∈ clockReading heard, record.expiresAt < now := by
  obtain ⟨rest, heq, hnow⟩ := h
  obtain ⟨hentry, rfl⟩ := List.cons.inj heq
  obtain ⟨rfl, hr⟩ := Sigma.mk.inj hentry
  have hr : (serve scan v (.get key) s).1 = .ok (some record) := eq_of_heq hr
  obtain ⟨answer, now⟩ := v
  cases answer with
  | answered => exact ⟨rfl, Except.ok.inj hr, rfl, rfl, hnow⟩
  | rejected e applied => cases hr

theorem stillDoomed_step {w w' : World ε} {e : PoolEvent Call (Choice ε)} (h : StillDoomed w)
    (halone : CleansAlone w e) (hstep : (system scan keyPrefix).step w e = some w') :
    StillDoomed w' := by
  intro t ht writes hwrites key record hdoomed entry hentry
  rcases Pool.mem_threads_of_step hstep ht with ht | ⟨l, -, -, rfl⟩ |
    ⟨i, v, l, heard, c, k, rfl, hi, hserver, rfl⟩ | ⟨i, l, heard, c, r, k, -, hi, hserver, rfl⟩
  · rcases Pool.server_of_step hstep with hserver | ⟨i, v, l, heard, c, k, rfl, hi, hserver⟩
    · rw [hserver] at hentry ⊢
      exact h t ht writes hwrites key record hdoomed entry hentry
    · have hnot : key ∉ writtenKey v c :=
        fun hkey => (halone _ hi c rfl).1 key hkey t ht ⟨record, hdoomed⟩
      rw [hserver] at hentry ⊢
      obtain ⟨hlookup | ⟨-, -, hnone⟩, hwritten⟩ := @lookup_serve ε scan v key c w.server hnot
      · obtain ⟨hvalue, hle⟩ :=
          h t ht writes hwrites key record hdoomed entry (hlookup.symm.trans hentry)
        exact ⟨hvalue, hwritten.trans_le hle⟩
      · exact absurd (hnone.symm.trans hentry) (Option.some_ne_none entry).symm
  · obtain ⟨rest, heq, -⟩ := hdoomed
    cases heq
  · -- the cleaner has just read the record
    obtain ⟨rfl, hget, hredis, hwritten, hnow⟩ := doomed_serve hdoomed
    obtain ⟨entry', hentry', -, hvalue⟩ := Store.get_eq_some.mp hget
    rw [hserver, hredis] at hentry
    obtain rfl := Option.some.inj (hentry'.symm.trans hentry)
    refine ⟨hvalue, ?_⟩
    rw [hserver, hwritten]
    exact (halone _ hi _ rfl).2 writes hwrites key rfl record hget hnow
  · rw [hserver] at hentry ⊢
    exact h _ (List.mem_of_getElem? hi) writes hwrites key record hdoomed entry hentry

/-! ## Deletions -/

/-- What the step of a cleaner deletes is a record that had expired by its clock and was written
before its call. -/
def DeletesRightly (t : Thread ε Unit Reply Call Result) (w w' : World ε) : Prop :=
  ∀ writes ∈ t.label.writesBefore, ∀ key entry,
    w.server.redis.lookup key = some entry → w'.server.redis.lookup key = none →
      (∃ now ∈ clockReading t.heard, entry.value.expiresAt < now) ∧
        w.server.writtenAt key ≤ writes

theorem deletesDoomed_of_minds {l : Call} {heard : Transcript ε Reply} (h : Minds l heard)
    {writes : ℕ} (hwrites : writes ∈ l.writesBefore) : DeletesDoomed heard := by
  cases l with
  | cleanExpired _ => exact h
  | recordExecution _ _ _ _ _ _ | getExecutionResult _ | clear _ =>
    exact absurd hwrites (Option.not_mem_none writes)

/-- **A cleaner deletes only records that have expired by its clock, and none that was written after
its call**, in every run in which no record is written under a key between a cleaner's reading of
an expired one there and its deletion, and no cleaner reads a record written after its call that
has expired by its clock. -/
theorem deletesRightly_of_step {redis : Database} {es : List (PoolEvent Call (Choice ε))}
    {e : PoolEvent Call (Choice ε)} {w w' : World ε}
    (halone : (system scan keyPrefix).StepsMeet CleansAlone (World.init redis) (es ++ [e]))
    (hrun : (system scan keyPrefix).runFrom (World.init redis) es = some w)
    (hstep : (system scan keyPrefix).step w e = some w') :
    ∃ t, w'.threads[e.actor w]? = some t ∧ DeletesRightly t w w' := by
  obtain ⟨hes, -⟩ := System.meets_last halone hrun
  have hdoomed : StillDoomed w := System.invariant_of_stepsMeet
    (fun _ _ _ hI hC hs => stillDoomed_step hI hC hs)
    (fun t ht => absurd ht List.not_mem_nil) hes hrun
  obtain ⟨t, ht, hminds⟩ := agreement.guarantee (Agreement.followed_nil trivial)
    (System.stepsMeet_of_forall (fun _ _ => trivial) _ _) hrun hstep
  refine ⟨t, ht, fun writes hwrites key entry hentry hnone => ?_⟩
  cases e with
  | spawn l =>
    obtain rfl := Option.some.inj hstep
    exact absurd (hentry.symm.trans hnone) (Option.some_ne_none entry)
  | resume i =>
    obtain ⟨l, heard, c, r, k, -, rfl⟩ := Pool.resume_eq_some hstep
    exact absurd (hentry.symm.trans hnone) (Option.some_ne_none entry)
  | exec i v =>
    obtain ⟨l, heard, c, k, hi, rfl⟩ := Pool.exec_eq_some hstep
    have hlt : i < w.threads.length := (List.getElem?_eq_some_iff.mp hi).1
    obtain rfl := Option.some.inj ((List.getElem?_set_self hlt).symm.trans ht)
    obtain rfl : c = .del key := eq_del_of_lookup hentry hnone
    obtain ⟨⟨record, hrecord⟩, -⟩ := deletesDoomed_of_minds hminds hwrites
    obtain ⟨hvalue, hle⟩ :=
      hdoomed _ (List.mem_of_getElem? hi) writes hwrites key record hrecord entry hentry
    obtain ⟨rest, rfl, hnow⟩ := hrecord
    exact ⟨hvalue.symm ▸ hnow, hle⟩

/-! ## One cleaner, and one among others -/

/-- A database with a record that expires at 1500, and is kept until 2000. -/
def onePayment : Database :=
  Store.empty.set "idempotency:a" (executionRecord 0 "a" "1" "charge" none 1500) (some 2000)

/-- A cleaner at 1600, up to its `DEL`. -/
def oneCleaner : List (PoolEvent Call (Choice Empty)) :=
  [.spawn (.cleanExpired 0), .exec 0 { now := 1600 }, .resume 0, .exec 0 { now := 1600 },
    .resume 0, .exec 0 { now := 1600 }, .resume 0]

/-- The cleaner deletes the record, which has expired. -/
theorem deletesRightly_oneCleaner :
    ∃ w ∈ (system .stored "idempotency").runFrom (World.init onePayment) oneCleaner,
      ∃ w' ∈ (system .stored "idempotency").step w (.exec 0 { now := 1600 }),
        (w.server.redis.lookup "idempotency:a").isSome ∧
          (w'.server.redis.lookup "idempotency:a").isNone ∧
          ∃ t, w'.threads[0]? = some t ∧ DeletesRightly t w w' := by
  obtain ⟨w, hrun, w', hstep, hsome, hnone⟩ :
      ∃ w ∈ (system .stored "idempotency").runFrom (World.init onePayment) oneCleaner,
        ∃ w' ∈ (system .stored "idempotency").step w (.exec 0 { now := 1600 }),
          (w.server.redis.lookup "idempotency:a").isSome ∧
            (w'.server.redis.lookup "idempotency:a").isNone := by decide +kernel
  exact ⟨w, hrun, w', hstep, hsome, hnone,
    @deletesRightly_of_step _ .stored "idempotency" onePayment oneCleaner _ _ _
      (by decide +kernel) hrun hstep⟩

/-- The same, a new record being written before the `DEL`. -/
def overtaken : List (PoolEvent Call (Choice Empty)) :=
  oneCleaner ++
    [.spawn (.recordExecution 1700 "a" "2" "charge" none 60000), .exec 1 { now := 1700 }]

/-- The cleaner deletes a record that was written a moment ago and is good for a minute. -/
theorem not_deletesRightly_overtaken :
    ∃ w ∈ (system .stored "idempotency").runFrom (World.init onePayment) overtaken,
      ∃ w' ∈ (system .stored "idempotency").step w (.exec 0 { now := 1700 }),
        (∀ entry ∈ w.server.redis.lookup "idempotency:a", entry.value.expiresAt = 61700) ∧
          ¬ ∃ t, w'.threads[0]? = some t ∧ DeletesRightly t w w' := by
  obtain ⟨w, hrun, w', hstep, hfresh, hsome, hnone, hwritten, hlabel⟩ :
      ∃ w ∈ (system .stored "idempotency").runFrom (World.init onePayment) overtaken,
        ∃ w' ∈ (system .stored "idempotency").step w (.exec 0 { now := 1700 }),
          (∀ entry ∈ w.server.redis.lookup "idempotency:a", entry.value.expiresAt = 61700) ∧
            (w.server.redis.lookup "idempotency:a").isSome ∧
            (w'.server.redis.lookup "idempotency:a").isNone ∧
            w.server.writtenAt "idempotency:a" = 1 ∧
            ∀ t ∈ w'.threads[0]?, t.label.writesBefore = some 0 := by decide +kernel
  refine ⟨w, hrun, w', hstep, hfresh, fun ⟨t, ht, hrightly⟩ => ?_⟩
  obtain ⟨entry, hentry⟩ := Option.isSome_iff_exists.mp hsome
  have hle := (hrightly 0 (hlabel t ht) _ entry hentry (Option.isNone_iff_eq_none.mp hnone)).2
  omega

end KitiumJobQueue.Idempotency.Clients
