import KitiumJobQueue.Foundations.Effects
import KitiumJobQueue.Foundations.Json
import KitiumJobQueue.Foundations.Lists
import KitiumJobQueue.Foundations.Numbers
import KitiumJobQueue.Redis.Store
import Mathlib.Data.Rat.Floor
import Mathlib.Tactic.Linarith

/-!
# The audit log

`auditAccess` and `getAuditLog` of `access-control.manager.ts`: each audited access is an entry in
Redis under a key of its own, which is there for a year; the log lists the keys, reads and filters
the entries, sorts them and cuts the list.

`isTop_logAfter` says what a log is after any history of audited accesses: the newest of the entries
that are still there and pass the filters, as many as asked for.
-/

namespace KitiumJobQueue.AccessControl

open Effects JavaScript

/-! ## Entries and filters -/

/-- An entry of the audit log. -/
structure AuditEntry where
  principalId : String
  action : String
  queueName : String
  timestamp : ℕ
  metadata : Option Json

/-- The filters of `getAuditLog`, with the limit. -/
structure AuditFilters where
  principalId : Option String := none
  queueName : Option String := none
  action : Option String := none
  startTime : Option Number := none
  endTime : Option Number := none
  limit : Option Number := none

/-- `AccessControlManager.matchesAuditFilters` -/
def matchesAuditFilters (entry : AuditEntry) (filters : AuditFilters) : Bool :=
  filters.principalId.all (entry.principalId = ·) &&
    filters.queueName.all (entry.queueName = ·) &&
    filters.action.all (entry.action = ·) &&
    filters.startTime.all (fun t => t.le (.num entry.timestamp)) &&
    filters.endTime.all fun t => (Number.num entry.timestamp).le t

/-- An entry passes the filters that are given. -/
structure Passes (filters : Option AuditFilters) (entry : AuditEntry) : Prop where
  principalId : ∀ f ∈ filters, ∀ id ∈ f.principalId, entry.principalId = id
  queueName : ∀ f ∈ filters, ∀ name ∈ f.queueName, entry.queueName = name
  action : ∀ f ∈ filters, ∀ action ∈ f.action, entry.action = action
  startTime : ∀ f ∈ filters, ∀ t ∈ f.startTime, t.le (.num entry.timestamp) = true
  endTime : ∀ f ∈ filters, ∀ t ∈ f.endTime, (Number.num entry.timestamp).le t = true

theorem passes_iff {filters : Option AuditFilters} {entry : AuditEntry} :
    Passes filters entry ↔ filters.all (matchesAuditFilters entry) = true := by
  cases filters with
  | none => exact iff_of_true ⟨by simp, by simp, by simp, by simp, by simp⟩ rfl
  | some f =>
    simp only [Option.all_some, matchesAuditFilters, Bool.and_eq_true, Option.all_eq_true,
      decide_eq_true_eq]
    constructor
    · intro h
      exact ⟨⟨⟨⟨h.principalId f rfl, h.queueName f rfl⟩, h.action f rfl⟩, h.startTime f rfl⟩,
        h.endTime f rfl⟩
    · rintro ⟨⟨⟨⟨hid, hname⟩, haction⟩, hstart⟩, hend⟩
      constructor <;> rintro g ⟨⟩ <;> assumption

/-- Where `slice(0, limit)` ends in an array of length `n`. -/
def sliceEnd (limit : Number) (n : ℕ) : ℕ :=
  match limit with
  | .nan | .negInfinity => 0
  | .num q => if 0 ≤ q then min ⌊q⌋₊ n else n - ⌊-q⌋₊
  | .posInfinity => n

theorem sliceEnd_le (limit : Number) (n : ℕ) : sliceEnd limit n ≤ n := by
  unfold sliceEnd
  split
  · exact Nat.zero_le n
  · exact Nat.zero_le n
  · split
    · exact Nat.min_le_right _ n
    · exact Nat.sub_le n _
  · exact le_rfl

/-- `filters?.limit ?? 100` -/
def auditLimit (filters : Option AuditFilters) : Number :=
  (filters.bind AuditFilters.limit).getD 100

/-! ## The methods -/

/-- A call of `auditAccess` and what it meets: the times at which it reads the clock for the entry
and for the key, the random text of the key, and the time at which the entry is stored. -/
structure AuditCall where
  principalId : String
  action : String
  queueName : String
  metadata : Option Json := none
  timestamp : ℕ
  keyedAt : ℕ
  random : String
  storedAt : ℕ

/-- The entry of a call. -/
def AuditCall.entry (c : AuditCall) : AuditEntry where
  principalId := c.principalId
  action := c.action
  queueName := c.queueName
  timestamp := c.timestamp
  metadata := c.metadata

/-- The text that keys of the audit log begin with. -/
def auditPrefix (keyPrefix : String) : String := keyPrefix ++ ":audit:"

/-- The key of a call's entry. -/
def AuditCall.key (keyPrefix : String) (c : AuditCall) : String :=
  auditPrefix keyPrefix ++ (toString c.keyedAt ++ ":" ++ c.random)

/-- The lifetime of an entry in milliseconds. -/
def auditLifetime : ℕ := 31536000 * 1000

/-- The entry of a call has not expired. -/
def AuditCall.IsThere (c : AuditCall) (time : ℕ) : Prop := time < c.storedAt + auditLifetime

section

variable {ε : Type} (keyPrefix : String) (scan : Redis.Scan AuditEntry) (answers : ℕ → Answer ε)
  (clock : ℕ → ℕ) (filters : Option AuditFilters)

/-- `AccessControlManager.auditAccess` -/
def auditAccess (c : AuditCall) : Async ε (Remote (Redis.Store AuditEntry)) Unit :=
  tryCatch
    (call answers fun r =>
      ((), r.set (c.key keyPrefix) c.entry (some (c.storedAt + auditLifetime))))
    fun _ => pure ()

/-- Calls of `auditAccess`, one after another. -/
def auditAll : List AuditCall → Async ε (Remote (Redis.Store AuditEntry)) Unit
  | [] => pure ()
  | c :: calls => do
    auditAccess keyPrefix answers c
    auditAll calls

/-- The loop of `getAuditLog` over the keys, the next of which is read at `clock n`. -/
def readAuditEntries :
    List String → ℕ → Async ε (Remote (Redis.Store AuditEntry)) (List AuditEntry)
  | [], _ => pure []
  | key :: keys, n => do
    let data ← call answers fun r => (r.get (clock n) key, r)
    let entries ← readAuditEntries keys (n + 1)
    pure ((data.filter fun entry => filters.all (matchesAuditFilters entry)).toList ++ entries)

/-- `AccessControlManager.getAuditLog`, whose commands are carried out at the times of `clock`. -/
def getAuditLog : Async ε (Remote (Redis.Store AuditEntry)) (List AuditEntry) :=
  tryCatch
    (do
      let keys ← call answers fun r => (r.keys scan (clock 0) (auditPrefix keyPrefix ++ "*"), r)
      let entries ← readAuditEntries answers clock filters keys 1
      let sorted := entries.insertionSort fun a b => b.timestamp ≤ a.timestamp
      pure (sorted.take (sliceEnd (auditLimit filters) sorted.length)))
    fun _ => pure []

end

/-! ## What a history leaves -/

section

variable {ε : Type} {keyPrefix : String} {answers : ℕ → Answer ε} {calls : List AuditCall}

theorem run_auditAccess (hanswers : ∀ n, answers n = .answered) (c : AuditCall)
    (r : Remote (Redis.Store AuditEntry)) :
    (auditAccess keyPrefix answers c).run r =
      (.ok (), ⟨r.server.set (c.key keyPrefix) c.entry (some (c.storedAt + auditLifetime)),
        r.calls + 1⟩) :=
  Async.run_tryCatch_of_ok (run_call_of_answered (hanswers _))

/-- After a history of accesses with keys of their own, every entry is under its key until it
expires, and the rest of the database is as it was. -/
theorem run_auditAll (hanswers : ∀ n, answers n = .answered)
    (hkeys : (calls.map (AuditCall.key keyPrefix)).Nodup) (r : Remote (Redis.Store AuditEntry)) :
    ∃ r', (auditAll keyPrefix answers calls).run r = (.ok (), r') ∧
      (∀ c ∈ calls, r'.server.lookup (c.key keyPrefix) =
        some ⟨c.entry, some (c.storedAt + auditLifetime)⟩) ∧
      ∀ k ∉ calls.map (AuditCall.key keyPrefix), r'.server.lookup k = r.server.lookup k := by
  induction calls generalizing r with
  | nil => exact ⟨r, rfl, fun c hc => absurd hc List.not_mem_nil, fun _ _ => rfl⟩
  | cons c calls ih =>
    rw [List.map_cons, List.nodup_cons] at hkeys
    obtain ⟨r', hrun, hcalls, hothers⟩ := ih hkeys.2
      ⟨r.server.set (c.key keyPrefix) c.entry (some (c.storedAt + auditLifetime)), r.calls + 1⟩
    refine ⟨r', ?_, fun d hd => ?_, fun k hk => ?_⟩
    · rw [auditAll, Async.run_bind_of_ok (run_auditAccess hanswers c r), hrun]
    · rcases List.mem_cons.mp hd with rfl | hd
      · rw [hothers _ hkeys.1, Redis.Store.lookup_set, if_pos rfl]
      · exact hcalls d hd
    · rw [List.map_cons, List.mem_cons, not_or] at hk
      rw [hothers k hk.2, Redis.Store.lookup_set, if_neg hk.1]

end

/-! ## What a log reads -/

section

variable {ε : Type} {keyPrefix : String} (scan : Redis.Scan AuditEntry) {answers : ℕ → Answer ε}
variable {calls : List AuditCall} (filters : Option AuditFilters)

/-- The audit log of a database is that of some calls: what is there of their entries, and no other
key begins as theirs do. -/
structure Holds (keyPrefix : String) (calls : List AuditCall) (s : Redis.Store AuditEntry) :
    Prop where
  nodup : (calls.map (AuditCall.key keyPrefix)).Nodup
  lookup : ∀ c ∈ calls, s.lookup (c.key keyPrefix) =
    some ⟨c.entry, some (c.storedAt + auditLifetime)⟩
  others : ∀ k, (auditPrefix keyPrefix).toList <+: k.toList →
    k ∉ calls.map (AuditCall.key keyPrefix) → s.lookup k = none

theorem isLive_iff {c : AuditCall} {time : ℕ} :
    Redis.Entry.IsLive ⟨c.entry, some (c.storedAt + auditLifetime)⟩ time ↔ c.IsThere time := by
  simp [Redis.Entry.IsLive, AuditCall.IsThere]

/-- An entry is read as long as it is there. -/
theorem Holds.get {s : Redis.Store AuditEntry} (h : Holds keyPrefix calls s) {c : AuditCall}
    (hc : c ∈ calls) (time : ℕ) :
    (c.IsThere time → s.get time (c.key keyPrefix) = some c.entry) ∧
      (¬ c.IsThere time → s.get time (c.key keyPrefix) = none) := by
  unfold Redis.Store.get
  rw [h.lookup c hc]
  constructor
  · intro hthere
    rw [Option.filter_some, if_pos (by simpa using isLive_iff.mpr hthere)]
    rfl
  · intro hgone
    rw [Option.filter_some, if_neg (by simpa using fun hlive => hgone (isLive_iff.mp hlive))]
    rfl

/-- What one round of the loop adds to the log. -/
theorem Holds.read {s : Redis.Store AuditEntry} (h : Holds keyPrefix calls s) {c : AuditCall}
    (hc : c ∈ calls) (time : ℕ) :
    (c.IsThere time ∧ Passes filters c.entry →
      ((s.get time (c.key keyPrefix)).filter
        fun entry => filters.all (matchesAuditFilters entry)).toList = [c.entry]) ∧
      (¬ (c.IsThere time ∧ Passes filters c.entry) →
        ((s.get time (c.key keyPrefix)).filter
          fun entry => filters.all (matchesAuditFilters entry)).toList = []) := by
  constructor
  · rintro ⟨hthere, hpass⟩
    rw [(h.get hc time).1 hthere, Option.filter_some, if_pos (passes_iff.mp hpass)]
    rfl
  · intro hnot
    by_cases hthere : c.IsThere time
    · rw [(h.get hc time).1 hthere, Option.filter_some,
        if_neg fun hmatch => hnot ⟨hthere, passes_iff.mpr hmatch⟩]
      rfl
    · rw [(h.get hc time).2 hthere]
      rfl

/-- The loop finds, under keys of the log, entries that pass the filters and are there when they are
read, and it misses none that is there all the time. -/
theorem run_readAuditEntries (hanswers : ∀ n, answers n = .answered) (clock : ℕ → ℕ)
    {r : Remote (Redis.Store AuditEntry)} (h : Holds keyPrefix calls r.server) (n : ℕ)
    {keys : List String} (hkeys : keys ⊆ calls.map (AuditCall.key keyPrefix)) :
    ∃ (found : List AuditCall) (r' : Remote (Redis.Store AuditEntry)),
      (readAuditEntries answers clock filters keys n).run r =
          (.ok (found.map AuditCall.entry), r') ∧
      (found.map (AuditCall.key keyPrefix)).Sublist keys ∧
      (∀ c ∈ found, c ∈ calls ∧ Passes filters c.entry) ∧
      ∀ c ∈ calls, c.key keyPrefix ∈ keys → (∀ n, c.IsThere (clock n)) →
        Passes filters c.entry → c ∈ found := by
  induction keys generalizing n r with
  | nil =>
    exact ⟨[], r, rfl, List.Sublist.slnil, fun c hc => absurd hc List.not_mem_nil,
      fun c _ hc => absurd hc List.not_mem_nil⟩
  | cons key keys ih =>
    obtain ⟨c, hc, rfl⟩ := List.mem_map.mp (hkeys List.mem_cons_self)
    obtain ⟨found, r', hrun, hsub, hfound, hall⟩ :=
      ih (r := ⟨r.server, r.calls + 1⟩) h (n + 1) fun k hk => hkeys (List.mem_cons_of_mem _ hk)
    have hread : (readAuditEntries answers clock filters (c.key keyPrefix :: keys) n).run r =
        (.ok (((r.server.get (clock n) (c.key keyPrefix)).filter
          fun entry => filters.all (matchesAuditFilters entry)).toList ++
            found.map AuditCall.entry), r') := by
      rw [readAuditEntries, Async.run_bind_of_ok (run_call_of_answered (hanswers _)),
        Async.run_bind_of_ok hrun]
      rfl
    have hinj {d : AuditCall} (hd : d ∈ calls) (heq : d.key keyPrefix = c.key keyPrefix) : d = c :=
      List.inj_on_of_nodup_map h.nodup hd hc heq
    by_cases htaken : c.IsThere (clock n) ∧ Passes filters c.entry
    · refine ⟨c :: found, r', ?_, hsub.cons_cons _, fun d hd => ?_,
        fun d hd hkey hthere hpass => ?_⟩
      · rw [hread, (h.read filters hc (clock n)).1 htaken]
        rfl
      · rcases List.mem_cons.mp hd with rfl | hd
        · exact ⟨hc, htaken.2⟩
        · exact hfound d hd
      · rcases List.mem_cons.mp hkey with heq | hkey
        · rw [hinj hd heq]
          exact List.mem_cons_self
        · exact List.mem_cons_of_mem _ (hall d hd hkey hthere hpass)
    · refine ⟨found, r', ?_, hsub.cons _, hfound, fun d hd hkey hthere hpass => ?_⟩
      · rw [hread, (h.read filters hc (clock n)).2 htaken]
        rfl
      · rcases List.mem_cons.mp hkey with heq | hkey
        · obtain rfl := hinj hd heq
          exact absurd ⟨hthere n, hpass⟩ htaken
        · exact hall d hd hkey hthere hpass

/-- The entries a log is made of: recorded entries that pass the filters and have not expired. One
that expires while the log is read may be among them or not. -/
structure Counted (calls : List AuditCall) (filters : Option AuditFilters) (clock : ℕ → ℕ)
    (found : List AuditCall) : Prop where
  nodup : found.Nodup
  recorded : ∀ c ∈ found, c ∈ calls ∧ Passes filters c.entry ∧ c.IsThere (clock 0)
  remaining : ∀ c ∈ calls, Passes filters c.entry → (∀ n, c.IsThere (clock n)) → c ∈ found

/-- **What a log is.** The newest of the entries it is made of, as many as the limit allows. -/
theorem run_getAuditLog (htext : ∀ c ∈ keyPrefix.toList, ¬ Redis.IsMeta c)
    (hanswers : ∀ n, answers n = .answered) (clock : ℕ → ℕ)
    {r : Remote (Redis.Store AuditEntry)} (h : Holds keyPrefix calls r.server) :
    ∃ found returned r', (getAuditLog keyPrefix scan answers clock filters).run r =
        (.ok (returned.map AuditCall.entry), r') ∧
      Counted calls filters clock found ∧
      List.IsTop AuditCall.timestamp (sliceEnd (auditLimit filters) found.length) found
        returned := by
  have hplain : ∀ c ∈ (auditPrefix keyPrefix).toList, ¬ Redis.IsMeta c := by
    intro c hc
    rw [auditPrefix, String.toList_append, List.mem_append] at hc
    rcases hc with hc | hc
    · exact htext c hc
    · exact Redis.not_isMeta_of_all (by decide) c hc
  have hmatches {k : String} : Redis.KeyMatches (auditPrefix keyPrefix ++ "*") k ↔
      (auditPrefix keyPrefix).toList <+: k.toList := Redis.keyMatches_append_star hplain k
  have hlisted : r.server.keys scan (clock 0) (auditPrefix keyPrefix ++ "*") ⊆
      calls.map (AuditCall.key keyPrefix) := by
    intro k hk
    obtain ⟨hlive, hmatch⟩ := Redis.Store.mem_keys.mp hk
    by_contra hnot
    rw [Redis.Store.get, h.others k (hmatches.mp hmatch) hnot] at hlive
    exact absurd hlive (by simp)
  obtain ⟨found, r', hrun, hsub, hfound, hall⟩ := run_readAuditEntries filters hanswers
    clock (r := ⟨r.server, r.calls + 1⟩) h 1 hlisted
  have hsorted : (found.map AuditCall.entry).insertionSort (fun a b => b.timestamp ≤ a.timestamp) =
      (found.insertionSort fun a b => b.timestamp ≤ a.timestamp).map AuditCall.entry :=
    (List.map_insertionSort _ _ AuditCall.entry found fun _ _ _ _ => Iff.rfl).symm
  refine ⟨found, _, r', ?_, ⟨?_, fun c hc => ?_, fun c hc hpass hthere => ?_⟩,
    List.isTop_take_insertionSort AuditCall.timestamp (sliceEnd_le _ _)⟩
  · refine Async.run_tryCatch_of_ok ?_
    rw [Async.run_bind_of_ok (run_call_of_answered (hanswers _)), Async.run_bind_of_ok hrun,
      List.map_take, ← hsorted]
    simp only [List.length_insertionSort, List.length_map]
    rfl
  · exact .of_map _ ((Redis.Store.nodup_keys _ _ _).sublist hsub)
  · refine ⟨(hfound c hc).1, (hfound c hc).2, ?_⟩
    have hkey := Redis.Store.mem_keys.mp (hsub.subset (List.mem_map_of_mem hc))
    by_contra hgone
    rw [(h.get (hfound c hc).1 (clock 0)).2 hgone] at hkey
    exact absurd hkey.1 (by simp)
  · refine hall c hc (Redis.Store.mem_keys.mpr ⟨?_, hmatches.mpr ?_⟩) hthere hpass
    · rw [(h.get hc (clock 0)).1 (hthere 0)]
      rfl
    · rw [AuditCall.key, String.toList_append]
      exact List.prefix_append _ _

end

/-! ## The log of a history -/

/-- The lesser of `m` and a limit, rounded down. -/
def atMost (limit : Number) (m : ℕ) : ℕ :=
  match limit with
  | .num q => min ⌊q⌋₊ m
  | .posInfinity => m
  | .nan | .negInfinity => 0

theorem sliceEnd_eq_atMost {limit : Number} (h : Number.le 0 limit = true) (m : ℕ) :
    sliceEnd limit m = atMost limit m := by
  cases limit with
  | num q =>
    have hq : 0 ≤ q := by
      by_contra hneg
      have hlt : Number.lt (.num q) 0 = true := decide_eq_true (not_le.mp hneg)
      rw [Number.le_iff, hlt] at h
      exact absurd h.2.2 (by simp)
    exact if_pos hq
  | nan | negInfinity | posInfinity => rfl

section

variable {ε : Type} (keyPrefix : String) (scan : Redis.Scan AuditEntry) (answers : ℕ → Answer ε)
  (clock : ℕ → ℕ) (calls : List AuditCall) (filters : Option AuditFilters)

/-- What `getAuditLog` gives after some calls of `auditAccess`, from a database `r`. -/
def logAfter (r : Remote (Redis.Store AuditEntry)) : Except ε (List AuditEntry) :=
  ((do
    auditAll keyPrefix answers calls
    getAuditLog keyPrefix scan answers clock filters).run r).1

variable {keyPrefix answers calls filters}

/-- **What the log of a history is.** With a key prefix of plain text, any history of audited
accesses with keys of their own in a database that had no such keys, and any limit that is not
negative, the log lists the newest of the entries that pass the filters and have not expired, as
many as the limit, rounded down, or all of them. -/
theorem isTop_logAfter (htext : ∀ c ∈ keyPrefix.toList, ¬ Redis.IsMeta c)
    (hanswers : ∀ n, answers n = .answered)
    (hkeys : (calls.map (AuditCall.key keyPrefix)).Nodup)
    (hlimit : Number.le 0 (auditLimit filters) = true) {r : Remote (Redis.Store AuditEntry)}
    (hfresh : ∀ k, (auditPrefix keyPrefix).toList <+: k.toList → r.server.lookup k = none) :
    ∃ found returned, logAfter keyPrefix scan answers clock calls filters r =
        .ok (returned.map AuditCall.entry) ∧
      Counted calls filters clock found ∧
      List.IsTop AuditCall.timestamp (atMost (auditLimit filters) found.length) found returned := by
  obtain ⟨r₁, hrun₁, hcalls, hothers⟩ := run_auditAll hanswers hkeys r
  have hholds : Holds keyPrefix calls r₁.server :=
    ⟨hkeys, hcalls, fun k hk hnot => (hothers k hnot).trans (hfresh k hk)⟩
  obtain ⟨found, returned, r₂, hrun₂, hcounted, htop⟩ :=
    run_getAuditLog scan filters htext hanswers clock hholds
  rw [sliceEnd_eq_atMost hlimit] at htop
  refine ⟨found, returned, ?_, hcounted, htop⟩
  rw [logAfter, Async.run_bind_of_ok hrun₁, hrun₂]

end

/-- A log lists the newest of all recorded entries that pass the filters, as many of them as the
limit is, or all of them. -/
def Exact {ε : Type} (calls : List AuditCall) (filters : Option AuditFilters)
    (log : Except ε (List AuditEntry)) : Prop :=
  let m := calls.filter fun c => filters.all (matchesAuditFilters c.entry)
  ∃ returned : List AuditCall, log = .ok (returned.map AuditCall.entry) ∧
    Number.num returned.length =
      (if (auditLimit filters).lt (.num m.length) then auditLimit filters else .num m.length) ∧
    List.IsTop AuditCall.timestamp returned.length m returned

/-- An access at the beginning of time. -/
def firstAccess : AuditCall where
  principalId := "alice"
  action := "addJob"
  queueName := "mail"
  timestamp := 0
  keyedAt := 0
  random := "4fzyo82mv"
  storedAt := 0

/-- A fresh database whose calls are all answered. -/
def firstLog (keyPrefix : String) (time : ℕ) (filters : Option AuditFilters) :
    Except Thrown (List AuditEntry) :=
  logAfter keyPrefix .stored (fun _ => .answered) (fun _ => time) [firstAccess] filters
    ⟨.empty, 0⟩

/-- Accesses of two principals, three of them at one time. -/
def accesses : List AuditCall :=
  [firstAccess, { firstAccess with action := "removeJob", keyedAt := 1 },
    { firstAccess with timestamp := 500, keyedAt := 500 },
    { firstAccess with principalId := "bob", timestamp := 900, keyedAt := 900 },
    { firstAccess with queueName := "reports", keyedAt := 2 }]

/-- Two of the accesses that one principal made to a queue. -/
def aliceMail : AuditFilters where
  principalId := some "alice"
  queueName := some "mail"
  limit := some 2

/-- Two of the three accesses that pass are listed a minute later, the latest one first. -/
theorem isTop_aliceMail :
    (logAfter "access-control" .stored (fun _ => (.answered : Answer Thrown)) (fun _ => 60000)
        accesses (some aliceMail) ⟨.empty, 0⟩).toOption.map (List.map AuditEntry.timestamp) =
      some [500, 0] ∧
    ∃ found returned, logAfter "access-control" .stored (fun _ => (.answered : Answer Thrown))
        (fun _ => 60000) accesses (some aliceMail) ⟨.empty, 0⟩ =
          .ok (returned.map AuditCall.entry) ∧
      Counted accesses (some aliceMail) (fun _ => 60000) found ∧
      List.IsTop AuditCall.timestamp (atMost (auditLimit (some aliceMail)) found.length) found
        returned :=
  ⟨by decide +kernel,
    isTop_logAfter .stored (fun _ => 60000) (Redis.not_isMeta_of_all (by decide)) (fun _ => rfl)
      (by decide +kernel) (by decide +kernel) fun _ _ => rfl⟩

/-- An empty log is not the whole log of the last hundred entries. -/
theorem not_exact_nil {ε : Type} :
    ¬ Exact [firstAccess] none (.ok [] : Except ε (List AuditEntry)) := by
  rintro ⟨returned, hlog, hlength, -⟩
  obtain rfl : returned = [] := List.map_eq_nil_iff.mp (Except.ok.inj hlog).symm
  exact absurd hlength (by decide)

/-- No log has half an entry. -/
theorem not_exact_half {ε : Type} (log : Except ε (List AuditEntry)) :
    ¬ Exact [firstAccess] (some { limit := some (.num (1 / 2)) }) log := by
  rintro ⟨returned, -, hlength, -⟩
  have hlt : Number.lt (.num (1 / 2)) (.num (1 : ℕ)) = true :=
    decide_eq_true (by norm_num : (1 / 2 : ℚ) < (1 : ℕ))
  have hhalf : (returned.length : ℚ) = 1 / 2 :=
    Number.num.inj (hlength.trans (if_pos hlt))
  have htwice : returned.length * 2 = 1 := by
    have htwice' : (returned.length : ℚ) * 2 = 1 := by linarith
    exact_mod_cast htwice'
  omega

/-- An entry is gone after a year, or from the beginning if the prefix is a pattern; and half an
entry cannot be listed. -/
theorem not_exact_firstLog :
    ¬ Exact [firstAccess] none (firstLog "access-control" auditLifetime none) ∧
      ¬ Exact [firstAccess] none (firstLog "tenant[1]" 0 none) ∧
      ¬ Exact [firstAccess] (some { limit := some (.num (1 / 2)) })
        (firstLog "access-control" 0 (some { limit := some (.num (1 / 2)) })) := by
  have hexpired : firstLog "access-control" auditLifetime none = .ok [] := rfl
  have hpattern : firstLog "tenant[1]" 0 none = .ok [] := rfl
  rw [hexpired, hpattern]
  exact ⟨not_exact_nil, not_exact_nil, not_exact_half _⟩

end KitiumJobQueue.AccessControl
