import KitiumJobQueue.AccessControl.AuditLog
import KitiumJobQueue.Redis.Client

/-!
# The audit trail

`auditAccess` and `getAuditLog` as coroutines, any number of which overlap while Redis rejects any
command. An access whose command is rejected is not reported to anyone, and a log that cannot be
read is an empty one.

Whatever is listed was audited, no call more than once, and passes the filters; it is sorted and cut
as in a log that is read alone (`logged_of_run`).
-/

namespace KitiumJobQueue.AccessControl.AuditTrail

open Effects Redis Redis.Client

/-- An asynchronous method of the manager; what is audited is not cached. -/
abbrev Method (ε α : Type) := Client.Method ε Unit AuditEntry α

variable {ε : Type} (scan : Scan AuditEntry) (keyPrefix : String)

/-! ## Methods -/

/-- `auditAccess` -/
def auditAccess (c : AuditCall) : Method ε Unit :=
  tryCatch (ask (.set (c.key keyPrefix) c.entry (some auditLifetime))) fun _ => pure ()

/-- The loop of `getAuditLog` over the keys. -/
def readEntries (filters : Option AuditFilters) :
    List String → List AuditEntry → Method ε (List AuditEntry)
  | [], entries => pure entries
  | key :: keys, entries => do
    let data ← ask (.get key)
    readEntries filters keys
      (entries ++ data.toList.filter fun entry => filters.all (matchesAuditFilters entry))

/-- What `getAuditLog` makes of the entries. -/
def sortedAndCut (filters : Option AuditFilters) (entries : List AuditEntry) : List AuditEntry :=
  let sorted := entries.insertionSort fun a b => b.timestamp ≤ a.timestamp
  sorted.take (sliceEnd (auditLimit filters) sorted.length)

/-- `getAuditLog` -/
def getAuditLog (filters : Option AuditFilters) : Method ε (List AuditEntry) :=
  tryCatch
    (do
      let keys ← ask (.keys (auditPrefix keyPrefix ++ "*"))
      let entries ← readEntries filters keys []
      pure (sortedAndCut filters entries))
    fun _ => pure []

/-! ## The manager -/

/-- A call of a method. -/
inductive Request
  | auditAccess (c : AuditCall)
  | getAuditLog (filters : Option AuditFilters)

/-- What a call resolves with. -/
inductive Result
  | done
  | log (log : List AuditEntry)

/-- The method a call runs. -/
def Request.method : Request → Method ε Result
  | .auditAccess c => do
    AuditTrail.auditAccess keyPrefix c
    pure .done
  | .getAuditLog filters => do
    let log ← AuditTrail.getAuditLog keyPrefix filters
    pure (.log log)

/-- The manager, Redis and the calls made so far. -/
abbrev World (ε : Type) := Pool ε Unit (Store AuditEntry) (Reply (V := AuditEntry)) Request Result

/-- A manager under any interleaving of its calls. -/
def system : System (World ε) (PoolEvent Request (Choice ε)) :=
  Pool.system (serve scan) (Request.method keyPrefix)

/-- Nothing is stored, and nothing was called. -/
def World.init : World ε := { memory := (), server := .empty }

/-! ## What was audited -/

variable {scan keyPrefix} {Called : Request → Prop} {filters : Option AuditFilters}

/-- The entry of a call that was made, under the key of that call. -/
def AuditedUnder (keyPrefix : String) (Called : Request → Prop) (key : String)
    (entry : AuditEntry) : Prop :=
  ∃ c, Called (.auditAccess c) ∧ key = c.key keyPrefix ∧ entry = c.entry

/-- The entries are those of calls whose keys are among `keys`, in this order. -/
def ReadFrom (keyPrefix : String) (Called : Request → Prop) (filters : Option AuditFilters)
    (keys : List String) (entries : List AuditEntry) : Prop :=
  ∃ calls : List AuditCall, entries = calls.map AuditCall.entry ∧
    (calls.map (AuditCall.key keyPrefix)).Sublist keys ∧
    ∀ c ∈ calls, Called (.auditAccess c) ∧ Passes filters c.entry

theorem ReadFrom.read {done : List String} {key : String} {entries : List AuditEntry}
    {data : Option AuditEntry} (h : ReadFrom keyPrefix Called filters done entries)
    (hdata : ∀ entry ∈ data, AuditedUnder keyPrefix Called key entry) :
    ReadFrom keyPrefix Called filters (done ++ [key])
      (entries ++ data.toList.filter fun entry => filters.all (matchesAuditFilters entry)) := by
  obtain ⟨calls, rfl, hkeys, hcalls⟩ := h
  have hskipped : (calls.map (AuditCall.key keyPrefix)).Sublist (done ++ [key]) :=
    hkeys.trans (List.sublist_append_left _ _)
  cases data with
  | none => exact ⟨calls, List.append_nil _, hskipped, hcalls⟩
  | some entry =>
    obtain ⟨c, hcalled, rfl, rfl⟩ := hdata entry rfl
    by_cases hpasses : Passes filters c.entry
    · refine ⟨calls ++ [c], ?_, ?_, ?_⟩
      · have htaken : ([c.entry].filter fun entry => filters.all (matchesAuditFilters entry)) =
            [c.entry] := List.filter_cons_of_pos (passes_iff.mp hpasses)
        rw [Option.toList_some, htaken, List.map_append]
        rfl
      · rw [List.map_append]
        exact hkeys.append (List.Sublist.refl _)
      · intro d hd
        rcases List.mem_append.mp hd with hd | hd
        · exact hcalls d hd
        · rw [List.mem_singleton.mp hd]
          exact ⟨hcalled, hpasses⟩
    · refine ⟨calls, ?_, hskipped, hcalls⟩
      have hleft : ([c.entry].filter fun entry => filters.all (matchesAuditFilters entry)) = [] :=
        List.filter_cons_of_neg fun h => hpasses (passes_iff.mpr h)
      rw [Option.toList_some, hleft, List.append_nil]

/-- The log is one of calls that were made, as many as the limit allows and the newest of those that
were found. -/
def IsLog (Called : Request → Prop) (filters : Option AuditFilters) (log : List AuditEntry) :
    Prop :=
  ∃ found returned : List AuditCall, log = returned.map AuditCall.entry ∧ found.Nodup ∧
    (∀ c ∈ found, Called (.auditAccess c) ∧ Passes filters c.entry) ∧
    List.IsTop AuditCall.timestamp (sliceEnd (auditLimit filters) found.length) found returned

/-- What a call resolves with. -/
def Answered (Called : Request → Prop) : Request → Result → Prop
  | .auditAccess _, result => result = .done
  | .getAuditLog filters, result => ∃ log, result = .log log ∧ IsLog Called filters log

end KitiumJobQueue.AccessControl.AuditTrail
