import KitiumJobQueue.AccessControl.Isolation

/-!
# The conditions of an entry

A check looks at what is left of an entry after `JSON.stringify` and `JSON.parse`. Expiry,
permissions and the time range come through, so what they forbid stays forbidden; a custom
predicate does not, and where it would have refused, the check allows (`enforced_iff`). It would
also be passed over in a check without a context.
-/

namespace KitiumJobQueue.AccessControl

open Effects Redis

/-! ## What an entry permits -/

/-- The entry's time range, if it has one. -/
def AccessControlEntry.timeRange? (ace : AccessControlEntry) : Option TimeRange :=
  ace.conditions.bind AccessConditions.timeRange

/-- The entry's custom predicate, if it has one. -/
def AccessControlEntry.custom? (ace : AccessControlEntry) : Option (Json → Bool) :=
  ace.conditions.bind AccessConditions.custom

/-- The custom predicate, if there is one, is given a context and accepts it. -/
def AccessControlEntry.Accepts (ace : AccessControlEntry) (context : Option Json) : Prop :=
  ∀ custom ∈ ace.custom?, ∃ value ∈ context, custom value = true

/-- Everything the entry asks for is met. -/
structure AccessControlEntry.Permits (ace : AccessControlEntry) (now hour : ℕ)
    (permission : Permission) (context : Option Json) : Prop where
  current : ∀ t ∈ ace.expiresAt, (now : ℚ) ≤ t
  granted : ace.permissions.get permission = true
  inHours : ∀ r ∈ ace.timeRange?, r.startHour ≤ (hour : ℚ) ∧ (hour : ℚ) < r.endHour
  accepted : ace.Accepts context

section Entries

variable {ace : AccessControlEntry} {now hour : ℕ} {queueName : String} {permission : Permission}
  {context : Option Json}

theorem timeRange?_parsed (ace : AccessControlEntry) : ace.parsed.timeRange? = ace.timeRange? := by
  cases h : ace.conditions with
  | none => simp [AccessControlEntry.timeRange?, AccessControlEntry.parsed, h]
  | some conditions => simp [AccessControlEntry.timeRange?, AccessControlEntry.parsed, h]

/-- No predicate comes through. -/
theorem custom?_parsed (ace : AccessControlEntry) : ace.parsed.custom? = none := by
  cases h : ace.conditions with
  | none => simp [AccessControlEntry.custom?, AccessControlEntry.parsed, h]
  | some conditions => simp [AccessControlEntry.custom?, AccessControlEntry.parsed, h]

/-- The conditions are checked as far as the entry has them. -/
theorem checkConditions_iff {conditions : AccessConditions} :
    checkConditions hour conditions context = true ↔
      (∀ r ∈ conditions.timeRange, r.startHour ≤ (hour : ℚ) ∧ (hour : ℚ) < r.endHour) ∧
        ∀ custom ∈ conditions.custom, ∀ value ∈ context, custom value = true := by
  unfold checkConditions
  split
  case isTrue hout =>
    simp only [Option.any_eq_true, Bool.or_eq_true, decide_eq_true_eq] at hout
    obtain ⟨r, hr, hout⟩ := hout
    refine iff_of_false (by simp) fun h => ?_
    obtain ⟨hstart, hend⟩ := h.1 r hr
    rcases hout with hout | hout
    · exact absurd hstart (not_le.mpr hout)
    · exact absurd hend (not_lt.mpr hout)
  case isFalse hin =>
    have hhours : ∀ r ∈ conditions.timeRange,
        r.startHour ≤ (hour : ℚ) ∧ (hour : ℚ) < r.endHour := by
      intro r hr
      simp only [Option.any_eq_true, Bool.or_eq_true, decide_eq_true_eq, not_exists, not_and,
        not_or, not_lt, not_le] at hin
      exact hin r hr
    cases hcustom : conditions.custom with
    | none => simpa using hhours
    | some custom =>
      cases context with
      | none => simpa using hhours
      | some value => simpa using fun _ => hhours

/-- **What an entry allows.** The entry a check looks at allows it if the pattern matches the queue
and everything but the predicate is met; the predicate is asked only where there is a context. -/
theorem isAceAllowed_iff :
    isAceAllowed now hour ace queueName permission context = true ↔
      matchesPattern '*' queueName.toList ace.queuePattern.toList = true ∧
        ace.permissions.get permission = true ∧ (∀ t ∈ ace.expiresAt, (now : ℚ) ≤ t) ∧
        (∀ r ∈ ace.timeRange?, r.startHour ≤ (hour : ℚ) ∧ (hour : ℚ) < r.endHour) ∧
        ∀ custom ∈ ace.custom?, ∀ value ∈ context, custom value = true := by
  have hconditions : ace.conditions.all (fun c => checkConditions hour c context) = true ↔
      (∀ r ∈ ace.timeRange?, r.startHour ≤ (hour : ℚ) ∧ (hour : ℚ) < r.endHour) ∧
        ∀ custom ∈ ace.custom?, ∀ value ∈ context, custom value = true := by
    cases h : ace.conditions with
    | none => simp [AccessControlEntry.timeRange?, AccessControlEntry.custom?, h]
    | some conditions =>
      rw [Option.all_some, checkConditions_iff]
      simp [AccessControlEntry.timeRange?, AccessControlEntry.custom?, h]
  simp only [isAceAllowed, Bool.and_eq_true, hconditions, Option.all_eq_true, decide_eq_true_eq,
    and_assoc, Option.mem_def]

/-- A stored entry that allows a check permits it, but for the predicate. -/
theorem permits_of_parsed (h : isAceAllowed now hour ace.parsed queueName permission context = true)
    (haccepts : ace.Accepts context) : ace.Permits now hour permission context := by
  obtain ⟨-, hgranted, hcurrent, hhours, -⟩ := isAceAllowed_iff.mp h
  rw [timeRange?_parsed] at hhours
  exact ⟨hcurrent, hgranted, hhours, haccepts⟩

end Entries

/-! ## Histories -/

/-- What happens to a manager: a call, or a restart, after which nothing is cached. -/
inductive Event (ε : Type)
  | call (c : Call ε)
  | restart

section Runs

variable {ε : Type} (keyPrefix : String) (scan : Scan AccessControlEntry) (localHour : ℕ → ℕ)

/-- What an event does. -/
def Manager.after (m : Manager) : Event ε → Manager
  | .call c => ((c.perform keyPrefix scan localHour).run m.begin).2
  | .restart => { m with aclCache := fun _ => none }

/-- The manager at the end of a history that begins with an empty Redis. -/
def reached (history : List (Event ε)) : Manager :=
  history.foldl (Manager.after keyPrefix scan localHour) .new

/-- Every allowed check for which `ace`, once granted, is the only entry of its principal that
matches the queue is one that `ace` permits. -/
def Enforced (ε : Type) (ace : AccessControlEntry) (now : ℕ) (queueName : String)
    (permission : Permission) (context : Option Json) : Prop :=
  ∀ (history : List (Event ε)) (answers : ℕ → Answer ε) (found : List AccessControlEntry)
    (m' : Manager),
    (∃ c, .call c ∈ history ∧ c.op = .grantAccess ace) →
    (getPrincipalAccess keyPrefix scan answers now ace.principalId).run
      (reached keyPrefix scan localHour history).begin = (.ok found, m') →
    (∀ entry ∈ found, matchesPattern '*' queueName.toList entry.queuePattern.toList = true →
      entry = ace.parsed) →
    ((checkAccess keyPrefix scan answers now localHour ace.principalId queueName permission
      context).run (reached keyPrefix scan localHour history).begin).1 = .ok true →
    ace.Permits now (localHour now) permission context

/-- The key of the entry is among those looked up for its principal. -/
def AccessControlEntry.IsVisibleTo (ace : AccessControlEntry) (principalId : String) : Prop :=
  KeyMatches (accessPattern keyPrefix principalId)
    (buildACEKey keyPrefix ace.principalId ace.queuePattern)

instance (ace : AccessControlEntry) (principalId : String) :
    Decidable (ace.IsVisibleTo keyPrefix principalId) :=
  inferInstanceAs (Decidable (KeyMatches _ _))

/-- An entry is stored under its own key, and cached only where that key is looked up. -/
structure Manager.Filed (keyPrefix : String) (m : Manager) : Prop where
  stored : ∀ {key e}, m.redis.server.lookup key = some e →
    key = buildACEKey keyPrefix e.value.principalId e.value.queuePattern
  cached : ∀ {principalId aces}, m.aclCache principalId = some aces →
    ∀ ace ∈ aces, ace.IsVisibleTo keyPrefix principalId

variable {keyPrefix}

theorem filed_new : Manager.new.Filed keyPrefix where
  stored h := by simp [Manager.new] at h
  cached h := by simp [Manager.new] at h

theorem Manager.Filed.begin {m : Manager} (h : m.Filed keyPrefix) : m.begin.Filed keyPrefix :=
  ⟨h.stored, h.cached⟩

/-- A write that files what it stores. -/
theorem filed_writeThrough {m : Manager} (h : m.Filed keyPrefix) (answers : ℕ → Answer ε)
    (principalId : String) {write : Store AccessControlEntry → Store AccessControlEntry}
    (hwrite : ∀ {key e}, (write m.redis.server).lookup key = some e →
      key = buildACEKey keyPrefix e.value.principalId e.value.queuePattern) :
    ((writeThrough answers principalId write).run m).2.Filed keyPrefix := by
  obtain ⟨hserver, hcache⟩ := writeThrough_snd answers principalId write m
  constructor
  · intro key e he
    rw [hserver] at he
    split at he
    · exact hwrite he
    · exact h.stored he
  · intro p aces haces
    rw [hcache] at haces
    split at haces
    · by_cases hp : p = principalId
      · subst hp
        simp at haces
      · rw [Function.update_of_ne hp] at haces
        exact h.cached haces
    · exact h.cached haces

theorem aclCache_cache (m : Manager) (principalId p : String) (aces : List AccessControlEntry) :
    (m.cache principalId aces).aclCache p =
      if p = principalId then some aces else m.aclCache p :=
  Function.update_apply ..

/-- What is found for a principal is visible to it. -/
theorem filed_getPrincipalAccess {m : Manager} (h : m.Filed keyPrefix) (answers : ℕ → Answer ε)
    (now : ℕ) (principalId : String) :
    ∃ found m', (getPrincipalAccess keyPrefix scan answers now principalId).run m =
        (.ok found, m') ∧ m'.Filed keyPrefix ∧
      ∀ ace ∈ found, ace.IsVisibleTo keyPrefix principalId := by
  cases hc : m.aclCache principalId with
  | some cached =>
    exact ⟨cached, m, getPrincipalAccess_of_cached keyPrefix scan now hc, h, h.cached hc⟩
  | none =>
    by_cases hr : m.Readable keyPrefix scan now answers principalId
    · obtain ⟨n, hrun⟩ := getPrincipalAccess_of_readable keyPrefix scan now hc hr
      have hvisible : ∀ ace ∈ (m.principalKeys keyPrefix scan now principalId).filterMap
          (m.redis.server.get now), ace.IsVisibleTo keyPrefix principalId := by
        intro ace hace
        obtain ⟨key, hkey, hget⟩ := List.mem_filterMap.mp hace
        obtain ⟨e, he, -, rfl⟩ := Store.get_eq_some.mp hget
        have hname := h.stored he
        subst hname
        exact (Store.mem_keys.mp hkey).2
      refine ⟨_, _, hrun, ⟨h.stored, fun {p aces} haces => ?_⟩, hvisible⟩
      rw [aclCache_cache] at haces
      split at haces
      case isTrue hp =>
        obtain rfl := Option.some.inj haces
        rw [hp]
        exact hvisible
      case isFalse => exact h.cached haces
    · obtain ⟨n, hrun⟩ := getPrincipalAccess_of_not_readable keyPrefix scan now hc hr
      exact ⟨[], _, hrun, ⟨h.stored, h.cached⟩, by simp⟩

variable {scan localHour}

/-- A call files what it stores and caches. -/
theorem filed_perform {m : Manager} (h : m.Filed keyPrefix) (c : Call ε) :
    ((c.perform keyPrefix scan localHour).run m).2.Filed keyPrefix := by
  unfold Call.perform
  cases hop : c.op with
  | grantAccess ace =>
    rw [Async.run_bind_pure]
    refine filed_writeThrough h c.answers ace.principalId fun {key e} he => ?_
    rw [Store.lookup_set] at he
    split at he
    case isTrue hkey =>
      obtain rfl := Option.some.inj he
      exact hkey
    case isFalse => exact h.stored he
  | revokeAccess principalId queuePattern =>
    rw [Async.run_bind_pure]
    refine filed_writeThrough h c.answers principalId fun {key e} he => ?_
    rw [Store.lookup_del] at he
    split at he
    case isTrue => simp at he
    case isFalse => exact h.stored he
  | checkAccess principalId queueName permission context =>
    obtain ⟨found, m', hrun, hfiled, -⟩ :=
      filed_getPrincipalAccess scan h c.answers c.now principalId
    simp only [Async.run_bind_pure, checkAccess_of_eq keyPrefix scan c.now hrun]
    exact hfiled

theorem filed_after {m : Manager} (h : m.Filed keyPrefix) (e : Event ε) :
    (m.after keyPrefix scan localHour e).Filed keyPrefix := by
  cases e with
  | call c => exact filed_perform h.begin c
  | restart =>
    refine ⟨h.stored, fun {principalId aces} h' => ?_⟩
    simp [Manager.after] at h'

/-- In every history an entry is found only where its key is looked up. -/
theorem filed_reached (history : List (Event ε)) :
    (reached keyPrefix scan localHour history).Filed keyPrefix := by
  unfold reached
  induction history using List.reverseRecOn with
  | nil => exact filed_new
  | append_singleton history e ih =>
    rw [List.foldl_append]
    exact filed_after ih e

/-! ## Which checks an entry governs -/

/-- One grant, answered. -/
def granting (ε : Type) (ace : AccessControlEntry) (now : ℕ) : List (Event ε) :=
  [.call ⟨.grantAccess ace, now, fun _ => .answered⟩]

theorem mem_granting (ace : AccessControlEntry) (now : ℕ) :
    ∃ c, .call c ∈ granting ε ace now ∧ c.op = .grantAccess ace :=
  ⟨_, List.mem_singleton_self _, rfl⟩

variable (scan localHour)

/-- After one grant nothing but the entry is stored, and nothing is cached. -/
theorem reached_granting (ace : AccessControlEntry) (now : ℕ) :
    (∀ key, (reached keyPrefix scan localHour (granting ε ace now)).redis.server.lookup key =
        if key = buildACEKey keyPrefix ace.principalId ace.queuePattern then
          some ⟨ace.parsed, some (now + aceLifetime)⟩
        else none) ∧
      (reached keyPrefix scan localHour (granting ε ace now)).aclCache = fun _ => none := by
  obtain ⟨hserver, hcache⟩ := writeThrough_snd (fun _ => (.answered : Answer ε)) ace.principalId
    (fun r => r.set (buildACEKey keyPrefix ace.principalId ace.queuePattern) ace.parsed
      (some (now + aceLifetime))) Manager.new.begin
  rw [if_pos (by trivial)] at hserver hcache
  have hreached : reached keyPrefix scan localHour (granting ε ace now) =
      ((writeThrough (fun _ => (.answered : Answer ε)) ace.principalId fun r =>
        r.set (buildACEKey keyPrefix ace.principalId ace.queuePattern) ace.parsed
          (some (now + aceLifetime))).run Manager.new.begin).2 := by
    simp only [reached, granting, List.foldl_cons, List.foldl_nil, Manager.after, Call.perform,
      Async.run_bind_pure, grantAccess]
  rw [hreached, hcache]
  refine ⟨fun key => ?_, ?_⟩
  · rw [hserver, Store.lookup_set]
    rfl
  · exact Function.update_eq_self_iff.mpr rfl

/-- After one grant the entry, if it is visible, is all that is found. -/
theorem found_granting {ace : AccessControlEntry}
    (hvisible : ace.IsVisibleTo keyPrefix ace.principalId) (now : ℕ) :
    ∃ found m', (getPrincipalAccess keyPrefix scan (fun _ => (.answered : Answer ε)) now
        ace.principalId).run (reached keyPrefix scan localHour (granting ε ace now)).begin =
          (.ok found, m') ∧
      (∀ entry ∈ found, entry = ace.parsed) ∧ ace.parsed ∈ found := by
  obtain ⟨hlookup, hcache⟩ := reached_granting (ε := ε) scan localHour ace now
  generalize reached keyPrefix scan localHour (granting ε ace now) = m at hlookup hcache ⊢
  have hlookup : ∀ key, m.begin.redis.server.lookup key = _ := hlookup
  have hempty : m.begin.aclCache ace.principalId = none := congrFun hcache ace.principalId
  have hreadable : m.begin.Readable keyPrefix scan now (fun _ => (.answered : Answer ε))
      ace.principalId := fun _ _ => trivial
  obtain ⟨n, hrun⟩ := getPrincipalAccess_of_readable keyPrefix scan now hempty hreadable
  refine ⟨_, _, hrun, fun entry hentry => ?_, ?_⟩
  · obtain ⟨key, -, hget⟩ := List.mem_filterMap.mp hentry
    obtain ⟨e, he, -, rfl⟩ := Store.get_eq_some.mp hget
    rw [hlookup] at he
    split at he
    case isTrue => rw [← Option.some.inj he]
    case isFalse => simp at he
  · have hget : m.begin.redis.server.get now
        (buildACEKey keyPrefix ace.principalId ace.queuePattern) = some ace.parsed := by
      refine Store.get_eq_some.mpr ⟨⟨ace.parsed, some (now + aceLifetime)⟩, ?_, ?_, rfl⟩
      · rw [hlookup, if_pos rfl]
      · simp [Entry.IsLive, aceLifetime]
    refine List.mem_filterMap.mpr ⟨_, Store.mem_keys.mpr ⟨?_, hvisible⟩, hget⟩
    rw [hget]
    rfl

variable {scan localHour}

/-- **When the conditions of an entry are enforced.** An entry governs the checks it is to govern
exactly if its custom predicate, where it has one, accepts the context that is given, or it refuses
the check for another reason, or its principal does not see it. -/
theorem enforced_iff {ace : AccessControlEntry} {now : ℕ} {queueName : String}
    {permission : Permission} {context : Option Json} :
    Enforced keyPrefix scan localHour ε ace now queueName permission context ↔
      ace.Accepts context ∨
        isAceAllowed now (localHour now) ace.parsed queueName permission context = false ∨
        ¬ ace.IsVisibleTo keyPrefix ace.principalId := by
  constructor
  · intro h
    by_contra hnot
    push Not at hnot
    obtain ⟨haccepts, hallowed, hvisible⟩ := hnot
    obtain ⟨found, m', hrun, honly, hmem⟩ :=
      found_granting (ε := ε) scan localHour hvisible now
    refine haccepts (h (granting ε ace now) (fun _ => .answered) found m' (mem_granting ace now)
      hrun (fun entry hentry _ => honly entry hentry) ?_).accepted
    rw [checkAccess_of_eq keyPrefix scan now hrun]
    exact congrArg Except.ok (List.any_eq_true.mpr ⟨_, hmem, by simpa using hallowed⟩)
  · intro h history answers found m' _ hrun honly hchecked
    rw [checkAccess_of_eq keyPrefix scan now hrun] at hchecked
    obtain ⟨entry, hentry, hallowed⟩ := List.any_eq_true.mp (Except.ok.inj hchecked)
    obtain rfl := honly entry hentry (isAceAllowed_iff.mp hallowed).1
    rcases h with haccepts | hrefused | hhidden
    · exact permits_of_parsed hallowed haccepts
    · rw [hrefused] at hallowed
      simp at hallowed
    · obtain ⟨found', m'', hrun', -, hvisible⟩ := filed_getPrincipalAccess scan
        (filed_reached history).begin answers now ace.principalId
      obtain rfl := Except.ok.inj (Prod.mk.inj (hrun.symm.trans hrun')).1
      exact absurd (hvisible _ hentry) hhidden

end Runs

/-- A grant of everything to `alice`, with a predicate that refuses every context. -/
def grantNothing : AccessControlEntry :=
  { grantAll "alice" "*" with conditions := some { custom := some fun _ => false } }

/-- **A custom predicate is not enforced**: the check is allowed that it refuses. -/
theorem not_enforced_custom :
    ¬ Enforced "acl" Scan.stored utcHour String grantNothing 0 "emails" .canAddJob
      (some (.obj [])) := by
  intro h
  have hvisible : grantNothing.IsVisibleTo "acl" grantNothing.principalId := by decide
  obtain ⟨found, m', hrun, honly, hmem⟩ :=
    found_granting (ε := String) Scan.stored utcHour hvisible 0
  have hpermits := h (granting String grantNothing 0) (fun _ => .answered) found m'
    (mem_granting grantNothing 0) hrun (fun entry hentry _ => honly entry hentry) ?_
  · obtain ⟨value, -, hfalse⟩ := hpermits.accepted (fun _ => false) rfl
    simp at hfalse
  · rw [checkAccess_of_eq "acl" Scan.stored 0 hrun]
    refine congrArg Except.ok (List.any_eq_true.mpr ⟨_, hmem, ?_⟩)
    simp [isAceAllowed, grantNothing, grantAll, AccessControlEntry.parsed, checkConditions,
      matchesPattern, QueuePermissions.get]

end KitiumJobQueue.AccessControl
