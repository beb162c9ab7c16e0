import KitiumJobQueue.AccessControl.Isolation
import KitiumJobQueue.Redis.Client

/-!
# Where access comes from

The access methods of `AccessControlManager` as coroutines: any number of calls for any principals,
interleaved at their waits, with Redis rejecting any command. Whatever they do, an entry that is
stored, cached or listed was granted by some call, and a check is allowed only by such an entry,
found under a key that the pattern of the principal matches (`answered_of_run`). Where ids hold
neither a colon nor a glob letter, that entry was granted to the principal itself
(`granted_of_run`).
-/

namespace KitiumJobQueue.AccessControl.Provenance

open Effects Redis Redis.Client

/-- `aclCache` -/
abbrev Cache := String → Option (List AccessControlEntry)

/-- An asynchronous method of the manager. -/
abbrev Method (ε α : Type) := Client.Method ε Cache AccessControlEntry α

variable {ε : Type} (scan : Scan AccessControlEntry) (keyPrefix : String) (localHour : ℕ → ℕ)

/-! ## Methods -/

/-- `grantAccess` -/
def grantAccess (ace : AccessControlEntry) : Method ε Unit := do
  ask (.set (buildACEKey keyPrefix ace.principalId ace.queuePattern) ace.parsed (some aceLifetime))
  .modify fun cache => Function.update cache ace.principalId none

/-- `revokeAccess` -/
def revokeAccess (principalId queuePattern : String) : Method ε Unit := do
  ask (.del (buildACEKey keyPrefix principalId queuePattern))
  .modify fun cache => Function.update cache principalId none

/-- The loop of `getPrincipalAccess` over the keys, and that of `getQueueAccess` where it keeps
only the entries of a queue. -/
def readAces (keep : AccessControlEntry → Bool) :
    List String → List AccessControlEntry → Method ε (List AccessControlEntry)
  | [], aces => pure aces
  | key :: keys, aces => do
    let data ← ask (.get key)
    readAces keep keys (aces ++ data.toList.filter keep)

/-- What `getPrincipalAccess` does when nothing is cached. -/
def loadPrincipalAccess (principalId : String) : Method ε (List AccessControlEntry) := do
  let keys ← ask (.keys (accessPattern keyPrefix principalId))
  let aces ← readAces (fun _ => true) keys []
  .modify fun cache => Function.update cache principalId (some aces)
  pure aces

/-- `getPrincipalAccess` -/
def getPrincipalAccess (principalId : String) : Method ε (List AccessControlEntry) :=
  tryCatch
    (do
      let cached ← .read fun cache : Cache => cache principalId
      match cached with
      | some cached => pure cached
      | none => loadPrincipalAccess keyPrefix principalId)
    fun _ => pure []

/-- The loop of `checkAccess` over the entries; `isAceAllowed` reads the clock for each. -/
def findAllowed (queueName : String) (permission : Permission) (context : Option Json) :
    List AccessControlEntry → Method ε Bool
  | [] => pure false
  | ace :: aces => do
    let now ← ask .now
    if isAceAllowed now (localHour now) ace queueName permission context then pure true
    else findAllowed queueName permission context aces

/-- `checkAccess` -/
def checkAccess (principalId queueName : String) (permission : Permission)
    (context : Option Json) : Method ε Bool :=
  tryCatch
    (do
      let aces ← getPrincipalAccess keyPrefix principalId
      findAllowed localHour queueName permission context aces)
    fun _ => pure false

/-- The pattern of all entries. -/
def allAccessPattern : String := keyPrefix ++ ":ace:*:*"

/-- `getQueueAccess` -/
def getQueueAccess (queueName : String) : Method ε (List AccessControlEntry) :=
  tryCatch
    (do
      let keys ← ask (.keys (allAccessPattern keyPrefix))
      readAces (fun ace => matchesPattern '*' queueName.toList ace.queuePattern.toList) keys [])
    fun _ => pure []

/-! ## The manager -/

/-- A call of a method. -/
inductive Request
  | grantAccess (ace : AccessControlEntry)
  | revokeAccess (principalId queuePattern : String)
  | getPrincipalAccess (principalId : String)
  | checkAccess (principalId queueName : String) (permission : Permission) (context : Option Json)
  | getQueueAccess (queueName : String)

/-- What a call resolves with. -/
inductive Result
  | done
  | aces (aces : List AccessControlEntry)
  | allowed (allowed : Bool)

/-- The method a call runs. -/
def Request.method : Request → Method ε Result
  | .grantAccess ace => do
    Provenance.grantAccess keyPrefix ace
    pure .done
  | .revokeAccess principalId queuePattern => do
    Provenance.revokeAccess keyPrefix principalId queuePattern
    pure .done
  | .getPrincipalAccess principalId => do
    let aces ← Provenance.getPrincipalAccess keyPrefix principalId
    pure (.aces aces)
  | .checkAccess principalId queueName permission context => do
    let allowed ← Provenance.checkAccess keyPrefix localHour principalId queueName permission
      context
    pure (.allowed allowed)
  | .getQueueAccess queueName => do
    let aces ← Provenance.getQueueAccess keyPrefix queueName
    pure (.aces aces)

/-- The manager, Redis and the calls made so far. -/
abbrev World (ε : Type) :=
  Pool ε Cache (Store AccessControlEntry) (Reply (V := AccessControlEntry)) Request Result

/-- A manager under any interleaving of its calls. -/
def system : System (World ε) (PoolEvent Request (Choice ε)) :=
  Pool.system (serve scan) (Request.method keyPrefix localHour)

/-- Nothing is stored or cached, and nothing was called. -/
def World.init : World ε := { memory := fun _ => none, server := .empty }

/-! ## What was granted -/

variable {scan keyPrefix localHour} {Called : Request → Prop}

/-- What is stored of an entry that some call granted, under the key of that entry. -/
def GrantedUnder (keyPrefix : String) (Called : Request → Prop) (key : String)
    (stored : AccessControlEntry) : Prop :=
  ∃ ace, Called (.grantAccess ace) ∧ stored = ace.parsed ∧
    key = buildACEKey keyPrefix ace.principalId ace.queuePattern

/-- What is stored of an entry that some call granted, under a key that the pattern matches. -/
def GrantedIn (keyPrefix : String) (Called : Request → Prop) (pattern : String)
    (stored : AccessControlEntry) : Prop :=
  ∃ key, KeyMatches pattern key ∧ GrantedUnder keyPrefix Called key stored

/-- All these entries were granted, and are found by the pattern of the principal. -/
def AllGranted (keyPrefix : String) (Called : Request → Prop) (principalId : String)
    (aces : List AccessControlEntry) : Prop :=
  ∀ ace ∈ aces, GrantedIn keyPrefix Called (accessPattern keyPrefix principalId) ace

/-- Every cached entry was granted. -/
def CachesGranted (keyPrefix : String) (Called : Request → Prop) (cache : Cache) : Prop :=
  ∀ principalId, ∀ aces ∈ cache principalId, AllGranted keyPrefix Called principalId aces

/-- While others do likewise, the method stores and caches only what was granted, and what it
resolves with meets `Q`. -/
abbrev Grants (ε : Type) (scan : Scan AccessControlEntry) (keyPrefix : String)
    (Called : Request → Prop) {α : Type} (Q : α → Prop) (m : Method ε α) : Prop :=
  Safely scan (CachesGranted keyPrefix Called) (GrantedUnder keyPrefix Called) Q m

/-- Forgetting and caching. -/
theorem grants_cache (principalId : String) {cached : Option (List AccessControlEntry)}
    (hcached : ∀ aces ∈ cached, AllGranted keyPrefix Called principalId aces) :
    Grants ε scan keyPrefix Called (fun _ => True)
      (.modify fun cache => Function.update cache principalId cached) := by
  refine safely_modify fun cache hcache p aces haces => ?_
  by_cases hp : p = principalId
  · subst hp
    exact hcached aces ((Function.update_self p _ cache).symm.trans haces)
  · exact hcache p aces ((Function.update_of_ne hp _ cache).symm.trans haces)

/-! ## What the methods ensure -/

/-- The loop, by induction on the keys that are left. -/
theorem grants_readAces {keep : AccessControlEntry → Bool} {pattern : String} {keys : List String}
    (hkeys : ∀ key ∈ keys, KeyMatches pattern key) {aces : List AccessControlEntry}
    (haces : ∀ ace ∈ aces, GrantedIn keyPrefix Called pattern ace ∧ keep ace = true) :
    Grants ε scan keyPrefix Called
      (fun aces => ∀ ace ∈ aces, GrantedIn keyPrefix Called pattern ace ∧ keep ace = true)
      (readAces keep keys aces) := by
  induction keys generalizing aces with
  | nil => exact .pure haces
  | cons key keys ih =>
    obtain ⟨hkey, hkeys⟩ := List.forall_mem_cons.mp hkeys
    refine .bind (safely_get key) fun data hdata => ih hkeys fun ace hace => ?_
    rcases List.mem_append.mp hace with hace | hace
    · exact haces ace hace
    · obtain ⟨hdatum, hkeep⟩ := List.mem_filter.mp hace
      exact ⟨⟨key, hkey, hdata ace (Option.mem_toList.mp hdatum)⟩, hkeep⟩

theorem grants_loadPrincipalAccess (principalId : String) :
    Grants ε scan keyPrefix Called (AllGranted keyPrefix Called principalId)
      (loadPrincipalAccess keyPrefix principalId) := by
  refine .bind (safely_keys _) fun keys hkeys => ?_
  refine .bind (grants_readAces hkeys.2 (List.forall_mem_nil _)) fun aces haces => ?_
  have hgranted : AllGranted keyPrefix Called principalId aces := fun ace hace => (haces ace hace).1
  refine .bind (grants_cache principalId fun cached hcached => ?_) fun _ _ => .pure hgranted
  obtain rfl := Option.some.inj hcached
  exact hgranted

theorem grants_getPrincipalAccess (principalId : String) :
    Grants ε scan keyPrefix Called (AllGranted keyPrefix Called principalId)
      (getPrincipalAccess keyPrefix principalId) := by
  refine .handle (.read_bind fun w hw => ?_) fun _ => .pure (List.forall_mem_nil _)
  cases hcached : w.memory principalId with
  | some cached => exact .pure (hw.memory principalId cached hcached)
  | none => exact grants_loadPrincipalAccess principalId

/-- The loop, by induction on the entries that are left. -/
theorem grants_findAllowed (queueName : String) (permission : Permission) (context : Option Json)
    (aces : List AccessControlEntry) :
    Grants ε scan keyPrefix Called
      (fun allowed => allowed = true → ∃ ace ∈ aces, ∃ now,
        isAceAllowed now (localHour now) ace queueName permission context = true)
      (findAllowed localHour queueName permission context aces) := by
  induction aces with
  | nil => exact .pure nofun
  | cons ace aces ih =>
    refine .bind safely_now fun now _ => ?_
    show Ensures _ _ _ _ (if _ then _ else _)
    split
    · next hallowed => exact .pure fun _ => ⟨ace, List.mem_cons_self, now, hallowed⟩
    · refine ih.mono fun allowed hallowed hres => ?_
      obtain ⟨ace', hace', now', h⟩ := hallowed hres
      exact ⟨ace', List.mem_cons_of_mem ace hace', now', h⟩

theorem grants_checkAccess (principalId queueName : String) (permission : Permission)
    (context : Option Json) :
    Grants ε scan keyPrefix Called
      (fun allowed => allowed = true →
        ∃ ace now, GrantedIn keyPrefix Called (accessPattern keyPrefix principalId) ace ∧
          isAceAllowed now (localHour now) ace queueName permission context = true)
      (checkAccess keyPrefix localHour principalId queueName permission context) := by
  refine .handle (.bind (grants_getPrincipalAccess principalId) fun aces haces => ?_)
    fun _ => .pure nofun
  refine (grants_findAllowed queueName permission context aces).mono fun allowed hfound hres => ?_
  obtain ⟨ace, hace, now, h⟩ := hfound hres
  exact ⟨ace, now, haces ace hace, h⟩

theorem grants_getQueueAccess (queueName : String) :
    Grants ε scan keyPrefix Called
      (fun aces => ∀ ace ∈ aces, GrantedIn keyPrefix Called (allAccessPattern keyPrefix) ace ∧
        matchesPattern '*' queueName.toList ace.queuePattern.toList = true)
      (getQueueAccess keyPrefix queueName) := by
  refine .handle (.bind (safely_keys _) fun keys hkeys => ?_)
    fun _ => .pure (List.forall_mem_nil _)
  exact grants_readAces hkeys.2 (List.forall_mem_nil _)

/-- What a call resolves with: entries that were granted, a permission that one of them gives. -/
def Answered (keyPrefix : String) (localHour : ℕ → ℕ) (Called : Request → Prop) :
    Request → Result → Prop
  | .getPrincipalAccess principalId, result =>
    ∃ aces, result = .aces aces ∧ AllGranted keyPrefix Called principalId aces
  | .checkAccess principalId queueName permission context, result =>
    ∃ allowed, result = .allowed allowed ∧ (allowed = true →
      ∃ ace now, GrantedIn keyPrefix Called (accessPattern keyPrefix principalId) ace ∧
        isAceAllowed now (localHour now) ace queueName permission context = true)
  | .getQueueAccess queueName, result =>
    ∃ aces, result = .aces aces ∧
      ∀ ace ∈ aces, GrantedIn keyPrefix Called (allAccessPattern keyPrefix) ace ∧
        matchesPattern '*' queueName.toList ace.queuePattern.toList = true
  | .grantAccess _, result | .revokeAccess _ _, result => result = .done

theorem grants_method {request : Request} (hcalled : Called request) :
    Grants ε scan keyPrefix Called (Answered keyPrefix localHour Called request)
      (request.method keyPrefix localHour) := by
  cases request with
  | grantAccess ace =>
    refine .bind (P := fun _ => True) ?_ fun _ _ => .pure rfl
    exact .bind (safely_set ⟨ace, hcalled, rfl, rfl⟩ _) fun _ _ =>
      grants_cache ace.principalId nofun
  | revokeAccess principalId queuePattern =>
    refine .bind (P := fun _ => True) ?_ fun _ _ => .pure rfl
    exact .bind (safely_del _) fun _ _ => grants_cache principalId nofun
  | getPrincipalAccess principalId =>
    exact .bind (grants_getPrincipalAccess principalId) fun aces haces => .pure ⟨aces, rfl, haces⟩
  | checkAccess principalId queueName permission context =>
    exact .bind (grants_checkAccess principalId queueName permission context)
      fun allowed hallowed => .pure ⟨allowed, rfl, hallowed⟩
  | getQueueAccess queueName =>
    exact .bind (grants_getQueueAccess queueName) fun aces haces => .pure ⟨aces, rfl, haces⟩

/-! ## Runs -/

/-- In every run, what a call resolves with was granted by calls of that run. -/
theorem answered_of_run {es : List (PoolEvent Request (Choice ε))} {p : World ε}
    (h : (system scan keyPrefix localHour).runFrom .init es = some p) :
    ∀ t ∈ p.threads, ∀ result, t.stage = .settled (.ok result) →
      Answered keyPrefix localHour (fun request => .spawn request ∈ es) t.label result := by
  exact (safely_run (fun _ hcalled => grants_method hcalled) (fun _ _ haces => by cases haces)
    (fun _ hcalled => hcalled) h).2

/-- An id without colons and glob letters. -/
def IsPlainId (principalId : String) : Prop := ∀ c ∈ principalId.toList, ¬ IsMeta c ∧ c ≠ ':'

instance : DecidablePred IsPlainId := fun principalId =>
  decidable_of_iff (principalId.toList.all fun c => ¬ IsMeta c ∧ c ≠ ':')
    (by simp only [List.all_eq_true, decide_eq_true_iff, IsPlainId])

/-- The principal a call is about. -/
def Request.principalId? : Request → Option String
  | .grantAccess ace => some ace.principalId
  | .revokeAccess principalId _ | .getPrincipalAccess principalId
  | .checkAccess principalId _ _ _ => some principalId
  | .getQueueAccess _ => none

/-- Of two texts that hold no colon and are followed by one, neither begins the other unless they
are equal. -/
theorem eq_of_leading {a b c : List Char} (ha : ':' ∉ a) (hb : ':' ∉ b)
    (h : a ++ [':'] <+: b ++ ':' :: c) : a = b := by
  induction a generalizing b with
  | nil =>
    cases b with
    | nil => rfl
    | cons x b =>
      obtain ⟨hx, -⟩ := List.cons_prefix_cons.mp h
      exact absurd (hx ▸ List.mem_cons_self) hb
  | cons x a ih =>
    cases b with
    | nil =>
      obtain ⟨hx, -⟩ := List.cons_prefix_cons.mp h
      exact absurd (hx ▸ List.mem_cons_self) ha
    | cons y b =>
      obtain ⟨rfl, htail⟩ := List.cons_prefix_cons.mp h
      rw [ih (fun hc => ha (List.mem_cons_of_mem x hc)) (fun hc => hb (List.mem_cons_of_mem x hc))
        htail]

/-- What the pattern of a plain id finds was granted to that id. -/
theorem GrantedIn.of_plain {principalId : String} {stored : AccessControlEntry}
    (hplain : ∀ c ∈ keyPrefix.toList, ¬ IsMeta c) (hid : IsPlainId principalId)
    (hgranted : ∀ ace, Called (.grantAccess ace) → IsPlainId ace.principalId)
    (h : GrantedIn keyPrefix Called (accessPattern keyPrefix principalId) stored) :
    ∃ ace, Called (.grantAccess ace) ∧ ace.principalId = principalId ∧ stored = ace.parsed := by
  obtain ⟨_, hkey, ace, hcalled, rfl, rfl⟩ := h
  refine ⟨ace, hcalled, ?_, rfl⟩
  have hstarts := (keyMatches_iff_startsWith hplain (fun c hc => (hid c hc).1) _ _).mp hkey
  refine (String.toList_injective (eq_of_leading ?_ ?_ hstarts)).symm
  · exact fun hc => (hid ':' hc).2 rfl
  · exact fun hc => (hgranted ace hcalled ':' hc).2 rfl

/-- A result that goes back to grants of a run: entries listed for a principal were granted to it,
those listed for a queue were granted for it, and a permission comes from one of the principal's
own. -/
def GoesBack (localHour : ℕ → ℕ) (Called : Request → Prop) : Request → Result → Prop
  | .getPrincipalAccess principalId, result =>
    ∃ aces, result = .aces aces ∧ ∀ stored ∈ aces, ∃ ace, Called (.grantAccess ace) ∧
      ace.principalId = principalId ∧ stored = ace.parsed
  | .checkAccess principalId queueName permission context, result =>
    ∃ allowed, result = .allowed allowed ∧ (allowed = true → ∃ ace now, Called (.grantAccess ace) ∧
      ace.principalId = principalId ∧
      isAceAllowed now (localHour now) ace.parsed queueName permission context = true)
  | .getQueueAccess queueName, result =>
    ∃ aces, result = .aces aces ∧ ∀ stored ∈ aces, ∃ ace, Called (.grantAccess ace) ∧
      stored = ace.parsed ∧ matchesPattern '*' queueName.toList ace.queuePattern.toList = true
  | .grantAccess _, result | .revokeAccess _ _, result => result = .done

/-- **Nobody has access that was not granted to him.** However the calls of any number of principals
interleave, and whatever commands fail: where the prefix holds no glob letter and the ids neither
these nor a colon, what is answered about a principal goes back to grants made to that very
principal. -/
theorem granted_of_run (hplain : ∀ c ∈ keyPrefix.toList, ¬ IsMeta c)
    {es : List (PoolEvent Request (Choice ε))}
    (hids : ∀ request, .spawn request ∈ es → ∀ id ∈ request.principalId?, IsPlainId id)
    {p : World ε} (h : (system scan keyPrefix localHour).runFrom .init es = some p) :
    ∀ t ∈ p.threads, ∀ result, t.stage = .settled (.ok result) →
      GoesBack localHour (fun request => .spawn request ∈ es) t.label result := by
  intro t ht result hstage
  have hanswered := answered_of_run h t ht result hstage
  have hspawned := labels_of_run (P := fun request => .spawn request ∈ es) (fun _ hl => hl) h t ht
  have hgranted (ace : AccessControlEntry) (hace : .spawn (.grantAccess ace) ∈ es) :
      IsPlainId ace.principalId := hids _ hace _ rfl
  cases hlabel : t.label with
  | grantAccess ace => rwa [hlabel] at hanswered
  | revokeAccess principalId queuePattern => rwa [hlabel] at hanswered
  | getPrincipalAccess principalId =>
    rw [hlabel] at hanswered hspawned
    obtain ⟨aces, rfl, haces⟩ := hanswered
    exact ⟨aces, rfl, fun stored hstored =>
      (haces stored hstored).of_plain hplain (hids _ hspawned _ rfl) hgranted⟩
  | checkAccess principalId queueName permission context =>
    rw [hlabel] at hanswered hspawned
    obtain ⟨allowed, rfl, hallowed⟩ := hanswered
    refine ⟨allowed, rfl, fun htrue => ?_⟩
    obtain ⟨stored, now, hstored, hnow⟩ := hallowed htrue
    obtain ⟨ace, hace, hid, rfl⟩ := hstored.of_plain hplain (hids _ hspawned _ rfl) hgranted
    exact ⟨ace, now, hace, hid, hnow⟩
  | getQueueAccess queueName =>
    rw [hlabel] at hanswered
    obtain ⟨aces, rfl, haces⟩ := hanswered
    refine ⟨aces, rfl, fun stored hstored => ?_⟩
    obtain ⟨⟨_, -, ace, hace, rfl, -⟩, hmatches⟩ := haces stored hstored
    exact ⟨ace, hace, rfl, hmatches⟩

/-- Entries are granted to two principals, the second of which is checked while a revocation of the
first fails and the queue is listed. -/
def grantedRun : List (PoolEvent Request (Choice String)) :=
  [.spawn (.grantAccess (grantAll "alice" "mail*")), .exec 0 {},
    .spawn (.grantAccess (grantAll "bob" "mail")), .exec 1 {}, .resume 1, .resume 0,
    .spawn (.checkAccess "bob" "mail" .canAddJob none), .exec 2 {},
    .spawn (.revokeAccess "alice" "mail*"),
    .exec 3 { answer := .rejected "ECONNRESET" false }, .resume 2, .exec 2 {},
    .spawn (.getQueueAccess "mail"), .exec 4 {}, .resume 2, .exec 2 {}, .resume 2, .resume 3]

theorem isSome_grantedRun :
    ((system Scan.stored "acl" utcHour).runFrom .init grantedRun).isSome := by
  decide +kernel

/-- What is answered about `bob` goes back to what he was granted. -/
theorem granted_of_grantedRun :
    ∃ p, (system Scan.stored "acl" utcHour).runFrom .init grantedRun = some p ∧
      ∀ t ∈ p.threads, ∀ result, t.stage = .settled (.ok result) →
        GoesBack utcHour (fun request => .spawn request ∈ grantedRun) t.label result := by
  have hplain : ∀ c ∈ "acl".toList, ¬ IsMeta c := not_isMeta_of_all (by decide)
  refine ⟨_, (Option.some_get isSome_grantedRun).symm,
    granted_of_run hplain ?_ (Option.some_get isSome_grantedRun).symm⟩
  intro request hrequest id hid
  simp only [grantedRun, List.mem_cons, reduceCtorEq, PoolEvent.spawn.injEq, false_or,
    List.not_mem_nil, or_false] at hrequest
  rcases hrequest with rfl | rfl | rfl | rfl | rfl <;> cases hid <;> decide

end KitiumJobQueue.AccessControl.Provenance
