import KitiumJobQueue.AccessControl.Tenants
import KitiumJobQueue.Foundations.CommandSums

/-!
# The directory of tenants

The calls of an `AccessControlManager` about any number of tenants, and `listTenants`, which looks
through all of them with a command of its own. The calls overlap, and Redis may reject any command.

What is stored under the key of a tenant is what calls about that tenant have made of it: a
configuration it was created with, changed by updates of it (`Made`). So a tenant that is returned
is the one that was asked for, and `listTenants` lists no tenant twice, even while others write
(`listed_of_run`).
-/

namespace KitiumJobQueue.AccessControl.Directory

open Effects JavaScript Redis Tenants

variable (scan : Scan StoredTenant) (keyPrefix : String)

/-! ## Commands -/

/-- What Redis does on a command about a tenant. -/
def serveTenant : Serve Thrown (Store StoredTenant) (Choice Thrown) Reply :=
  fun v c s => (perform v.answer fun s => respond v.now c s).run s

/-- What Redis does on `KEYS`. -/
def serveKeys : Serve Thrown (Store StoredTenant) (Choice Thrown) fun _ : String => List String :=
  fun v pattern s => (perform v.answer fun s => (s.keys scan v.now pattern, s)).run s

/-- An asynchronous method of the manager, which also sends `KEYS`. -/
abbrev Method (α : Type) := Coroutine Thrown Cache (Sum.elim Reply fun _ : String => List String) α

/-- Send a command about a tenant and wait for its answer. -/
def askTenant (c : Command) : Method (Reply c) := (ask c).lift

/-- `this.redis.keys` -/
def askKeys (pattern : String) : Method (List String) :=
  Coroutine.await (Sum.inr pattern : Command ⊕ String)

/-! ## Methods -/

/-- The pattern of all tenants. -/
def tenantPattern : String := keyPrefix ++ ":tenant:*"

/-- The loop of `listTenants`. -/
def readTenants : List String → List StoredTenant → Method (List StoredTenant)
  | [], tenants => pure tenants
  | key :: keys, tenants => do
    let data ← askTenant (.get key)
    readTenants keys (tenants ++ data.toList)

/-- `listTenants` -/
def listTenants : Method (List StoredTenant) :=
  tryCatch
    (do
      let keys ← askKeys (tenantPattern keyPrefix)
      readTenants keys [])
    fun _ => pure []

/-! ## The manager -/

/-- A call about one tenant, or about all. -/
inductive Request
  | about (tenantId : String) (call : Tenants.Call tenantId)
  | listTenants

/-- What a call resolves with. -/
inductive Result
  | result (result : Tenants.Result)
  | tenants (tenants : List StoredTenant)

/-- The method a call runs. -/
def Request.method : Request → Method Result
  | .about _ call => do
    let result ← (call.method keyPrefix).lift
    pure (.result result)
  | .listTenants => do
    let tenants ← Directory.listTenants keyPrefix
    pure (.tenants tenants)

/-- A manager, Redis, and the calls made so far. -/
abbrev World := Pool Thrown Cache (Store StoredTenant)
  (Sum.elim Reply fun _ : String => List String) Request Result

/-- A manager under any interleaving of calls. -/
def system : System World (PoolEvent Request (Choice Thrown)) :=
  Pool.system (serveTenant.sum (serveKeys scan)) (Request.method keyPrefix)

/-- Nothing is stored or cached, and nothing was called. -/
def World.init : World := { memory := fun _ => none, server := .empty }

/-! ## What calls make of a tenant -/

variable {scan keyPrefix} {Called : Request → Prop}

/-- What calls about a tenant made of it: some call created it, and calls updated it. -/
inductive Made (Called : Request → Prop) (tenantId : String) : StoredTenant → Prop
  | created {config : TenantConfig} {h : config.tenantId = tenantId}
      (hcalled : Called (.about tenantId (.createTenant config h))) :
      Made Called tenantId config.stored
  | updated {existing : StoredTenant} {config : PartialConfig}
      (hcalled : Called (.about tenantId (.updateTenant config)))
      (hexisting : Made Called tenantId existing) :
      Made Called tenantId (existing.update tenantId config)

/-- It has the id it goes by. -/
theorem Made.tenantId {tenantId : String} {tenant : StoredTenant}
    (h : Made Called tenantId tenant) : tenant.tenantId = some tenantId := by
  cases h with
  | @created config hid _ => exact congrArg some hid
  | updated _ _ => rfl

theorem buildTenantKey_inj {tenantId tenantId' : String} :
    buildTenantKey keyPrefix tenantId = buildTenantKey keyPrefix tenantId' ↔
      tenantId = tenantId' := by
  refine ⟨fun h => ?_, fun h => h ▸ rfl⟩
  simpa [buildTenantKey, String.ext_iff] using h

/-- A tenant that lies under the key. -/
def MadeUnder (keyPrefix : String) (Called : Request → Prop) (key : String)
    (tenant : StoredTenant) : Prop :=
  ∃ tenantId, key = buildTenantKey keyPrefix tenantId ∧ Made Called tenantId tenant

/-- Every tenant that is stored or cached is what calls about it made of it. -/
structure Sound (keyPrefix : String) (Called : Request → Prop)
    (s : Shared Cache (Store StoredTenant)) : Prop where
  stored : ∀ key e, s.server.lookup key = some e → MadeUnder keyPrefix Called key e.value
  cached : ∀ tenantId tenant, s.memory tenantId = some tenant → Made Called tenantId tenant

/-- While others do likewise, the method leaves only such tenants, and what it resolves with meets
`Q`. -/
abbrev Safely (keyPrefix : String) (Called : Request → Prop) {α : Type} (Q : α → Prop)
    (m : Tenants.Method α) : Prop :=
  Ensures serveTenant (Sound keyPrefix Called) (fun _ _ => True) Q m

/-! ## What the methods about one tenant ensure -/

variable {tenantId : String}

theorem safely_set {tenant : StoredTenant} (htenant : Made Called tenantId tenant) (ttl : ℕ) :
    Safely keyPrefix Called (fun _ => True)
      (ask (.set (buildTenantKey keyPrefix tenantId) tenant ttl)) := by
  refine .perform (fun _ _ => rfl) (fun v m s hs => ⟨⟨fun key e he => ?_, hs.cached⟩, .inr trivial⟩)
    fun _ _ _ _ => trivial
  have he : (s.set _ tenant _).lookup key = some e := he
  rw [Store.lookup_set] at he
  split at he
  · next hkey =>
    obtain rfl := Option.some.inj he
    exact ⟨tenantId, hkey, htenant⟩
  · exact hs.stored key e he

theorem safely_del (key : String) : Safely keyPrefix Called (fun _ => True) (ask (.del key)) := by
  refine .perform (fun _ _ => rfl) (fun v m s hs => ⟨⟨fun k e he => ?_, hs.cached⟩, .inr trivial⟩)
    fun _ _ _ _ => trivial
  have he : (s.del key).lookup k = some e := he
  rw [Store.lookup_del] at he
  split at he
  · cases he
  · exact hs.stored k e he

theorem safely_get (key : String) :
    Safely keyPrefix Called
      (fun data => ∀ tenant, data = some tenant → MadeUnder keyPrefix Called key tenant)
      (ask (.get key)) := by
  refine .reading (fun v s => s.get v.now key) (fun _ _ => rfl) fun v m s hs tenant htenant => ?_
  obtain ⟨e, he, -, rfl⟩ := Store.get_eq_some.mp htenant
  exact hs.stored key e he

/-- Caching and forgetting. -/
theorem safely_cache {cached : Option StoredTenant}
    (hcached : ∀ tenant, cached = some tenant → Made Called tenantId tenant) :
    Safely keyPrefix Called (fun _ => True)
      (.modify fun cache => Function.update cache tenantId cached) := by
  refine .modify (fun m s hs => ⟨hs.stored, fun id tenant htenant => ?_⟩) trivial
  by_cases hid : id = tenantId
  · subst hid
    exact hcached tenant ((Function.update_self id _ m).symm.trans htenant)
  · exact hs.cached id tenant ((Function.update_of_ne hid _ m).symm.trans htenant)

theorem safely_cacheSet {tenant : StoredTenant} (htenant : Made Called tenantId tenant) :
    Safely keyPrefix Called (fun _ => True) (cacheSet tenantId tenant) :=
  safely_cache fun _ h => Option.some.inj h ▸ htenant

theorem safely_getTenant :
    Safely keyPrefix Called (Made Called tenantId) (getTenant keyPrefix tenantId) := by
  refine .read_bind fun w hw => ?_
  cases hcached : w.memory tenantId with
  | some tenant => exact .pure (hw.cached tenantId tenant hcached)
  | none =>
    refine .bind (safely_get _) fun data hdata => ?_
    cases data with
    | none => exact .throw _
    | some tenant =>
      obtain ⟨id, hkey, htenant⟩ := hdata tenant rfl
      obtain rfl := buildTenantKey_inj.mp hkey
      exact .bind (safely_cacheSet htenant) fun _ _ => .pure htenant

/-- What a call about a tenant resolves with. -/
def CallAnswered (Called : Request → Prop) : Tenants.Call tenantId → Tenants.Result → Prop
  | .getTenant, result => ∃ tenant, result = .tenant tenant ∧ Made Called tenantId tenant
  | .createTenant _ _, result | .updateTenant _, result | .deleteTenant, result => result = .done

theorem safely_method {call : Tenants.Call tenantId}
    (hcalled : Called (.about tenantId call)) :
    Safely keyPrefix Called (CallAnswered Called call) (call.method keyPrefix) := by
  cases call with
  | createTenant config h =>
    cases h
    have hmade : Made Called config.tenantId config.stored := .created hcalled
    refine .bind (P := fun _ => True) ?_ fun _ _ => .pure rfl
    exact .bind (safely_set hmade _) fun _ _ => safely_cacheSet hmade
  | updateTenant config =>
    refine .bind (P := fun _ => True) ?_ fun _ _ => .pure rfl
    refine .bind safely_getTenant fun existing hexisting => ?_
    have hmade : Made Called tenantId (existing.update tenantId config) :=
      .updated hcalled hexisting
    exact .bind (safely_set hmade _) fun _ _ => safely_cacheSet hmade
  | getTenant => exact .bind safely_getTenant fun tenant htenant => .pure ⟨tenant, rfl, htenant⟩
  | deleteTenant =>
    refine .bind (P := fun _ => True) ?_ fun _ _ => .pure rfl
    exact .bind (safely_del _) fun _ _ => safely_cache fun _ h => by cases h

/-! ## What the list ensures -/

/-- The same of a method that also sends `KEYS`. -/
abbrev SafelyAmong (scan : Scan StoredTenant) (keyPrefix : String) (Called : Request → Prop)
    {α : Type} (Q : α → Prop) (m : Method α) : Prop :=
  Ensures (serveTenant.sum (serveKeys scan)) (Sound keyPrefix Called) (fun _ _ => True) Q m

/-- The key a tenant lies under. -/
def keyOf (keyPrefix : String) (tenant : StoredTenant) : Option String :=
  tenant.tenantId.map (buildTenantKey keyPrefix)

/-- Tenants that were read from these keys, from each key one at most. -/
structure ReadFrom (keyPrefix : String) (Called : Request → Prop) (keys : List String)
    (tenants : List StoredTenant) : Prop where
  sublist : (tenants.map (keyOf keyPrefix)).Sublist (keys.map some)
  made : ∀ tenant ∈ tenants, ∃ tenantId, Made Called tenantId tenant

theorem ReadFrom.concat {keys : List String} {tenants : List StoredTenant} {key : String}
    {data : Option StoredTenant} (h : ReadFrom keyPrefix Called keys tenants)
    (hdata : ∀ tenant, data = some tenant → MadeUnder keyPrefix Called key tenant) :
    ReadFrom keyPrefix Called (keys ++ [key]) (tenants ++ data.toList) := by
  cases data with
  | none =>
    rw [Option.toList_none, List.append_nil]
    refine ⟨?_, h.made⟩
    rw [List.map_append]
    exact h.sublist.trans (List.sublist_append_left _ _)
  | some tenant =>
    obtain ⟨tenantId, hkey, htenant⟩ := hdata tenant rfl
    have hkeyOf : keyOf keyPrefix tenant = some key := by
      rw [keyOf, htenant.tenantId, Option.map_some, hkey]
    refine ⟨?_, fun tenant' htenant' => ?_⟩
    · rw [Option.toList_some, List.map_append, List.map_append, List.map_singleton, hkeyOf]
      exact h.sublist.append_right _
    · rcases List.mem_append.mp htenant' with hmem | hmem
      · exact h.made tenant' hmem
      · obtain rfl := List.mem_singleton.mp hmem
        exact ⟨tenantId, htenant⟩

/-- The loop, by induction on the keys that are left. -/
theorem safely_readTenants (keys : List String) {done : List String} {tenants : List StoredTenant}
    (htenants : ReadFrom keyPrefix Called done tenants) :
    SafelyAmong scan keyPrefix Called (ReadFrom keyPrefix Called (done ++ keys))
      (readTenants keys tenants) := by
  induction keys generalizing done tenants with
  | nil => exact .pure ((List.append_nil done).symm ▸ htenants)
  | cons key keys ih =>
    refine .bind (safely_get key).lift fun data hdata => ?_
    rw [List.append_cons]
    exact ih (htenants.concat hdata)

theorem safely_askKeys (pattern : String) :
    SafelyAmong scan keyPrefix Called List.Nodup (askKeys pattern) :=
  .reading (fun v s => s.keys scan v.now pattern) (fun _ _ => rfl)
    fun _ _ _ _ => Store.nodup_keys ..

/-- No tenant comes twice, and each is what calls about it made of it. -/
structure IsDirectory (Called : Request → Prop) (tenants : List StoredTenant) : Prop where
  nodup : (tenants.map StoredTenant.tenantId).Nodup
  made : ∀ tenant ∈ tenants, ∃ tenantId, Made Called tenantId tenant

theorem ReadFrom.isDirectory {keys : List String} (hkeys : keys.Nodup)
    {tenants : List StoredTenant} (h : ReadFrom keyPrefix Called keys tenants) :
    IsDirectory Called tenants := by
  refine ⟨?_, h.made⟩
  have hnodup := h.sublist.nodup (hkeys.map (Option.some_injective String))
  rw [show keyOf keyPrefix = Option.map (buildTenantKey keyPrefix) ∘ StoredTenant.tenantId from rfl,
    ← List.map_map] at hnodup
  exact hnodup.of_map _

theorem safely_listTenants :
    SafelyAmong scan keyPrefix Called (IsDirectory Called) (listTenants keyPrefix) := by
  refine .handle (.bind (safely_askKeys _) fun keys hkeys => ?_)
    fun _ => .pure ⟨List.nodup_nil, List.forall_mem_nil _⟩
  have hnil : ReadFrom keyPrefix Called [] [] := ⟨.slnil, List.forall_mem_nil _⟩
  exact (safely_readTenants keys hnil).mono fun tenants htenants => htenants.isDirectory hkeys

/-- What a call resolves with. -/
def Answered (Called : Request → Prop) : Request → Result → Prop
  | .about _ call, result => ∃ r, result = .result r ∧ CallAnswered Called call r
  | .listTenants, result => ∃ tenants, result = .tenants tenants ∧ IsDirectory Called tenants

theorem safely_request {request : Request} (hcalled : Called request) :
    SafelyAmong scan keyPrefix Called (Answered Called request) (request.method keyPrefix) := by
  cases request with
  | about tenantId call =>
    exact .bind (safely_method hcalled).lift fun r hr => .pure ⟨r, rfl, hr⟩
  | listTenants => exact .bind safely_listTenants fun tenants h => .pure ⟨tenants, rfl, h⟩

/-! ## Runs -/

/-- **Tenants are kept apart.** However calls about any number of tenants overlap, and whatever
commands fail: the tenant that `getTenant` returns is what calls about that tenant made of it, and
of those that `listTenants` returns no two have the same id, each being what calls about it made. -/
theorem listed_of_run {es : List (PoolEvent Request (Choice Thrown))} {p : World}
    (h : (system scan keyPrefix).runFrom .init es = some p) :
    ∀ t ∈ p.threads, ∀ result, t.stage = .settled (.ok result) →
      Answered (fun request => .spawn request ∈ es) t.label result := by
  have hinit : Sound keyPrefix (fun request => .spawn request ∈ es) ⟨fun _ => none, .empty⟩ :=
    { stored := fun key e he => by cases (Store.lookup_empty key).symm.trans he
      cached := fun _ _ htenant => by cases htenant }
  exact (ensures_of_run (P := fun request => .spawn request ∈ es)
    (fun _ hcalled => safely_request hcalled) hinit (fun _ hcalled => hcalled) h).2

/-- A call that creates a tenant. -/
def creating (tenantId : String) : Request :=
  .about tenantId
    (.createTenant { tenantId := tenantId, name := tenantId, createdAt := 0, enabled := true } rfl)

/-- Two tenants are created and listed while one of them is updated, and a third call fails. -/
def listedRun : List (PoolEvent Request (Choice Thrown)) :=
  [.spawn (creating "acme"), .exec 0 {}, .resume 0, .spawn (creating "globex"), .exec 1 {},
    .spawn .listTenants, .exec 2 {},
    .spawn (.about "acme" (.updateTenant { enabled := .value false })),
    .exec 3 {}, .resume 2, .exec 2 {}, .resume 2, .exec 2 {}, .resume 2,
    .spawn (.about "globex" .deleteTenant),
    .exec 4 { answer := .rejected (.value "ECONNRESET") false }, .resume 4, .resume 3,
    .spawn (.about "acme" .getTenant)]

theorem isSome_listedRun : ((system Scan.stored "acl").runFrom .init listedRun).isSome := by
  decide +kernel

/-- Both are listed as they were made. -/
theorem listed_of_listedRun :
    ∃ p, (system Scan.stored "acl").runFrom .init listedRun = some p ∧
      ∀ t ∈ p.threads, ∀ result, t.stage = .settled (.ok result) →
        Answered (fun request => .spawn request ∈ listedRun) t.label result :=
  ⟨_, (Option.some_get isSome_listedRun).symm,
    listed_of_run (Option.some_get isSome_listedRun).symm⟩

end KitiumJobQueue.AccessControl.Directory
