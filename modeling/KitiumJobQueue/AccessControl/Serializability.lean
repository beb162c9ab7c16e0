import KitiumJobQueue.AccessControl.Tenants
import KitiumJobQueue.Foundations.CachedRecord

/-!
# When overlapping calls about a tenant are serializable

The calls about one tenant are calls about a record behind a cache: `step_abstract` shows that
each step of the manager is one of `CachedRecord`, as long as no update writes over something else
than it has merged, no stale copy is left in the cache, and nothing expires. `serializable_of_run`
takes the order from there and runs the calls in it one after another.
-/

namespace KitiumJobQueue.AccessControl.Tenants

open CachedRecord Effects JavaScript Redis SerialOrder

variable {tenantId : String}

/-! ## Serializability -/

/-- What is stored of the tenant. -/
def storedTenant (keyPrefix tenantId : String) (s : Store StoredTenant) : Option StoredTenant :=
  (s.lookup (buildTenantKey keyPrefix tenantId)).map Entry.value

/-- The results of the calls that have settled. -/
def World.results (p : World tenantId) : List (Call tenantId × Except Thrown Result) :=
  p.threads.flatMap fun t => match t.stage with
    | .settled r => [(t.label, r)]
    | .waiting _ _ | .ready _ _ _ => []

/-- Every call has resolved or rejected. -/
def World.Settled (p : World tenantId) : Prop := ∀ t ∈ p.threads, ∃ r, t.stage = .settled r

instance (p : World tenantId) : Decidable p.Settled :=
  inferInstanceAs (Decidable (∀ t ∈ p.threads, ∃ r, t.stage = .settled r))

/-- Calls run one after another, at any times at which the tenant has not expired. -/
inductive Serially (keyPrefix : String) :
    Shared Cache (Store StoredTenant) → List (Call tenantId × Except Thrown Result) →
      Shared Cache (Store StoredTenant) → Prop
  | nil (w : Shared Cache (Store StoredTenant)) : Serially keyPrefix w [] w
  | cons {w w'' : Shared Cache (Store StoredTenant)} {c : Call tenantId}
      {r : Except Thrown Result} {l : List (Call tenantId × Except Thrown Result)}
      {times : ℕ → ℕ} {w' : SoloWorld}
      (htimes : ∀ n, ∀ e ∈ w.server.lookup (buildTenantKey keyPrefix tenantId), e.IsLive (times n))
      (hrun : ((c.method keyPrefix).alone serve).run ⟨w, times, []⟩ = (r, w'))
      (hrest : Serially keyPrefix w'.toShared l w'') : Serially keyPrefix w ((c, r) :: l) w''

/-- The calls gave what they give in some order one after another, and left that in the cache and in
Redis. -/
def Serializable (keyPrefix : String) (w₀ : Shared Cache (Store StoredTenant))
    (p : World tenantId) : Prop :=
  ∃ order w, order.Perm p.results ∧ Serially keyPrefix w₀ order w ∧ w.memory = p.memory ∧
    ∀ key, (w.server.lookup key).map Entry.value = (p.server.lookup key).map Entry.value

/-! ## Careful steps -/

/-- The command of the call was carried out, and the cache is still to be changed. -/
def Stage.hasWritten : Stage Thrown Cache Reply Result → Bool
  | .ready (.set _ _ _) _ _ | .ready (.del _) _ _ => true
  | .ready (.get _) _ _ | .waiting _ _ | .settled _ => false

/-- What the call leaves in the cache when it gets its answer. -/
def Stage.leaves? : Stage Thrown Cache Reply Result → Option (Option StoredTenant)
  | .ready (.set _ tenant _) _ _ => some (some tenant)
  | .ready (.del _) _ _ => some none
  | .ready (.get _) (.ok (some tenant)) _ => some (some tenant)
  | .ready (.get _) (.ok none) _ | .ready (.get _) (.error _) _ | .waiting _ _ | .settled _ => none

/-- An update writes what it makes of the stored tenant. -/
def Merges (stored : Option StoredTenant) : Call tenantId → Command → Prop
  | .updateTenant config, .set _ tenant _ =>
    stored.map (StoredTenant.update tenantId config) = some tenant
  | .updateTenant _, .get _ | .updateTenant _, .del _ | .createTenant _ _, _ | .getTenant, _
  | .deleteTenant, _ => True

instance (stored : Option StoredTenant) (c : Call tenantId) : DecidablePred (Merges stored c) :=
  fun command => by
    unfold Merges
    split <;> infer_instance

/-- A step that finds nothing expired, writes no update of something else than is stored, and leaves
nothing else in the cache than is stored, unless another call has just changed that. -/
def Careful (keyPrefix : String) (p : World tenantId) : PoolEvent (Call tenantId) ℕ → Prop
  | .spawn _ => True
  | .exec i now => (∀ e ∈ p.server.lookup (buildTenantKey keyPrefix tenantId), e.IsLive now) ∧
      ∀ t ∈ p.threads[i]?, ∀ c ∈ t.stage.command?,
        Merges (storedTenant keyPrefix tenantId p.server) t.label c
  | .resume i => ∀ t ∈ p.threads[i]?, ∀ new ∈ Stage.leaves? t.stage,
      new = storedTenant keyPrefix tenantId p.server ∨
        ∃ j < p.threads.length, j ≠ i ∧ (p.threads[j]?).any fun t => Stage.hasWritten t.stage

instance (keyPrefix : String) (p : World tenantId) : DecidablePred (Careful keyPrefix p)
  | .spawn _ => .isTrue trivial
  | .exec i now => inferInstanceAs (Decidable (
      (∀ e ∈ p.server.lookup (buildTenantKey keyPrefix tenantId), e.IsLive now) ∧
        ∀ t ∈ p.threads[i]?, ∀ c ∈ t.stage.command?,
          Merges (storedTenant keyPrefix tenantId p.server) t.label c))
  | .resume i => inferInstanceAs (Decidable (∀ t ∈ p.threads[i]?, ∀ new ∈ Stage.leaves? t.stage,
      new = storedTenant keyPrefix tenantId p.server ∨
        ∃ j < p.threads.length, j ≠ i ∧ (p.threads[j]?).any fun t => Stage.hasWritten t.stage))

/-! ## The record -/

/-- The operation a call is. -/
def Call.op : Call tenantId → CachedRecord.Op StoredTenant
  | .createTenant config _ => .put config.stored
  | .updateTenant config => .modify (StoredTenant.update tenantId config)
  | .getTenant => .fetch
  | .deleteTenant => .remove

/-- How a call ends that gives a result. -/
def outcome (tenantId : String) : CachedRecord.Result StoredTenant → Except Thrown Result
  | .done => .ok .done
  | .found tenant => .ok (.tenant tenant)
  | .missing => .error (notFound tenantId)

/-- What a call gives that ends so. -/
def resultOf : Except Thrown Result → CachedRecord.Result StoredTenant
  | .ok .done => .done
  | .ok (.tenant tenant) => .found tenant
  | .error _ => .missing

@[simp] theorem resultOf_outcome (r : CachedRecord.Result StoredTenant) :
    resultOf (outcome tenantId r) = r := by
  cases r <;> rfl

/-- Where a call is. -/
def phase : Stage Thrown Cache Reply Result → Phase StoredTenant
  | .waiting (.get _) _ | .ready (.get _) (.error _) _ => .reading
  | .waiting (.set _ tenant _) _ => .writing (some tenant)
  | .waiting (.del _) _ => .writing none
  | .ready (.get _) (.ok data) _ => .read data
  | .ready (.set _ tenant _) _ _ => .written (some tenant)
  | .ready (.del _) _ _ => .written none
  | .settled r => .settled (resultOf r)

/-- The calls as calls about a record. -/
def abstract (keyPrefix : String) (p : World tenantId) : State (Call tenantId) StoredTenant where
  cache := p.memory tenantId
  store := storedTenant keyPrefix tenantId p.server
  calls := p.threads.map fun t => (t.label, phase t.stage)

/-! ## How a call goes on -/

/-- The call ends, leaving `new` in the cache. -/
def Ends (tenantId : String) (new : Option StoredTenant)
    (k : Except Thrown Unit → Method Result) : Prop :=
  ∀ cache, (k (.ok ())).advance cache = (.settled (.ok .done), Function.update cache tenantId new)

/-- The call waits for its last command, a `SET`, or has ended. -/
def Closes (keyPrefix tenantId : String) : Stage Thrown Cache Reply Result → Prop
  | .waiting (.set key tenant _) k =>
    key = buildTenantKey keyPrefix tenantId ∧ Ends tenantId (some tenant) k
  | .settled r => outcome tenantId (resultOf r) = r
  | .waiting (.get _) _ | .waiting (.del _) _ | .ready _ _ _ => False

/-- The call goes on with the tenant that it has read, as if it had found it in the cache. -/
structure Reads (c : Call tenantId) (keyPrefix : String)
    (k : Except Thrown (Option StoredTenant) → Method Result) : Prop where
  missing : ∀ cache, (k (.ok none)).advance cache = (.settled (.error (notFound tenantId)), cache)
  found : ∀ cache tenant, ∃ stage,
    (k (.ok (some tenant))).advance cache =
      (stage, Function.update cache tenantId (some tenant)) ∧
    phase stage = c.op.start (some tenant) ∧ Closes keyPrefix tenantId stage

/-- What is to be known of a call that waits for a command, or for its answer. -/
def Expects (keyPrefix : String) (c : Call tenantId) :
    (command : Command) → (Except Thrown (Reply command) → Method Result) → Prop
  | .get key, k => key = buildTenantKey keyPrefix tenantId ∧ Reads c keyPrefix k
  | .set key tenant _, k =>
    key = buildTenantKey keyPrefix tenantId ∧ Ends tenantId (some tenant) k
  | .del key, k =>
    key = buildTenantKey keyPrefix tenantId ∧ c = .deleteTenant ∧ Ends tenantId none k

/-- The call is where such a call can be. -/
def Fits (keyPrefix : String) (c : Call tenantId) : Stage Thrown Cache Reply Result → Prop
  | .waiting command k => Expects keyPrefix c command k
  | .ready command r k => Expects keyPrefix c command k ∧ ∃ a, r = .ok a
  | .settled r => outcome tenantId (resultOf r) = r

variable {keyPrefix : String}

/-- Every call is where it can be. -/
def World.AllFit (keyPrefix : String) (p : World tenantId) : Prop :=
  ∀ t ∈ p.threads, Fits keyPrefix t.label t.stage

theorem World.AllFit.set {p : World tenantId} (h : p.AllFit keyPrefix) {i : ℕ} {memory : Cache}
    {server : Store StoredTenant} {t : Thread Thrown Cache Reply (Call tenantId) Result}
    (ht : Fits keyPrefix t.label t.stage) :
    World.AllFit keyPrefix ⟨⟨memory, server⟩, p.threads.set i t⟩ := by
  intro x hx
  obtain hx | rfl := List.mem_or_eq_of_mem_set hx
  · exact h x hx
  · exact ht

theorem Closes.fits {c : Call tenantId} {stage : Stage Thrown Cache Reply Result}
    (h : Closes keyPrefix tenantId stage) : Fits keyPrefix c stage := by
  cases stage with
  | waiting command k =>
    cases command with
    | get key => exact h.elim
    | set key tenant ttl => exact h
    | del key => exact h.elim
  | ready command r k => exact h.elim
  | settled r => exact h

section

variable {cache : Cache}

/-- `getTenant` finds the tenant in the cache. -/
theorem advance_getTenant_of_cached {tenant : StoredTenant} (h : cache tenantId = some tenant)
    (f : StoredTenant → Method Result) :
    (getTenant keyPrefix tenantId >>= f).advance cache = (f tenant).advance cache := by
  rw [getTenant, Coroutine.bind_assoc, Coroutine.advance_read_bind, h]
  rfl

variable (keyPrefix) in
/-- `getTenant` asks Redis for the tenant. -/
theorem advance_getTenant_of_missing (h : cache tenantId = none)
    (f : StoredTenant → Method Result) :
    ∃ k : Except Thrown (Option StoredTenant) → Method Result,
      (getTenant keyPrefix tenantId >>= f).advance cache =
        (.waiting (.get (buildTenantKey keyPrefix tenantId)) k, cache) ∧
      (∀ cache, (k (.ok none)).advance cache = (.settled (.error (notFound tenantId)), cache)) ∧
      ∀ cache tenant, (k (.ok (some tenant))).advance cache =
        (f tenant).advance (Function.update cache tenantId (some tenant)) := by
  have hrun : (getTenant keyPrefix tenantId >>= f).advance cache =
      (loadTenant keyPrefix tenantId >>= f).advance cache := by
    rw [getTenant, Coroutine.bind_assoc, Coroutine.advance_read_bind, h]
  exact ⟨_, hrun, fun cache => rfl, fun cache tenant => rfl⟩

theorem method_updateTenant (config : PartialConfig) :
    (Call.updateTenant config : Call tenantId).method keyPrefix =
      getTenant keyPrefix tenantId >>= fun existing =>
        (ask (.set (buildTenantKey keyPrefix tenantId) (existing.update tenantId config) 31536000)
          >>= fun _ => cacheSet tenantId (existing.update tenantId config)) >>= fun _ =>
            pure .done :=
  Coroutine.bind_assoc _ _ _

variable (keyPrefix) in
/-- A call runs to its first wait, or to its end. -/
theorem advance_method (c : Call tenantId) (cache : Cache) :
    ∃ stage, (c.method keyPrefix).advance cache = (stage, cache) ∧
      phase stage = c.op.start (cache tenantId) ∧ Fits keyPrefix c stage := by
  cases c with
  | createTenant config h =>
    refine ⟨_, rfl, rfl, congrArg (buildTenantKey keyPrefix) h, fun cache => ?_⟩
    rw [← h]
    rfl
  | deleteTenant => exact ⟨_, rfl, rfl, rfl, rfl, fun cache => rfl⟩
  | getTenant =>
    cases hcache : cache tenantId with
    | some tenant => exact ⟨_, advance_getTenant_of_cached hcache _, rfl, rfl⟩
    | none =>
      obtain ⟨k, hk, hmissing, hfound⟩ :=
        advance_getTenant_of_missing keyPrefix hcache fun tenant => pure (.tenant tenant)
      exact ⟨_, hk, rfl, rfl, hmissing, fun cache tenant => ⟨_, hfound cache tenant, rfl, rfl⟩⟩
  | updateTenant config =>
    rw [method_updateTenant]
    cases hcache : cache tenantId with
    | some tenant =>
      exact ⟨_, advance_getTenant_of_cached hcache _, rfl, rfl, fun cache => rfl⟩
    | none =>
      obtain ⟨k, hk, hmissing, hfound⟩ := advance_getTenant_of_missing keyPrefix hcache _
      exact ⟨_, hk, rfl, rfl, hmissing,
        fun cache tenant => ⟨_, hfound cache tenant, rfl, rfl, fun cache => rfl⟩⟩

end

/-! ## The steps of the manager -/

theorem storedTenant_set (s : Store StoredTenant) (tenant : StoredTenant) (t : Option ℕ) :
    storedTenant keyPrefix tenantId (s.set (buildTenantKey keyPrefix tenantId) tenant t) =
      some tenant := by
  simp [storedTenant, Store.lookup_set]

theorem storedTenant_del (s : Store StoredTenant) :
    storedTenant keyPrefix tenantId (s.del (buildTenantKey keyPrefix tenantId)) = none := by
  simp [storedTenant, Store.lookup_del]

theorem get_of_live {s : Store StoredTenant} {now : ℕ}
    (h : ∀ e ∈ s.lookup (buildTenantKey keyPrefix tenantId), e.IsLive now) :
    s.get now (buildTenantKey keyPrefix tenantId) = storedTenant keyPrefix tenantId s := by
  unfold Store.get storedTenant
  cases hlookup : s.lookup (buildTenantKey keyPrefix tenantId) with
  | none => rfl
  | some e => simp [h e hlookup]

theorem phase_of_hasWritten {stage : Stage Thrown Cache Reply Result}
    (h : Stage.hasWritten stage = true) : ∃ new, phase stage = .written new := by
  cases stage with
  | waiting command k => cases h
  | settled r => cases h
  | ready command r k =>
    cases command with
    | get key => cases h
    | set key tenant ttl => exact ⟨some tenant, rfl⟩
    | del key => exact ⟨none, rfl⟩

section

variable {p p' : World tenantId} {i : ℕ}

variable (keyPrefix) in
theorem abstract_calls {t : Thread Thrown Cache Reply (Call tenantId) Result}
    (h : p.threads[i]? = some t) :
    (abstract keyPrefix p).calls[i]? = some (t.label, phase t.stage) := by
  simp [abstract, h]

/-- A thread is replaced. -/
theorem abstract_set {memory : Cache} {server : Store StoredTenant}
    {t : Thread Thrown Cache Reply (Call tenantId) Result} :
    abstract keyPrefix ⟨⟨memory, server⟩, p.threads.set i t⟩ =
      { cache := memory tenantId
        store := storedTenant keyPrefix tenantId server
        calls := (abstract keyPrefix p).calls.set i (t.label, phase t.stage) } := by
  simp [abstract, List.map_set]

/-- What may be left in the cache. -/
theorem left_of_careful (hcareful : Careful keyPrefix p (.resume i))
    {t : Thread Thrown Cache Reply (Call tenantId) Result} (hi : p.threads[i]? = some t)
    {new : Option StoredTenant} (hnew : Stage.leaves? t.stage = some new) :
    new = (abstract keyPrefix p).store ∨ (abstract keyPrefix p).Behind i := by
  refine (hcareful t hi new hnew).imp_right ?_
  rintro ⟨j, -, hj, hwritten⟩
  obtain ⟨t', ht', hwritten⟩ := (Option.any_eq_true _ _).mp hwritten
  obtain ⟨new', hphase⟩ := phase_of_hasWritten hwritten
  exact ⟨j, hj, t'.label, new', by rw [abstract_calls keyPrefix ht', hphase]⟩

variable (keyPrefix) in
/-- What the making of a call does. -/
theorem exists_spawn (c : Call tenantId) (p : World tenantId) :
    ∃ stage, p.spawn (Call.method keyPrefix) c = ⟨p.toShared, p.threads ++ [⟨c, [], stage⟩]⟩ ∧
      phase stage = c.op.start (p.memory tenantId) ∧ Fits keyPrefix c stage := by
  obtain ⟨stage, hadvance, hphase, hfit⟩ := advance_method keyPrefix c p.memory
  refine ⟨stage, ?_, hphase, hfit⟩
  rw [Pool.spawn, hadvance]

theorem step_spawn (hfits : p.AllFit keyPrefix) (c : Call tenantId) :
    World.AllFit keyPrefix (p.spawn (Call.method keyPrefix) c) ∧ CachedRecord.Step Call.op
      (abstract keyPrefix p) (abstract keyPrefix (p.spawn (Call.method keyPrefix) c)) := by
  obtain ⟨stage, hspawn, hphase, hfit⟩ := exists_spawn keyPrefix c p
  rw [hspawn]
  refine ⟨fun t ht => ?_, ?_⟩
  · obtain ht | ht := List.mem_append.mp ht
    · exact hfits t ht
    · obtain rfl := List.mem_singleton.mp ht
      exact hfit
  · have habstract : abstract keyPrefix ⟨p.toShared, p.threads ++ [⟨c, [], stage⟩]⟩ =
        { abstract keyPrefix p with
          calls := (abstract keyPrefix p).calls ++
            [(c, (Call.op c).start (abstract keyPrefix p).cache)] } := by
      simp [abstract, hphase]
    rw [habstract]
    exact .start c

/-- Redis carries out the command of a call. -/
theorem step_exec (hfits : p.AllFit keyPrefix) {now : ℕ}
    (hcareful : Careful keyPrefix p (.exec i now)) (hexec : p.exec serve i now = some p') :
    p'.AllFit keyPrefix ∧
      CachedRecord.Step Call.op (abstract keyPrefix p) (abstract keyPrefix p') := by
  obtain ⟨l, heard, c, k, hi, rfl⟩ := Pool.exec_eq_some hexec
  have hk : Expects keyPrefix l c k := hfits _ (List.mem_of_getElem? hi)
  have hcalls := abstract_calls keyPrefix hi
  have hmerges := hcareful.2 _ hi c rfl
  refine ⟨hfits.set ⟨hk, _, rfl⟩, ?_⟩
  rw [abstract_set]
  cases c with
  | get key =>
    obtain ⟨rfl, -⟩ := hk
    have hphase : phase (.ready _
        (serve now (.get (buildTenantKey keyPrefix tenantId)) p.server).1 k) =
          .read (abstract keyPrefix p).store := congrArg Phase.read (get_of_live hcareful.1)
    rw [hphase]
    exact .read hcalls
  | set key tenant ttl =>
    obtain ⟨rfl, -⟩ := hk
    have hstore : storedTenant keyPrefix tenantId
        (serve now (.set (buildTenantKey keyPrefix tenantId) tenant ttl) p.server).2 =
          some tenant := storedTenant_set _ _ _
    rw [hstore]
    refine .write hcalls fun f hf => ?_
    cases l with
    | updateTenant config =>
      cases hf
      obtain ⟨v, hv, hupdate⟩ := Option.map_eq_some_iff.mp hmerges
      exact ⟨v, hv, hupdate ▸ rfl⟩
    | createTenant _ _ | getTenant | deleteTenant => cases hf
  | del key =>
    obtain ⟨rfl, rfl, -⟩ := hk
    have hstore : storedTenant keyPrefix tenantId
        (serve now (.del (buildTenantKey keyPrefix tenantId)) p.server).2 = none :=
      storedTenant_del _
    rw [hstore]
    exact .write hcalls fun f hf => by cases hf

/-- A call that has written ends, and leaves what it has written in the cache. -/
theorem step_done (hfits : p.AllFit keyPrefix) {l : Call tenantId}
    {heard : Transcript Thrown Reply} {stage : Stage Thrown Cache Reply Result}
    {new : Option StoredTenant} (hi : p.threads[i]? = some ⟨l, heard, stage⟩)
    (hphase : phase stage = .written new) (hleaves : Stage.leaves? stage = some new)
    (hcareful : Careful keyPrefix p (.resume i)) :
    World.AllFit keyPrefix ⟨⟨Function.update p.memory tenantId new, p.server⟩,
        p.threads.set i ⟨l, heard, .settled (.ok .done)⟩⟩ ∧
      CachedRecord.Step Call.op (abstract keyPrefix p)
        (abstract keyPrefix ⟨⟨Function.update p.memory tenantId new, p.server⟩,
          p.threads.set i ⟨l, heard, .settled (.ok .done)⟩⟩) := by
  have hcalls := abstract_calls keyPrefix hi
  rw [hphase] at hcalls
  refine ⟨hfits.set rfl, ?_⟩
  rw [abstract_set, Function.update_self]
  exact .done hcalls (left_of_careful hcareful hi hleaves)

/-- A call gets its answer. -/
theorem step_resume (hfits : p.AllFit keyPrefix) (hcareful : Careful keyPrefix p (.resume i))
    (hresume : p.resume i = some p') :
    p'.AllFit keyPrefix ∧
      CachedRecord.Step Call.op (abstract keyPrefix p) (abstract keyPrefix p') := by
  obtain ⟨l, heard, c, r, k, hi, rfl⟩ := Pool.resume_eq_some hresume
  obtain ⟨hk, a, rfl⟩ : Expects keyPrefix l c k ∧ ∃ a, r = .ok a :=
    hfits _ (List.mem_of_getElem? hi)
  cases c with
  | set key tenant ttl =>
    obtain ⟨-, hends⟩ := hk
    have hadvance : (k (.ok a)).advance p.memory =
      (.settled (.ok .done), Function.update p.memory tenantId (some tenant)) := hends p.memory
    simp only [hadvance]
    exact step_done hfits hi rfl rfl hcareful
  | del key =>
    obtain ⟨-, -, hends⟩ := hk
    have hadvance : (k (.ok a)).advance p.memory =
      (.settled (.ok .done), Function.update p.memory tenantId none) := hends p.memory
    simp only [hadvance]
    exact step_done hfits hi rfl rfl hcareful
  | get key =>
    obtain ⟨-, hmissing, hfound⟩ := hk
    have hcalls := abstract_calls keyPrefix hi
    cases a with
    | none =>
      simp only [hmissing p.memory]
      refine ⟨hfits.set (t := ⟨l, heard, .settled (.error (notFound tenantId))⟩) rfl, ?_⟩
      rw [abstract_set]
      exact .miss hcalls
    | some tenant =>
      obtain ⟨stage, hadvance, hphase, hcloses⟩ := hfound p.memory tenant
      simp only [hadvance]
      refine ⟨hfits.set hcloses.fits, ?_⟩
      rw [abstract_set, Function.update_self, hphase]
      exact .fill hcalls (left_of_careful hcareful hi rfl)

/-- A careful step of the manager is one of a record behind a cache. -/
theorem step_abstract (hfits : p.AllFit keyPrefix) {e : PoolEvent (Call tenantId) ℕ}
    (hcareful : Careful keyPrefix p e) (hstep : (system keyPrefix tenantId).step p e = some p') :
    p'.AllFit keyPrefix ∧
      CachedRecord.Step Call.op (abstract keyPrefix p) (abstract keyPrefix p') := by
  cases e with
  | spawn c =>
    obtain rfl := Option.some.inj hstep
    exact step_spawn hfits c
  | exec i now => exact step_exec hfits hcareful hstep
  | resume i => exact step_resume hfits hcareful hstep

end

/-! ## One call after another -/

/-- The cache has no copy of the tenant, or that of Redis. -/
def IsCoherent (keyPrefix tenantId : String) (w : Shared Cache (Store StoredTenant)) : Prop :=
  w.memory tenantId = none ∨ w.memory tenantId = storedTenant keyPrefix tenantId w.server

section

variable {w w' : SoloWorld}

/-- `getTenant` on its own. -/
theorem run_getTenant (h : IsCoherent keyPrefix tenantId w.toShared)
    (hlive : ∀ e ∈ w.server.lookup (buildTenantKey keyPrefix tenantId), e.IsLive (w.choices 0)) :
    ∃ w', ((getTenant keyPrefix tenantId).alone serve).run w =
        ((storedTenant keyPrefix tenantId w.server).elim (.error (notFound tenantId)) .ok, w') ∧
      w'.server = w.server ∧ w'.memory =
        Function.update w.memory tenantId (storedTenant keyPrefix tenantId w.server) := by
  cases hcache : w.memory tenantId with
  | some tenant =>
    have hstored : storedTenant keyPrefix tenantId w.server = some tenant := by
      obtain hnone | hsome := h
      · cases hcache.symm.trans hnone
      · exact hsome.symm.trans hcache
    rw [hstored]
    refine ⟨_, run_getTenant_of_cached hcache, rfl, ?_⟩
    rw [← hcache, Function.update_eq_self]
  | none =>
    have hget := get_of_live hlive
    cases hstored : storedTenant keyPrefix tenantId w.server with
    | some tenant => exact ⟨_, run_getTenant_of_found hcache (hget.trans hstored), rfl, rfl⟩
    | none =>
      refine ⟨_, run_getTenant_of_missing hcache (hget.trans hstored), rfl, ?_⟩
      rw [← hcache, Function.update_eq_self]
      rfl

/-- The call gives and leaves what its operation on the record does. -/
structure Performs (keyPrefix : String) (c : Call tenantId) (w : SoloWorld)
    (r : Except Thrown Result) (w' : SoloWorld) : Prop where
  result : r = outcome tenantId (c.op.apply (storedTenant keyPrefix tenantId w.server)).1
  store : storedTenant keyPrefix tenantId w'.server =
    (c.op.apply (storedTenant keyPrefix tenantId w.server)).2
  memory : w'.memory =
    Function.update w.memory tenantId (storedTenant keyPrefix tenantId w'.server)
  others : ∀ key ≠ buildTenantKey keyPrefix tenantId, w'.server.lookup key = w.server.lookup key
  live : ∀ e, w'.server.lookup (buildTenantKey keyPrefix tenantId) = some e →
    w.server.lookup (buildTenantKey keyPrefix tenantId) = some e ∨ e.IsLive 0

theorem performs_set {c : Call tenantId} {tenant : StoredTenant}
    (hop : c.op.apply (storedTenant keyPrefix tenantId w.server) = (.done, some tenant)) (now : ℕ)
    (hserver : w'.server = w.server.set (buildTenantKey keyPrefix tenantId) tenant
      (some (now + 1000 * 31536000)))
    (hmemory : w'.memory = Function.update w.memory tenantId (some tenant)) :
    Performs keyPrefix c w (.ok .done) w' where
  result := by rw [hop]; rfl
  store := by rw [hop, hserver, storedTenant_set]
  memory := by rw [hmemory, hserver, storedTenant_set]
  others key hkey := by rw [hserver, Store.lookup_set, if_neg hkey]
  live e he := by
    rw [hserver, Store.lookup_set, if_pos rfl] at he
    cases he
    right
    intro t ht
    cases ht
    omega

/-- A call that changes nothing in Redis. -/
theorem performs_unchanged {c : Call tenantId} {r : CachedRecord.Result StoredTenant}
    (hop : c.op.apply (storedTenant keyPrefix tenantId w.server) =
      (r, storedTenant keyPrefix tenantId w.server)) (hserver : w'.server = w.server)
    (hmemory : w'.memory =
      Function.update w.memory tenantId (storedTenant keyPrefix tenantId w.server)) :
    Performs keyPrefix c w (outcome tenantId r) w' where
  result := by rw [hop]
  store := by rw [hop, hserver]
  memory := by rw [hmemory, hserver]
  others key _ := by rw [hserver]
  live e he := .inl (hserver ▸ he)

/-- **A call on its own** is its operation on the record. -/
theorem run_method (c : Call tenantId) (h : IsCoherent keyPrefix tenantId w.toShared)
    (hlive : ∀ e ∈ w.server.lookup (buildTenantKey keyPrefix tenantId), e.IsLive (w.choices 0)) :
    ∃ r w', ((c.method keyPrefix).alone serve).run w = (r, w') ∧ Performs keyPrefix c w r w' := by
  cases c with
  | createTenant config hid =>
    refine ⟨_, _, rfl, performs_set rfl (w.choices 0) ?_ ?_⟩
    · rw [← hid]
      rfl
    · rw [← hid]
      rfl
  | deleteTenant =>
    have hstored : storedTenant keyPrefix tenantId
        (w.server.del (buildTenantKey keyPrefix tenantId)) = none := storedTenant_del _
    refine ⟨_, _, rfl, rfl, hstored, ?_, fun key hkey => ?_, fun e he => ?_⟩
    · exact congrArg (Function.update w.memory tenantId) hstored.symm
    · exact (Store.lookup_del ..).trans (if_neg hkey)
    · cases ((Store.lookup_del ..).trans (if_pos rfl)).symm.trans he
  | getTenant =>
    obtain ⟨w', hrun, hserver, hmemory⟩ := run_getTenant h hlive
    show ∃ r w', ((getTenant keyPrefix tenantId >>= fun tenant => pure (.tenant tenant) :
      Method Result).alone serve).run w = (r, w') ∧ _
    rw [Coroutine.alone_bind]
    cases hstored : storedTenant keyPrefix tenantId w.server with
    | some tenant =>
      rw [hstored] at hrun
      exact ⟨_, w', Async.run_bind_of_ok hrun,
        performs_unchanged (r := .found tenant) (by rw [hstored]; rfl) hserver hmemory⟩
    | none =>
      rw [hstored] at hrun
      exact ⟨_, w', Async.run_bind_of_error hrun,
        performs_unchanged (r := .missing) (by rw [hstored]; rfl) hserver hmemory⟩
  | updateTenant config =>
    obtain ⟨w', hrun, hserver, hmemory⟩ := run_getTenant h hlive
    rw [method_updateTenant, Coroutine.alone_bind]
    cases hstored : storedTenant keyPrefix tenantId w.server with
    | some tenant =>
      rw [hstored] at hrun
      have hop : (Call.updateTenant config : Call tenantId).op.apply
          (storedTenant keyPrefix tenantId w.server) =
            (.done, some (tenant.update tenantId config)) := by
        rw [hstored]
        rfl
      refine ⟨.ok .done, _, Async.run_bind_of_ok hrun, performs_set hop (w'.choices 0) ?_ ?_⟩
      · rw [← hserver]
        rfl
      · show Function.update w'.memory tenantId _ = _
        rw [hmemory, Function.update_idem]
    | none =>
      rw [hstored] at hrun
      exact ⟨_, w', Async.run_bind_of_error hrun,
        performs_unchanged (r := .missing) (by rw [hstored]; rfl) hserver hmemory⟩

end

/-- Calls that are explained as operations on the record run one after another. -/
theorem serially_of_serial {log : List (Call tenantId × CachedRecord.Result StoredTenant)}
    {w : Shared Cache (Store StoredTenant)} (hcoherent : IsCoherent keyPrefix tenantId w)
    (hlive : log ≠ [] → ∀ e, w.server.lookup (buildTenantKey keyPrefix tenantId) = some e →
      e.IsLive 0)
    (hserial : Serial (fun c => (Call.op c).apply) (storedTenant keyPrefix tenantId w.server)
      log) :
    ∃ w', Serially keyPrefix w (log.map fun x => (x.1, outcome tenantId x.2)) w' ∧
      storedTenant keyPrefix tenantId w'.server =
        after (fun c => (Call.op c).apply) (storedTenant keyPrefix tenantId w.server) log ∧
      (∀ key ≠ buildTenantKey keyPrefix tenantId,
        w'.server.lookup key = w.server.lookup key) ∧
      (log = [] → w' = w) ∧
      (log ≠ [] → w'.memory =
        Function.update w.memory tenantId (storedTenant keyPrefix tenantId w'.server)) := by
  induction log generalizing w with
  | nil => exact ⟨w, .nil w, rfl, fun _ _ => rfl, fun _ => rfl, fun h => absurd rfl h⟩
  | cons x log ih =>
    have hlive := hlive (List.cons_ne_nil x log)
    obtain ⟨r, w₁, hrun, hresult, hstore, hmemory, hothers, hlive₁⟩ :=
      run_method (w := ⟨w, fun _ => 0, []⟩) x.1 hcoherent hlive
    have hserial₁ : Serial (fun c => (Call.op c).apply)
        (storedTenant keyPrefix tenantId w₁.server) log := hstore ▸ hserial.2
    obtain ⟨w', hserially, hafter, hothers', hnil, hcons⟩ := ih (w := w₁.toShared)
      (.inr (by rw [hmemory, Function.update_self]))
      (fun _ e he => (hlive₁ e he).elim (hlive e) id) hserial₁
    refine ⟨w', ?_, ?_, fun key hkey => (hothers' key hkey).trans (hothers key hkey),
      fun h => absurd h (List.cons_ne_nil x log), fun _ => ?_⟩
    · rw [List.map_cons, ← hserial.1, ← hresult]
      exact .cons (fun _ => hlive) hrun hserially
    · rw [hafter, hstore]
      rfl
    · by_cases hlog : log = []
      · rw [hnil hlog]
        exact hmemory
      · rw [hcons hlog, hmemory, Function.update_idem]

/-! ## Runs -/

/-- The key a command is about. -/
def Command.key : Command → String
  | .get key | .set key _ _ | .del key => key

/-- The cache has no other tenant. -/
def Alone (tenantId : String) (cache : Cache) : Prop := ∀ id ≠ tenantId, cache id = none

theorem confined_update (new : Option StoredTenant) :
    (Coroutine.modify fun cache => Function.update cache tenantId new : Method Unit).Confined
      (Alone tenantId) (Command.key · = buildTenantKey keyPrefix tenantId) :=
  .modify fun _ hcache id hid => (Function.update_of_ne hid ..).trans (hcache id hid)

theorem confined_getTenant :
    (getTenant keyPrefix tenantId).Confined (Alone tenantId)
      (Command.key · = buildTenantKey keyPrefix tenantId) := by
  refine .read_bind fun cache _ => ?_
  split
  · exact .pure _
  · refine Coroutine.Confined.bind (.await rfl) fun data => ?_
    split
    · exact .throw _
    · exact (confined_update _).bind fun _ => .pure _

/-- A call is about its tenant alone. -/
theorem confined_method (c : Call tenantId) :
    (c.method keyPrefix).Confined (Alone tenantId)
      (Command.key · = buildTenantKey keyPrefix tenantId) := by
  cases c with
  | createTenant config h =>
    refine Coroutine.Confined.bind ?_ fun _ => .pure _
    refine Coroutine.Confined.bind (.await ?_) fun _ => ?_
    · exact congrArg (buildTenantKey keyPrefix) h
    · rw [cacheSet, h]
      exact confined_update _
  | updateTenant config =>
    refine Coroutine.Confined.bind (confined_getTenant.bind fun existing => ?_) fun _ => .pure _
    exact Coroutine.Confined.bind (.await rfl) fun _ => confined_update _
  | getTenant => exact confined_getTenant.bind fun _ => .pure _
  | deleteTenant =>
    refine Coroutine.Confined.bind ?_ fun _ => .pure _
    exact Coroutine.Confined.bind (.await rfl) fun _ => confined_update _

section

variable {s : Store StoredTenant} {es : List (PoolEvent (Call tenantId) ℕ)} {p : World tenantId}

/-- In a run nothing but the tenant is touched. -/
theorem untouched_of_run
    (hrun : (system keyPrefix tenantId).runFrom ⟨⟨fun _ => none, s⟩, []⟩ es = some p) :
    (∀ id ≠ tenantId, p.memory id = none) ∧
      ∀ key ≠ buildTenantKey keyPrefix tenantId, p.server.lookup key = s.lookup key := by
  refine Pool.confined_of_run (T := fun s s' => ∀ key ≠ buildTenantKey keyPrefix tenantId,
    s'.lookup key = s.lookup key) confined_method (fun _ _ _ => rfl)
    (fun h h' key hkey => by rw [h' key hkey, h key hkey]) (fun now c s hc key hkey => ?_)
    (fun _ _ => rfl) hrun
  cases c with
  | get k => rfl
  | set k tenant ttl =>
    obtain rfl : k = buildTenantKey keyPrefix tenantId := hc
    exact (Store.lookup_set ..).trans (if_neg hkey)
  | del k =>
    obtain rfl : k = buildTenantKey keyPrefix tenantId := hc
    exact (Store.lookup_del ..).trans (if_neg hkey)

/-- No command was carried out yet. -/
def IsIdle (p : World tenantId) : Prop :=
  p.memory tenantId = none ∧
    ∀ t ∈ p.threads, phase t.stage = .reading ∨ ∃ new, phase t.stage = .writing new

theorem isIdle_step {p p' : World tenantId} {e : PoolEvent (Call tenantId) ℕ}
    (hfits : p.AllFit keyPrefix)
    (hidle : IsIdle p ∧ p.server = s)
    (hexpired : ∃ e, s.lookup (buildTenantKey keyPrefix tenantId) = some e ∧ ¬ e.IsLive 0)
    (hcareful : Careful keyPrefix p e) (hstep : (system keyPrefix tenantId).step p e = some p') :
    IsIdle p' ∧ p'.server = s := by
  obtain ⟨⟨hcache, hwaiting⟩, rfl⟩ := hidle
  cases e with
  | spawn c =>
    obtain rfl := Option.some.inj hstep
    obtain ⟨stage, hspawn, hphase, -⟩ := exists_spawn keyPrefix c p
    rw [hspawn]
    refine ⟨⟨hcache, fun t ht => ?_⟩, rfl⟩
    obtain ht | ht := List.mem_append.mp ht
    · exact hwaiting t ht
    · obtain rfl := List.mem_singleton.mp ht
      rw [hphase, hcache]
      cases c with
      | createTenant config _ => exact .inr ⟨_, rfl⟩
      | updateTenant config => exact .inl rfl
      | getTenant => exact .inl rfl
      | deleteTenant => exact .inr ⟨_, rfl⟩
  | exec i now =>
    obtain ⟨e, he, hlive⟩ := hexpired
    exact absurd (fun t ht => Nat.zero_lt_of_lt (hcareful.1 e he t ht)) hlive
  | resume i =>
    obtain ⟨l, heard, c, r, k, hi, rfl⟩ := Pool.resume_eq_some hstep
    have hmem := List.mem_of_getElem? hi
    obtain ⟨-, a, rfl⟩ : Expects keyPrefix l c k ∧ ∃ a, r = .ok a := hfits _ hmem
    obtain hphase | ⟨new, hphase⟩ := hwaiting _ hmem
    all_goals cases c <;> cases hphase

/-- What holds in every careful run. -/
structure Inv (keyPrefix : String) (s : Store StoredTenant) (p : World tenantId) : Prop where
  fits : p.AllFit keyPrefix
  steps : Relation.ReflTransGen (CachedRecord.Step Call.op)
    ⟨none, storedTenant keyPrefix tenantId s, []⟩ (abstract keyPrefix p)
  live : (∀ e, s.lookup (buildTenantKey keyPrefix tenantId) = some e → e.IsLive 0) ∨
    IsIdle p ∧ p.server = s

theorem inv_of_run
    (hcareful : (system keyPrefix tenantId).StepsMeet (Careful keyPrefix)
      ⟨⟨fun _ => none, s⟩, []⟩ es)
    (hrun : (system keyPrefix tenantId).runFrom ⟨⟨fun _ => none, s⟩, []⟩ es = some p) :
    Inv keyPrefix s p := by
  refine System.invariant_of_stepsMeet (I := Inv keyPrefix s) (fun p e p' hp hC hs => ?_) ?_
    hcareful hrun
  · obtain ⟨hfits, hstep⟩ := step_abstract hp.fits hC hs
    refine ⟨hfits, hp.steps.tail hstep, ?_⟩
    by_cases hexpired : ∃ e, s.lookup (buildTenantKey keyPrefix tenantId) = some e ∧ ¬ e.IsLive 0
    · refine .inr (isIdle_step hp.fits (hp.live.resolve_left fun hlive => ?_) hexpired hC hs)
      obtain ⟨e, he, hexpired⟩ := hexpired
      exact hexpired (hlive e he)
    · push Not at hexpired
      exact .inl hexpired
  · have hnone (t : Thread Thrown Cache Reply (Call tenantId) Result) : t ∉ [] :=
      List.not_mem_nil
    exact ⟨fun t ht => absurd ht (hnone t), .refl,
      .inr ⟨⟨rfl, fun t ht => absurd ht (hnone t)⟩, rfl⟩⟩

/-- The results are those of the calls about the record. -/
theorem results_eq (hfits : p.AllFit keyPrefix)
    (hsettled : p.Settled) :
    p.results = (abstract keyPrefix p).outcomes.map fun x => (x.1, outcome tenantId x.2) := by
  unfold World.results State.outcomes abstract
  rw [List.map_flatMap, List.flatMap_map]
  refine List.flatMap_congr fun t ht => ?_
  obtain ⟨r, hr⟩ := hsettled t ht
  have hfit := hfits t ht
  rw [hr] at hfit
  have hr' : outcome tenantId (resultOf r) = r := hfit
  simp [hr, phase, Phase.outcome?, hr']

/-- **When calls about a tenant are serializable.** -/
theorem serializable_of_run
    (hcareful : (system keyPrefix tenantId).StepsMeet (Careful keyPrefix)
      ⟨⟨fun _ => none, s⟩, []⟩ es)
    (hrun : (system keyPrefix tenantId).runFrom ⟨⟨fun _ => none, s⟩, []⟩ es = some p)
    (hsettled : p.Settled) : Serializable keyPrefix ⟨fun _ => none, s⟩ p := by
  have hinv := inv_of_run hcareful hrun
  obtain ⟨hmemory, hothers⟩ := untouched_of_run hrun
  have hall : (abstract keyPrefix p).Settled := by
    intro c hc
    obtain ⟨t, ht, rfl⟩ := List.mem_map.mp hc
    obtain ⟨r, hr⟩ := hsettled t ht
    exact ⟨resultOf r, by rw [hr]; rfl⟩
  obtain ⟨⟨log, hperm, hserial, hafter⟩, hcache⟩ := serializable_of_steps hinv.steps hall
  have hnil : log = [] ↔ (abstract keyPrefix p).calls = [] := by
    rw [← hall.outcomes_eq_nil_iff]
    exact ⟨fun h => (h ▸ hperm).symm.eq_nil, fun h => (h ▸ hperm).eq_nil⟩
  have hlive (hlog : log ≠ []) : ∀ e, s.lookup (buildTenantKey keyPrefix tenantId) = some e →
      e.IsLive 0 := by
    refine hinv.live.resolve_right fun hidle => ?_
    -- a call that has settled is not waiting for its first command
    obtain ⟨c, hc⟩ := List.exists_mem_of_ne_nil _ fun h => hlog (hnil.mpr h)
    obtain ⟨r, hr⟩ := hall c hc
    obtain ⟨t, ht, rfl⟩ := List.mem_map.mp hc
    obtain hphase | ⟨new, hphase⟩ := hidle.1.2 t ht
    all_goals cases hphase.symm.trans hr
  obtain ⟨w, hserially, hstore, hkeys, hinit, hleft⟩ :=
    serially_of_serial (w := ⟨fun _ => none, s⟩) (.inl rfl) hlive hserial
  refine ⟨_, w, ?_, hserially, funext fun id => ?_, fun key => ?_⟩
  · rw [results_eq hinv.fits hsettled]
    exact hperm.map _
  · by_cases hid : id = tenantId
    · subst hid
      obtain ⟨hcalls, hcache⟩ | hinitial := hcache
      · rw [hleft (mt hnil.mp hcalls), Function.update_self, hstore, hafter]
        exact hcache.symm
      · rw [hinit (hnil.mpr (congrArg State.calls hinitial))]
        exact (congrArg State.cache hinitial).symm
    · rw [hmemory id hid]
      by_cases hlog : log = []
      · rw [hinit hlog]
      · rw [hleft hlog, Function.update_of_ne hid]
  · by_cases hkey : key = buildTenantKey keyPrefix tenantId
    · subst hkey
      exact hstore.trans hafter
    · rw [hkeys key hkey, hothers key hkey]

end

section

variable {w w' : Shared Cache (Store StoredTenant)}
variable {l : List (Call tenantId × Except Thrown Result)}

/-- The first of some calls is its operation on the record. -/
theorem performs_of_serially {c : Call tenantId} {r : Except Thrown Result}
    (h : Serially keyPrefix w ((c, r) :: l) w') (hcoherent : IsCoherent keyPrefix tenantId w) :
    ∃ times w₁, Performs keyPrefix c ⟨w, times, []⟩ r w₁ ∧
      IsCoherent keyPrefix tenantId w₁.toShared ∧ Serially keyPrefix w₁.toShared l w' := by
  cases h with
  | @cons _ _ _ _ _ times w₁ htimes hrun hrest =>
    obtain ⟨r', w₂, hrun', hperforms⟩ :=
      run_method (w := ⟨w, times, []⟩) c hcoherent (htimes 0)
    cases hrun.symm.trans hrun'
    refine ⟨times, w₁, hperforms, .inr ?_, hrest⟩
    rw [hperforms.memory, Function.update_self]

/-- An update that is done lays its part for a field over what is stored there. -/
theorem bind_field_of_performs {β : Type} {field : StoredTenant → Option β}
    {part : PartialConfig → OptionalField β}
    (hfield : ∀ config existing,
      field (existing.update tenantId config) = (part config).laidOver (field existing))
    {config : PartialConfig} {w w' : SoloWorld}
    (h : Performs keyPrefix (.updateTenant config : Call tenantId) w (.ok .done) w') :
    (storedTenant keyPrefix tenantId w'.server).bind field =
      (part config).laidOver ((storedTenant keyPrefix tenantId w.server).bind field) := by
  have hdone := h.result
  cases hstored : storedTenant keyPrefix tenantId w.server with
  | none =>
    rw [hstored] at hdone
    cases hdone
  | some tenant =>
    have hupdated : storedTenant keyPrefix tenantId w'.server =
        some (tenant.update tenantId config) := by
      rw [h.store, hstored]
      rfl
    rw [hupdated, Option.bind_some, Option.bind_some, hfield]

/-- **No field is lost** to updates that set others: one after another, updates that set a field to
a value or leave it as it is leave the value there that one of them has set. -/
theorem field_of_serially {β : Type} (field : StoredTenant → Option β)
    (part : PartialConfig → OptionalField β)
    (hfield : ∀ config existing,
      field (existing.update tenantId config) = (part config).laidOver (field existing))
    (h : Serially keyPrefix w l w') (hcoherent : IsCoherent keyPrefix tenantId w) (value : β)
    (hupdates : ∀ x ∈ l, x.2 = .ok .done ∧ ∃ config, x.1 = .updateTenant config ∧
      (part config = .absent ∨ part config = .value value))
    (hset : (storedTenant keyPrefix tenantId w.server).bind field = some value ∨
      ∃ x ∈ l, ∃ config, x.1 = .updateTenant config ∧ part config = .value value) :
    (storedTenant keyPrefix tenantId w'.server).bind field = some value := by
  induction l generalizing w with
  | nil =>
    cases h
    obtain hset | ⟨x, hx, -⟩ := hset
    · exact hset
    · cases hx
  | cons x l ih =>
    obtain ⟨c, r⟩ := x
    obtain ⟨hresult, config, hc, hconfig⟩ := hupdates _ List.mem_cons_self
    obtain rfl : r = .ok .done := hresult
    obtain rfl : c = .updateTenant config := hc
    obtain ⟨times, w₁, hperforms, hcoherent₁, hrest⟩ := performs_of_serially h hcoherent
    refine ih hrest hcoherent₁ (fun x hx => hupdates x (List.mem_cons_of_mem _ hx)) ?_
    have hfield₁ := bind_field_of_performs hfield hperforms
    dsimp only at hfield₁
    rw [hfield₁]
    obtain habsent | hvalue := hconfig
    · refine hset.imp (fun hset => ?_) fun hlater => ?_
      · rw [habsent]
        exact hset
      · obtain ⟨x, hx, config', hx', hvalue⟩ := hlater
        obtain rfl | hx := List.mem_cons.mp hx
        · cases hx'
          cases habsent.symm.trans hvalue
        · exact ⟨x, hx, config', hx', hvalue⟩
    · rw [hvalue]
      exact .inl rfl

/-- **A tenant that the last call deletes** is gone, from Redis and from the cache. -/
theorem deleted_of_serially {r : Except Thrown Result}
    (h : Serially keyPrefix w (l ++ [(.deleteTenant, r)]) w')
    (hcoherent : IsCoherent keyPrefix tenantId w) :
    storedTenant keyPrefix tenantId w'.server = none ∧ w'.memory tenantId = none := by
  induction l generalizing w with
  | nil =>
    obtain ⟨times, w₁, hperforms, -, hrest⟩ := performs_of_serially h hcoherent
    cases hrest
    have hstore : storedTenant keyPrefix tenantId w₁.server = none := hperforms.store
    refine ⟨hstore, ?_⟩
    rw [hperforms.memory, Function.update_self, hstore]
  | cons x l ih =>
    obtain ⟨times, w₁, -, hcoherent₁, hrest⟩ := performs_of_serially h hcoherent
    exact ih hrest hcoherent₁

end

/-! ## Two updates -/

/-- A tenant. -/
def acme : StoredTenant where
  tenantId := some "acme"
  name := some "Acme"
  createdAt := some 0
  enabled := some true

/-- A new manager of a database with the tenant. -/
def oneTenant : World "acme" :=
  ⟨⟨fun _ => none, Store.empty.set "acl:tenant:acme" acme (some 31536000000)⟩, []⟩

/-- An update of the name. -/
def renamed : PartialConfig where
  name := .value "Acme Corp"

/-- An update of another field. -/
def disabled : PartialConfig where
  enabled := .value false

/-- The tenant is read while it is renamed. -/
def readAndRenamed : List (PoolEvent (Call "acme") ℕ) :=
  [.spawn .getTenant, .spawn (.updateTenant renamed), .exec 0 0, .exec 1 0, .resume 0, .resume 1,
    .exec 1 0, .resume 1]

/-- The tenant is renamed and disabled at the same time. -/
def renamedAndDisabled : List (PoolEvent (Call "acme") ℕ) :=
  [.spawn (.updateTenant renamed), .spawn (.updateTenant disabled), .exec 0 0, .exec 1 0,
    .resume 0, .resume 1, .exec 0 0, .exec 1 0, .resume 0, .resume 1]

theorem serializable_readAndRenamed :
    ∃ p, (system "acl" "acme").runFrom oneTenant readAndRenamed = some p ∧ p.Settled ∧
      Serializable "acl" oneTenant.toShared p := by
  have hcareful : (system "acl" "acme").StepsMeet (Careful "acl") oneTenant readAndRenamed := by
    decide +kernel
  have hfacts : ((system "acl" "acme").runFrom oneTenant readAndRenamed).any
      fun p => decide p.Settled := by decide +kernel
  obtain ⟨p, hrun, hp⟩ := (Option.any_eq_true _ _).mp hfacts
  have hsettled := of_decide_eq_true hp
  exact ⟨p, hrun, hsettled, serializable_of_run hcareful hrun hsettled⟩

/-- **An update is lost** that overlaps another one: the name is the old one again. -/
theorem not_serializable_renamedAndDisabled :
    ∃ p, (system "acl" "acme").runFrom oneTenant renamedAndDisabled = some p ∧ p.Settled ∧
      ¬ Serializable "acl" oneTenant.toShared p := by
  have hfacts : ((system "acl" "acme").runFrom oneTenant renamedAndDisabled).any fun p =>
      decide p.Settled &&
        decide (p.results =
          [(.updateTenant renamed, .ok .done), (.updateTenant disabled, .ok .done)]) &&
        decide ((storedTenant "acl" "acme" p.server).bind (·.name) = some "Acme") := by
    decide +kernel
  obtain ⟨p, hrun, hp⟩ := (Option.any_eq_true _ _).mp hfacts
  simp only [Bool.and_eq_true, decide_eq_true_eq] at hp
  obtain ⟨⟨hsettled, hresults⟩, hname⟩ := hp
  refine ⟨p, hrun, hsettled, ?_⟩
  rintro ⟨order, w, hperm, hserially, -, hkeys⟩
  rw [hresults] at hperm
  have hserial := field_of_serially StoredTenant.name PartialConfig.name (fun _ _ => rfl)
    hserially (.inl rfl) "Acme Corp" ?_
    (.inr ⟨_, hperm.mem_iff.mpr List.mem_cons_self, renamed, rfl, rfl⟩)
  · have hstored : storedTenant "acl" "acme" w.server = storedTenant "acl" "acme" p.server :=
      hkeys _
    rw [hstored, hname] at hserial
    exact absurd (Option.some.inj hserial) (by decide)
  · intro x hx
    obtain rfl | rfl := List.mem_pair.mp (hperm.mem_iff.mp hx)
    · exact ⟨rfl, renamed, rfl, .inr rfl⟩
    · exact ⟨rfl, disabled, rfl, .inl rfl⟩

end KitiumJobQueue.AccessControl.Tenants
