import KitiumJobQueue.Encryption.RoundTrip

/-!
# The active key

Which key is active is said twice, by `isActive` of each stored key and by `activeKeyId`.
`rotateKey` sets both. `addKey` and `deactivateKey` set the first alone, so that there may be two
active keys, or one that encrypts and is not active. Where no call does so (`Call.IsInStep`), at
most one stored key is active and none but that one encrypts (`sound_of_run`). What is stored need
not be looked at for this: as long as no method rejects, the cache holds the stored keys
(`Manager.Mirrored`).
-/

namespace KitiumJobQueue.Encryption

open Effects JavaScript

variable {env : Setting} {m m' : Manager} {config : EncryptionKeyConfig} {keyId : String}

/-- One manager under any sequence of calls about keys, none of which rejects. -/
def methods (env : Setting) : System Manager Call where
  step m c :=
    match (c.method env).run m with
    | (.ok (), m') => some m'
    | (.error _, _) => none

/-- A manager over an empty database. -/
def Manager.init : Manager := { redis := ⟨.empty, 0⟩ }

/-- The ids of the stored keys that are active. -/
def Manager.activeIds (m : Manager) : List String :=
  (m.redis.server.entries.entries.filter fun e => e.2.value.isActive).map fun e => e.2.value.keyId

/-- At most one stored key is active, and what is encrypted is encrypted under that key. -/
def Manager.Sound (env : Setting) (m : Manager) : Prop :=
  m.activeIds.length ≤ 1 ∧
    ∀ data iv encrypted, encrypt env m data iv = .ok encrypted → encrypted.keyId ∈ m.activeIds

/-- The call keeps what is stored in step with `activeKeyId`: it makes no second key active, and
does not take the flag from the key that encrypts. -/
def Call.IsInStep (m : Manager) : Call → Prop
  | .initializeManager _ | .removeKey _ => True
  | .addKey config =>
    if config.isActive then ∀ id ∈ m.activeIds, id = config.keyId
    else m.activeKeyId? ≠ some config.keyId
  | .rotateKey newKey => ∀ id ∈ m.activeIds, id = newKey.keyId ∨ m.activeKeyId? = some id
  | .deactivateKey keyId => m.activeKeyId? = some keyId → m.keysCache keyId = none

instance (m : Manager) : DecidablePred (Call.IsInStep m)
  | .initializeManager _ | .removeKey _ => .isTrue trivial
  | .addKey config => inferInstanceAs (Decidable (if config.isActive then
      ∀ id ∈ m.activeIds, id = config.keyId else m.activeKeyId? ≠ some config.keyId))
  | .rotateKey newKey => inferInstanceAs (Decidable
      (∀ id ∈ m.activeIds, id = newKey.keyId ∨ m.activeKeyId? = some id))
  | .deactivateKey keyId =>
    inferInstanceAs (Decidable (m.activeKeyId? = some keyId → m.keysCache keyId = none))

/-! ## What the methods do -/

/-- The manager with a key stored and cached. -/
def Manager.put (env : Setting) (m : Manager) (config : EncryptionKeyConfig) : Manager :=
  (m.withRedis ⟨m.redis.server.set (buildKeyName env config.keyId) config none,
    m.redis.calls + 1⟩).withCached config.keyId (some config)

/-- The manager with the key that is cached under an id, if there is one, stored and cached as
inactive. -/
def Manager.retired (env : Setting) (m : Manager) (keyId : String) : Manager :=
  match m.keysCache keyId with
  | some config => m.put env { config with isActive := false }
  | none => m

/-- The manager with no key stored or cached under an id. -/
def Manager.drop (env : Setting) (m : Manager) (keyId : String) : Manager :=
  (m.withRedis ⟨m.redis.server.del (buildKeyName env keyId), m.redis.calls + 1⟩).withCached keyId
    none

theorem command_eq_ok {α : Type} {a : α}
    {op : Redis.Store EncryptionKeyConfig → α × Redis.Store EncryptionKeyConfig}
    (h : (command env op).run m = (.ok a, m')) :
    a = (op m.redis.server).1 ∧ m' = m.withRedis ⟨(op m.redis.server).2, m.redis.calls + 1⟩ := by
  cases ha : env.answers m.redis.calls with
  | answered =>
    rw [command, Async.run_within (run_call_of_answered ha)] at h
    simp only [Prod.mk.injEq, Except.ok.injEq] at h
    exact ⟨h.1.symm, h.2.symm⟩
  | rejected e applied =>
    rw [command, Async.run_within (run_call_of_rejected ha)] at h
    simp at h

theorem addKey_eq_ok (h : (addKey env config).run m = (.ok (), m')) : m' = m.put env config := by
  obtain ⟨_, m₁, hset, hcache⟩ := Async.run_bind_eq_ok.mp h
  obtain ⟨-, rfl⟩ := command_eq_ok hset
  exact (Prod.mk.inj hcache).2.symm

theorem removeKey_eq_ok (h : (removeKey env keyId).run m = (.ok (), m')) :
    m' = m.drop env keyId := by
  obtain ⟨_, m₁, hdel, hcache⟩ := Async.run_bind_eq_ok.mp h
  obtain ⟨-, rfl⟩ := command_eq_ok hdel
  exact (Prod.mk.inj hcache).2.symm

theorem retire_eq_ok (hid : config.keyId = keyId)
    (h : (retire env keyId config).run m = (.ok (), m')) :
    m' = m.put env { config with isActive := false } := by
  subst hid
  rw [retire, setCached, Async.run_bind_of_ok (Async.run_modify _ m)] at h
  rw [addKey_eq_ok h]
  simp [Manager.put, Manager.withCached, Manager.withRedis]

theorem deactivateKey_eq_ok (hm : m.Named) (h : (deactivateKey env keyId).run m = (.ok (), m')) :
    m' = m.retired env keyId := by
  obtain ⟨_, _, hread, h⟩ := Async.run_bind_eq_ok.mp h
  obtain ⟨hcached, rfl⟩ := Prod.mk.inj hread
  obtain rfl := Except.ok.inj hcached
  unfold Manager.retired
  cases hkey : m.keysCache keyId with
  | none =>
    simp only [hkey] at h
    exact (Prod.mk.inj h).2.symm
  | some config =>
    simp only [hkey] at h
    exact retire_eq_ok (hm keyId config hkey) h

theorem retireActive_eq_ok (hm : m.Named) (h : (retireActive env).run m = (.ok (), m')) :
    m' = match m.activeKeyId? with
      | some activeKeyId => m.retired env activeKeyId
      | none => m := by
  obtain ⟨_, _, hread, h⟩ := Async.run_bind_eq_ok.mp h
  obtain ⟨hstate, rfl⟩ := Prod.mk.inj hread
  obtain rfl := Except.ok.inj hstate
  cases hactive : m.activeKeyId? with
  | none =>
    simp only [id_eq, hactive] at h
    exact (Prod.mk.inj h).2.symm
  | some activeKeyId =>
    simp only [id_eq, hactive] at h
    exact deactivateKey_eq_ok hm h

/-- `rotateKey` retires the active key, and then stores, caches and names the new one. -/
theorem rotateKey_eq_ok {newKey : EncryptionKeyConfig}
    (h : (rotateKey env newKey).run m = (.ok (), m')) :
    ∃ m₁, (retireActive env).run m = (.ok (), m₁) ∧
      m' = { m₁.put env { newKey with isActive := true } with activeKeyId := newKey.keyId } := by
  obtain ⟨_, m₁, hretire, h⟩ := Async.run_bind_eq_ok.mp h
  obtain ⟨_, m₂, hadd, hname⟩ := Async.run_bind_eq_ok.mp h
  refine ⟨m₁, hretire, ?_⟩
  rw [← addKey_eq_ok hadd]
  exact (Prod.mk.inj hname).2.symm

/-! ## Reading the keys -/

/-- The fields that the methods read, and what is stored. -/
def Manager.visible (m : Manager) :
    Redis.Store EncryptionKeyConfig × Option String × (String → Option EncryptionKeyConfig) :=
  (m.redis.server, m.activeKeyId, m.keysCache)

/-- The key is stored. -/
def Manager.Stores (m : Manager) (config : EncryptionKeyConfig) : Prop :=
  ∃ key e, m.redis.server.lookup key = some e ∧ e.value = config

theorem stores_of_readKeys {now : ℕ} {keys : List String}
    {configs found : List EncryptionKeyConfig} (hconfigs : ∀ config ∈ configs, m.Stores config)
    (h : (readKeys env now keys configs).run m = (.ok found, m')) :
    ∀ config ∈ found, m.Stores config := by
  induction keys generalizing m configs with
  | nil =>
    obtain rfl := Except.ok.inj (Prod.mk.inj h).1
    exact hconfigs
  | cons key keys ih =>
    obtain ⟨data, m₁, hget, h⟩ := Async.run_bind_eq_ok.mp h
    obtain ⟨rfl, hm₁⟩ := command_eq_ok hget
    have hstores : ∀ config, m₁.Stores config ↔ m.Stores config := fun config => by rw [hm₁]; rfl
    simp only [← hstores] at hconfigs ⊢
    refine ih (fun config hconfig => ?_) h
    rcases List.mem_append.mp hconfig with hconfig | hconfig
    · exact hconfigs config hconfig
    · obtain ⟨e, he, -, hvalue⟩ := Redis.Store.get_eq_some.mp (Option.mem_toList.mp hconfig)
      exact (hstores config).mpr ⟨key, e, he, hvalue⟩

/-- `getKeys` resolves with keys that are stored, and changes no more than the number of calls. -/
theorem run_getKeys (env : Setting) (now : ℕ) (m : Manager) :
    ∃ configs m', (getKeys env now).run m = (.ok configs, m') ∧ m'.visible = m.visible ∧
      ∀ config ∈ configs, m.Stores config := by
  have hvisible : ((getKeys env now).run m).2.visible = m.visible :=
    keeps_getKeys (fun _ _ => rfl) now m
  cases hinner : (do
      let keys ← command env fun r => (r.keys env.scan now (env.keyPrefix ++ ":*"), r)
      readKeys env now keys [] : Async Thrown Manager _).run m with
  | mk r m' =>
    cases r with
    | error e =>
      have hrun : (getKeys env now).run m = (.ok [], m') := Async.run_tryCatch_of_error hinner
      rw [hrun] at hvisible
      exact ⟨[], m', hrun, hvisible, by simp⟩
    | ok configs =>
      have hrun : (getKeys env now).run m = (.ok configs, m') := Async.run_tryCatch_of_ok hinner
      rw [hrun] at hvisible
      refine ⟨configs, m', hrun, hvisible, ?_⟩
      obtain ⟨keys, m₁, hkeys, hread⟩ := Async.run_bind_eq_ok.mp hinner
      obtain ⟨-, hm₁⟩ := command_eq_ok hkeys
      have hstores : ∀ config, m₁.Stores config ↔ m.Stores config := fun config => by rw [hm₁]; rfl
      simp only [← hstores]
      exact stores_of_readKeys (by simp) hread

/-- `initialize` names an active key that is stored, or none. -/
theorem run_initializeManager (env : Setting) (now : ℕ) (m : Manager) :
    ∃ m', (initializeManager env now).run m = (.ok (), m') ∧
      (m'.visible = m.visible ∨ ∃ config, m.Stores config ∧ config.isActive = true ∧
        m'.visible = { m with activeKeyId := some config.keyId }.visible) := by
  obtain ⟨configs, m', hrun, hvisible, hstores⟩ := run_getKeys env now m
  cases hfind : configs.find? EncryptionKeyConfig.isActive with
  | none =>
    refine ⟨m', Async.run_tryCatch_of_ok ?_, .inl hvisible⟩
    rw [Async.run_bind_of_ok hrun, hfind]
    rfl
  | some active =>
    refine ⟨{ m' with activeKeyId := some active.keyId }, Async.run_tryCatch_of_ok ?_,
      .inr ⟨active, hstores active (List.mem_of_find?_eq_some hfind), List.find?_some hfind, ?_⟩⟩
    · rw [Async.run_bind_of_ok hrun, hfind]
      rfl
    · simp only [Manager.visible, Prod.mk.injEq] at hvisible ⊢
      exact ⟨hvisible.1, trivial, hvisible.2.2⟩

/-! ## The cache holds what is stored -/

/-- The cache holds the stored keys, and each of them is stored under the name of its id. -/
structure Manager.Mirrored (env : Setting) (m : Manager) : Prop where
  cached : ∀ keyId,
    m.keysCache keyId = (m.redis.server.lookup (buildKeyName env keyId)).map Redis.Entry.value
  shelved : ∀ {key e}, m.redis.server.lookup key = some e → key = buildKeyName env e.value.keyId

theorem buildKeyName_inj {id id' : String} :
    buildKeyName env id = buildKeyName env id' ↔ id = id' := by
  simp [buildKeyName]

theorem Manager.Mirrored.keysCache_eq_some (hm : m.Mirrored env) :
    m.keysCache keyId = some config ↔
      ∃ e, m.redis.server.lookup (buildKeyName env keyId) = some e ∧ e.value = config := by
  rw [hm.cached, Option.map_eq_some_iff]

theorem Manager.Mirrored.named (hm : m.Mirrored env) : m.Named := by
  intro keyId config hconfig
  obtain ⟨e, he, rfl⟩ := hm.keysCache_eq_some.mp hconfig
  exact (buildKeyName_inj.mp (hm.shelved he)).symm

theorem Manager.Mirrored.of_visible (hm : m.Mirrored env)
    (hredis : m'.redis.server = m.redis.server) (hcache : m'.keysCache = m.keysCache) :
    m'.Mirrored env where
  cached keyId := by rw [hredis, hcache, hm.cached]
  shelved h := hm.shelved (hredis ▸ h)

theorem mirrored_init : Manager.init.Mirrored env where
  cached _ := rfl
  shelved h := by simp [Manager.init] at h

theorem mirrored_put (hm : m.Mirrored env) (config : EncryptionKeyConfig) :
    (m.put env config).Mirrored env where
  cached keyId := by
    show Function.update m.keysCache config.keyId (some config) keyId = _
    rw [Function.update_apply, hm.cached]
    simp only [Manager.put, Manager.withCached, Manager.withRedis, Redis.Store.lookup_set,
      buildKeyName_inj]
    split <;> rfl
  shelved {key e} h := by
    simp only [Manager.put, Manager.withCached, Manager.withRedis, Redis.Store.lookup_set] at h
    split at h
    case isTrue hkey =>
      obtain rfl := Option.some.inj h
      exact hkey
    case isFalse => exact hm.shelved h

theorem mirrored_drop (hm : m.Mirrored env) (keyId : String) : (m.drop env keyId).Mirrored env where
  cached id := by
    show Function.update m.keysCache keyId none id = _
    rw [Function.update_apply, hm.cached]
    simp only [Manager.drop, Manager.withCached, Manager.withRedis, Redis.Store.lookup_del,
      buildKeyName_inj]
    split <;> rfl
  shelved {key e} h := by
    simp only [Manager.drop, Manager.withCached, Manager.withRedis, Redis.Store.lookup_del] at h
    split at h
    case isTrue => simp at h
    case isFalse => exact hm.shelved h

theorem mirrored_retired (hm : m.Mirrored env) (keyId : String) :
    (m.retired env keyId).Mirrored env := by
  unfold Manager.retired
  cases m.keysCache keyId with
  | none => exact hm
  | some config => exact mirrored_put hm _

theorem mirrored_retireActive (hm : m.Mirrored env) (h : (retireActive env).run m = (.ok (), m')) :
    m'.Mirrored env := by
  rw [retireActive_eq_ok hm.named h]
  cases m.activeKeyId? with
  | none => exact hm
  | some activeKeyId => exact mirrored_retired hm activeKeyId

/-! ## Active keys -/

/-- The cache holds an active key under the id. -/
def Manager.Active (m : Manager) (keyId : String) : Prop :=
  ∃ config, m.keysCache keyId = some config ∧ config.isActive = true

theorem active_put :
    (m.put env config).Active keyId ↔
      keyId = config.keyId ∧ config.isActive = true ∨ keyId ≠ config.keyId ∧ m.Active keyId := by
  unfold Manager.Active
  by_cases h : keyId = config.keyId
  · subst h
    simp [Manager.put, Manager.withCached]
  · simp [Manager.put, Manager.withCached, Manager.withRedis, h]

theorem active_drop {id : String} :
    (m.drop env id).Active keyId ↔ keyId ≠ id ∧ m.Active keyId := by
  unfold Manager.Active
  by_cases h : keyId = id
  · subst h
    simp [Manager.drop, Manager.withCached]
  · simp [Manager.drop, Manager.withCached, Manager.withRedis, h]

theorem active_retired (hm : m.Named) {id : String} :
    (m.retired env id).Active keyId ↔ keyId ≠ id ∧ m.Active keyId := by
  unfold Manager.retired
  cases hid : m.keysCache id with
  | none =>
    refine ⟨fun h => ⟨?_, h⟩, And.right⟩
    rintro rfl
    obtain ⟨config, hconfig, -⟩ := h
    simp [hid] at hconfig
  | some config =>
    have hnamed : config.keyId = id := hm id config hid
    simp [active_put, hnamed]

theorem active_retireActive (hm : m.Named) (h : (retireActive env).run m = (.ok (), m')) :
    m'.Active keyId ↔ m.activeKeyId? ≠ some keyId ∧ m.Active keyId := by
  rw [retireActive_eq_ok hm h]
  cases m.activeKeyId? with
  | none => simp
  | some activeKeyId => simp [active_retired hm, eq_comm]

/-- The active keys in the cache are those that are stored. -/
theorem mem_activeIds (hm : m.Mirrored env) : keyId ∈ m.activeIds ↔ m.Active keyId := by
  simp only [Manager.activeIds, List.mem_map, List.mem_filter, Sigma.exists,
    Redis.Store.mem_entries, Manager.Active, hm.keysCache_eq_some]
  constructor
  · rintro ⟨key, e, ⟨he, hactive⟩, rfl⟩
    exact ⟨e.value, ⟨e, hm.shelved he ▸ he, rfl⟩, hactive⟩
  · rintro ⟨config, ⟨e, he, rfl⟩, hactive⟩
    exact ⟨_, e, ⟨he, hactive⟩, (buildKeyName_inj.mp (hm.shelved he)).symm⟩

/-- No id is stored twice. -/
theorem nodup_activeIds (hm : m.Mirrored env) : m.activeIds.Nodup := by
  refine List.Nodup.of_map (buildKeyName env) ?_
  have hkeys : m.activeIds.map (buildKeyName env) =
      (m.redis.server.entries.entries.filter fun e => e.2.value.isActive).map Sigma.fst := by
    rw [Manager.activeIds, List.map_map]
    refine List.map_congr_left fun e he => ?_
    exact (hm.shelved (Redis.Store.mem_entries.mp (List.mem_of_mem_filter he))).symm
  rw [hkeys]
  exact m.redis.server.entries.keys_nodup.sublist (List.filter_sublist.map Sigma.fst)

/-- There is at most one active key if any two are the same. -/
theorem length_activeIds_le_one (hm : m.Mirrored env)
    (h : ∀ id id', m.Active id → m.Active id' → id = id') : m.activeIds.length ≤ 1 := by
  have hnodup := nodup_activeIds hm
  have hmem : ∀ id ∈ m.activeIds, m.Active id := fun id => (mem_activeIds hm).mp
  match hids : m.activeIds with
  | [] | [_] => simp
  | id :: id' :: ids =>
    rw [hids] at hnodup hmem
    have heq : id = id' := h id id' (hmem id (by simp)) (hmem id' (by simp))
    simp [heq] at hnodup

/-- At most one key in the cache is active, and if the cache holds the key that encrypts, it is that
one. -/
structure Manager.Consistent (m : Manager) : Prop where
  one : ∀ {id id'}, m.Active id → m.Active id' → id = id'
  used : ∀ {id config}, m.activeKeyId? = some id → m.keysCache id = some config →
    config.isActive = true

theorem Manager.Consistent.of_visible (hc : m.Consistent) (hactive : m'.activeKeyId = m.activeKeyId)
    (hcache : m'.keysCache = m.keysCache) : m'.Consistent where
  one h h' := by
    unfold Manager.Active at h h'
    rw [hcache] at h h'
    exact hc.one h h'
  used h h' := by
    unfold Manager.activeKeyId? at h
    rw [hactive] at h
    exact hc.used h (hcache ▸ h')

theorem consistent_init : Manager.init.Consistent where
  one h := by simp [Manager.Active, Manager.init] at h
  used h := by simp [Manager.activeKeyId?, Manager.init] at h

theorem keysCache_put {id : String} :
    (m.put env config).keysCache id = if id = config.keyId then some config else m.keysCache id :=
  Function.update_apply _ _ _ _

theorem keysCache_drop {id : String} :
    (m.drop env keyId).keysCache id = if id = keyId then none else m.keysCache id :=
  Function.update_apply _ _ _ _

/-- Putting an active key is consistent if no other is active, and putting an inactive one if it is
not the one that encrypts. -/
theorem consistent_put (hc : m.Consistent)
    (hone : config.isActive = true → ∀ id, m.Active id → id = config.keyId)
    (hused : m.activeKeyId? = some config.keyId → config.isActive = true) :
    (m.put env config).Consistent where
  one {id id'} h h' := by
    rcases active_put.mp h with ⟨hid, hactive⟩ | ⟨hid, hactive⟩
    · rcases active_put.mp h' with ⟨hid', -⟩ | ⟨hid', hactive'⟩
      · rw [hid, hid']
      · exact absurd (hone hactive id' hactive') hid'
    · rcases active_put.mp h' with ⟨hid', hactive'⟩ | ⟨-, hactive'⟩
      · exact absurd (hone hactive' id hactive) hid
      · exact hc.one hactive hactive'
  used {id config'} h h' := by
    rw [keysCache_put] at h'
    split at h'
    case isTrue hid =>
      obtain rfl := Option.some.inj h'
      exact hused (hid ▸ h)
    case isFalse => exact hc.used h h'

theorem consistent_drop (hc : m.Consistent) (keyId : String) : (m.drop env keyId).Consistent where
  one h h' := hc.one (active_drop.mp h).2 (active_drop.mp h').2
  used {id config} h h' := by
    rw [keysCache_drop] at h'
    split at h'
    case isTrue => simp at h'
    case isFalse => exact hc.used h h'

theorem consistent_retired (hm : m.Named) (hc : m.Consistent)
    (h : m.activeKeyId? = some keyId → m.keysCache keyId = none) :
    (m.retired env keyId).Consistent := by
  unfold Manager.retired
  cases hkey : m.keysCache keyId with
  | none => exact hc
  | some config =>
    have hid : config.keyId = keyId := hm keyId config hkey
    refine consistent_put hc (by simp) fun hactive => ?_
    rw [h (hid ▸ hactive)] at hkey
    simp at hkey

/-- After a rotation the new key is the one that is active. -/
theorem consistent_rotateKey {newKey : EncryptionKeyConfig} {m₁ : Manager} (hm : m.Mirrored env)
    (hin : Call.IsInStep m (.rotateKey newKey))
    (hretire : (retireActive env).run m = (.ok (), m₁)) :
    Manager.Consistent
      { m₁.put env { newKey with isActive := true } with activeKeyId := newKey.keyId } where
  one {id id'} h h' := by
    have hnew : ∀ {id}, (m₁.put env { newKey with isActive := true }).Active id →
        id = newKey.keyId := by
      intro id h
      rcases active_put.mp h with ⟨hid, -⟩ | ⟨-, hactive⟩
      · exact hid
      · obtain ⟨hne, hactive⟩ := (active_retireActive hm.named hretire).mp hactive
        exact (hin id ((mem_activeIds hm).mpr hactive)).resolve_right hne
    rw [hnew h, hnew h']
  used {id config} h h' := by
    have hid : newKey.keyId = id := by
      simp only [Manager.activeKeyId?, Option.filter_eq_some_iff, Option.some.injEq] at h
      exact h.1
    have hcached : (m₁.put env { newKey with isActive := true }).keysCache id = some config := h'
    rw [keysCache_put, if_pos hid.symm] at hcached
    obtain rfl := Option.some.inj hcached
    rfl

theorem consistent_initializeManager {now : ℕ} (hm : m.Mirrored env) (hc : m.Consistent)
    (h : (initializeManager env now).run m = (.ok (), m')) : m'.Mirrored env ∧ m'.Consistent := by
  obtain ⟨m₁, hrun, hcases⟩ := run_initializeManager env now m
  obtain ⟨-, rfl⟩ := Prod.mk.inj (h.symm.trans hrun)
  rcases hcases with hvisible | ⟨config, ⟨key, e, he, rfl⟩, hactive, hvisible⟩
  · simp only [Manager.visible, Prod.mk.injEq] at hvisible
    exact ⟨hm.of_visible hvisible.1 hvisible.2.2, hc.of_visible hvisible.2.1 hvisible.2.2⟩
  · simp only [Manager.visible, Prod.mk.injEq] at hvisible
    obtain ⟨hredis, hid, hcache⟩ := hvisible
    refine ⟨hm.of_visible hredis hcache, ?_⟩
    have hcached : m.keysCache e.value.keyId = some e.value :=
      hm.keysCache_eq_some.mpr ⟨e, hm.shelved he ▸ he, rfl⟩
    refine Manager.Consistent.of_visible
      (m := { m with activeKeyId := some e.value.keyId }) ⟨hc.one, fun {id config} h h' => ?_⟩
      hid hcache
    simp only [Manager.activeKeyId?, Option.filter_eq_some_iff, Option.some.injEq] at h
    obtain ⟨rfl, -⟩ := h
    obtain rfl := Option.some.inj (hcached.symm.trans h')
    exact hactive

/-! ## Runs -/

/-- **A call that keeps what is stored in step with `activeKeyId` leaves it so.** -/
theorem consistent_method {c : Call} (hm : m.Mirrored env) (hc : m.Consistent)
    (hin : c.IsInStep m) (h : (c.method env).run m = (.ok (), m')) :
    m'.Mirrored env ∧ m'.Consistent := by
  cases c with
  | initializeManager now => exact consistent_initializeManager hm hc h
  | addKey config =>
    rw [addKey_eq_ok h]
    refine ⟨mirrored_put hm config, consistent_put hc (fun hactive id hid => ?_) fun hused => ?_⟩
    · simp only [Call.IsInStep, hactive, if_true] at hin
      exact hin id ((mem_activeIds hm).mpr hid)
    · by_contra hactive
      simp only [Call.IsInStep, hactive] at hin
      exact hin hused
  | rotateKey newKey =>
    obtain ⟨m₁, hretire, rfl⟩ := rotateKey_eq_ok h
    have hm₁ := mirrored_put (mirrored_retireActive hm hretire) { newKey with isActive := true }
    exact ⟨hm₁.of_visible rfl rfl, consistent_rotateKey hm hin hretire⟩
  | deactivateKey keyId =>
    rw [deactivateKey_eq_ok hm.named h]
    exact ⟨mirrored_retired hm keyId, consistent_retired hm.named hc hin⟩
  | removeKey keyId =>
    rw [removeKey_eq_ok h]
    exact ⟨mirrored_drop hm keyId, consistent_drop hc keyId⟩

/-- **No other call leaves it so.** -/
theorem isInStep_of_consistent {c : Call} (hm : m.Mirrored env)
    (h : (c.method env).run m = (.ok (), m')) (hc : m'.Consistent) : c.IsInStep m := by
  cases c with
  | initializeManager now => trivial
  | removeKey keyId => trivial
  | addKey config =>
    obtain rfl := addKey_eq_ok h
    simp only [Call.IsInStep]
    split
    case isTrue hactive =>
      intro id hid
      by_contra hne
      exact hne (hc.one (active_put.mpr (.inr ⟨hne, (mem_activeIds hm).mp hid⟩))
        (active_put.mpr (.inl ⟨rfl, hactive⟩)))
    case isFalse hactive =>
      intro hused
      exact hactive (hc.used hused (by rw [keysCache_put, if_pos rfl]))
  | rotateKey newKey =>
    obtain ⟨m₁, hretire, rfl⟩ := rotateKey_eq_ok h
    intro id hid
    by_contra hne
    rw [not_or] at hne
    have hactive : m₁.Active id :=
      (active_retireActive hm.named hretire).mpr ⟨hne.2, (mem_activeIds hm).mp hid⟩
    have hput : ∀ {id}, (m₁.put env { newKey with isActive := true }).Active id →
        id = newKey.keyId := fun h => hc.one h (active_put.mpr (.inl ⟨rfl, rfl⟩))
    exact hne.1 (hput (active_put.mpr (.inr ⟨hne.1, hactive⟩)))
  | deactivateKey keyId =>
    obtain rfl := deactivateKey_eq_ok hm.named h
    intro hused
    by_contra hne
    obtain ⟨config, hcached⟩ := Option.ne_none_iff_exists'.mp hne
    have hid : config.keyId = keyId := hm.named keyId config hcached
    simp only [Manager.retired, hcached] at hc
    have hfalse := hc.used (hid ▸ hused) (by rw [keysCache_put, if_pos rfl])
    simp at hfalse

/-- What is stored is sound if the cache is consistent. -/
theorem sound_of_consistent (hm : m.Mirrored env) (hc : m.Consistent) : m.Sound env := by
  refine ⟨length_activeIds_le_one hm fun id id' => hc.one, fun data iv encrypted h => ?_⟩
  obtain ⟨config, hactive⟩ := exists_activeKey_of_encrypt h
  obtain ⟨activeKeyId, hactiveKeyId, hcached⟩ := Manager.activeKey?_eq_some.mp hactive
  rw [mem_activeIds hm, keyId_encrypt hactive h]
  exact ⟨config, keysCache_activeKey hm.named hactive, hc.used hactiveKeyId hcached⟩

/-- **In every run from an empty database whose calls keep what is stored in step with
`activeKeyId`, at most one stored key is active, and what is encrypted is encrypted under that key;
and in the middle of a rotation there is at most one active key, too.** -/
theorem sound_of_run {cs : List Call}
    (hin : (methods env).StepsMeet Call.IsInStep Manager.init cs)
    (hrun : (methods env).runFrom Manager.init cs = some m) :
    m.Sound env ∧
      ∀ m₁, (retireActive env).run m = (.ok (), m₁) → m₁.activeIds.length ≤ 1 := by
  have hinv : m.Mirrored env ∧ m.Consistent := by
    refine System.invariant_of_stepsMeet
      (I := fun m : Manager => m.Mirrored env ∧ m.Consistent) (fun m c m' hm hc hstep => ?_)
      ⟨mirrored_init, consistent_init⟩ hin hrun
    have hmethod : (c.method env).run m = (.ok (), m') := by
      simp only [methods] at hstep
      split at hstep
      case h_1 hok => rw [hok, Option.some.inj hstep]
      case h_2 => simp at hstep
    exact consistent_method hm.1 hm.2 hc hmethod
  obtain ⟨hm, hc⟩ := hinv
  refine ⟨sound_of_consistent hm hc, fun m₁ hretire => ?_⟩
  refine length_activeIds_le_one (mirrored_retireActive hm hretire) fun id id' h h' => ?_
  exact hc.one ((active_retireActive hm.named hretire).mp h).2
    ((active_retireActive hm.named hretire).mp h').2

/-- A key rotated to, then another, and the first one removed; a third key, added as inactive. -/
def rotations : List Call :=
  [.initializeManager 0, .rotateKey (sampleKey "key-1" .aes256Gcm),
    .rotateKey (sampleKey "key-2" .aes256Cbc), .deactivateKey "key-1", .removeKey "key-1",
    .addKey { sampleKey "key-3" .aes256Gcm with isActive := false }, .initializeManager 1]

/-- What encrypts is the second key. -/
theorem sound_rotations :
    ∃ m, (methods sampleSetting).runFrom Manager.init rotations = some m ∧
      m.activeIds = ["key-2"] ∧ m.Sound sampleSetting := by
  obtain ⟨m, hrun, hactive⟩ :
      ∃ m ∈ (methods sampleSetting).runFrom Manager.init rotations, m.activeIds = ["key-2"] := by
    decide +kernel
  exact ⟨m, hrun, hactive, (sound_of_run (by decide +kernel) hrun).1⟩

/-- A key that was deactivated still encrypts. -/
theorem not_sound_deactivateKey :
    ∃ m, (methods sampleSetting).runFrom Manager.init
        [.rotateKey (sampleKey "key-1" .aes256Cbc), .deactivateKey "key-1"] = some m ∧
      ¬ m.Sound sampleSetting := by
  obtain ⟨m, hrun, hnone, hencrypted⟩ :
      ∃ m ∈ (methods sampleSetting).runFrom Manager.init
          [.rotateKey (sampleKey "key-1" .aes256Cbc), .deactivateKey "key-1"],
        m.activeIds = [] ∧ encrypt sampleSetting m (.str "hello") (List.replicate 16 0) =
          .ok
            { ciphertext := "kWhEh8NMNFbrTpAc74hKHg=="
              iv := "AAAAAAAAAAAAAAAAAAAAAA=="
              keyId := "key-1"
              algorithm := .aes256Cbc } := by
    decide +kernel
  refine ⟨m, hrun, fun hsound => ?_⟩
  have hmem := hsound.2 _ _ _ hencrypted
  simp [hnone] at hmem

/-- Two keys added as active are both stored as active. -/
example : ∃ m ∈ (methods sampleSetting).runFrom Manager.init
    [.addKey (sampleKey "key-1" .aes256Gcm), .addKey (sampleKey "key-2" .aes256Gcm)],
      m.activeIds.length = 2 := by
  decide +kernel

end KitiumJobQueue.Encryption
