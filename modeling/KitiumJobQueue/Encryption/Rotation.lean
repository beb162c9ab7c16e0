import KitiumJobQueue.Encryption.ActiveKey

/-!
# Rotations that fail

`rotateKey` takes the flag from the cached old key, stores that key, stores the new one and names
it. A write that fails ends the call and nothing is undone: what was done up to there stays. So a
rotation that rejects leaves the keys alone only if what it had done so far was done before, which
takes an old key that is inactive already (`atomic_iff`).

`addKey` caches the object it is given, so the key given to a rotation may be an object that the
cache holds. Then setting its flag sets that of the cached key, before anything is stored.
-/

namespace KitiumJobQueue.Encryption

open Effects JavaScript

variable {env : Setting} {held : Bool} {m m' : Manager} {config old newKey : EncryptionKeyConfig}

/-! ## Objects -/

/-- `newKey.isActive = true`. If the cache holds the object, the cached key has the flag as well. -/
def setFlag (held : Bool) (newKey : EncryptionKeyConfig) : Async Thrown Manager Unit :=
  if held then setCached newKey.keyId (some { newKey with isActive := true }) else pure ()

/-- `rotateKey`, given an object that the cache holds under the id of the key, or one that it does
not hold. -/
def rotateKeyObject (env : Setting) (held : Bool) (newKey : EncryptionKeyConfig) :
    Async Thrown Manager Unit := do
  retireActive env
  setFlag held newKey
  addKey env { newKey with isActive := true }
  .modify fun m => { m with activeKeyId := some newKey.keyId }

theorem rotateKeyObject_false (env : Setting) (newKey : EncryptionKeyConfig) :
    rotateKeyObject env false newKey = rotateKey env newKey := rfl

/-- An object that is held is what the cache has under the id of the key. -/
def Manager.Given (m : Manager) (held : Bool) (newKey : EncryptionKeyConfig) : Prop :=
  held = true → m.keysCache newKey.keyId = some newKey

instance (m : Manager) (held : Bool) (newKey : EncryptionKeyConfig) :
    Decidable (m.Given held newKey) :=
  inferInstanceAs (Decidable (held = true → m.keysCache newKey.keyId = some newKey))

/-- What happens: an event, or a rotation to an object that the cache holds. -/
inductive RotationEvent
  | event (e : Event)
  | rotateHeld (newKey : EncryptionKeyConfig)
  deriving DecidableEq

/-- Managers under any sequence of these. -/
def rotationSystem (env : Setting) : System World RotationEvent where
  step w
    | .event e => some (w.after env e)
    | .rotateHeld newKey =>
      if w.manager.Given true newKey then
        some { w with manager := ((rotateKeyObject env true newKey).run w.manager).2 }
      else none

/-! ## What a rejected rotation is to leave alone -/

/-- The two managers store the same keys, cache the same keys and encrypt under the same key. -/
structure Manager.SameKeys (m m' : Manager) : Prop where
  stored : ∀ key, m'.redis.server.lookup key = m.redis.server.lookup key
  cached : m'.keysCache = m.keysCache
  used : m'.activeKey? = m.activeKey?

/-- The key that encrypts, if there is one, is stored as active. -/
def Manager.EncryptsActive (env : Setting) (m : Manager) : Prop :=
  ∀ config ∈ m.activeKey?, ∃ e,
    m.redis.server.lookup (buildKeyName env config.keyId) = some e ∧ e.value.isActive = true

/-- If the rotation rejects, the keys are as they were, and encryption goes on under a key that is
stored as active. -/
def Manager.Atomic (env : Setting) (held : Bool) (newKey : EncryptionKeyConfig) (m : Manager) :
    Prop :=
  ∀ e m', (rotateKeyObject env held newKey).run m = (.error e, m') →
    m.SameKeys m' ∧ (m.EncryptsActive env → m'.EncryptsActive env)

theorem encryptsActive_of_sameKeys (h : m.SameKeys m') (hm : m.EncryptsActive env) :
    m'.EncryptsActive env := by
  intro config hconfig
  rw [h.used] at hconfig
  obtain ⟨e, he, hactive⟩ := hm config hconfig
  exact ⟨e, (h.stored _).trans he, hactive⟩

/-- The key is stored as it is. -/
def Manager.Holds (env : Setting) (m : Manager) (config : EncryptionKeyConfig) : Prop :=
  m.redis.server.lookup (buildKeyName env config.keyId) = some ⟨config, none⟩

@[simp] theorem holds_withCached {keyId : String} {cached : Option EncryptionKeyConfig} :
    (m.withCached keyId cached).Holds env config ↔ m.Holds env config := Iff.rfl

/-- The flags of the cached keys are what they are once the old key has been retired and the new one
is to be stored: the old one has none, and a new one that the cache holds has one. Where the new key
is the old one, it loses its flag and gets it back. -/
def KeepsFlags (held : Bool) (old newKey : EncryptionKeyConfig) : Prop :=
  if held ∧ old.keyId = newKey.keyId then old.isActive = true
  else old.isActive = false ∧ (held = true → newKey.isActive = true)

instance (held : Bool) (old newKey : EncryptionKeyConfig) :
    Decidable (KeepsFlags held old newKey) :=
  inferInstanceAs (Decidable (if held = true ∧ old.keyId = newKey.keyId then old.isActive = true
    else old.isActive = false ∧ (held = true → newKey.isActive = true)))

/-- The writes of the rotation are all answered, or the flags of the cached keys are what it makes
of them already, and what Redis applies of the writes is stored already. Where no key encrypts there
is one write only. -/
def Manager.Spares (env : Setting) (held : Bool) (newKey : EncryptionKeyConfig) (m : Manager) :
    Prop :=
  let first := env.answers m.redis.calls
  let second := env.answers (m.redis.calls + 1)
  let stored := m.Holds env { newKey with isActive := true }
  match m.activeKey? with
  | none => first.IsAnswered ∨ (first.TakesEffect → stored) ∧ (held = true → newKey.isActive = true)
  | some old =>
    let retired := m.Holds env { old with isActive := false }
    first.IsAnswered ∧ second.IsAnswered ∨
      ¬ first.IsAnswered ∧ old.isActive = false ∧ (first.TakesEffect → retired) ∨
      first.IsAnswered ∧ KeepsFlags held old newKey ∧ (second.TakesEffect → stored) ∧
        (retired ∨ second.TakesEffect ∧ old.keyId = newKey.keyId)

/-! ## One write -/

/-- The manager after a write that is not answered. -/
def Manager.failed (env : Setting) (m : Manager) (config : EncryptionKeyConfig) (applied : Bool) :
    Manager :=
  m.withRedis
    ⟨if applied then m.redis.server.set (buildKeyName env config.keyId) config none
      else m.redis.server, m.redis.calls + 1⟩

theorem run_addKey_of_answered (h : env.answers m.redis.calls = .answered) :
    (addKey env config).run m = (.ok (), m.put env config) := by
  have hset : (command env fun r => ((), r.set (buildKeyName env config.keyId) config none)).run m =
      (.ok (), m.withRedis ⟨m.redis.server.set (buildKeyName env config.keyId) config none,
        m.redis.calls + 1⟩) :=
    Async.run_within (run_call_of_answered h)
  rw [addKey, Async.run_bind_of_ok hset]
  rfl

theorem run_addKey_of_rejected {e : Thrown} {applied : Bool}
    (h : env.answers m.redis.calls = .rejected e applied) :
    (addKey env config).run m = (.error e, m.failed env config applied) := by
  have hset : (command env fun r => ((), r.set (buildKeyName env config.keyId) config none)).run m =
      (.error e, m.failed env config applied) :=
    Async.run_within (run_call_of_rejected h)
  rw [addKey, Async.run_bind_of_error hset]

theorem lookup_failed {applied : Bool} {key : String} :
    (m.failed env config applied).redis.server.lookup key =
      if applied = true ∧ key = buildKeyName env config.keyId then some ⟨config, none⟩
      else m.redis.server.lookup key := by
  cases applied with
  | false => simp [Manager.failed, Manager.withRedis]
  | true => simp [Manager.failed, Manager.withRedis, Redis.Store.lookup_set]

theorem lookup_put {key : String} :
    (m.put env config).redis.server.lookup key =
      if key = buildKeyName env config.keyId then some ⟨config, none⟩
      else m.redis.server.lookup key :=
  Redis.Store.lookup_set ..

/-- A write that fails leaves what is stored alone if it is not applied, or stores what is stored
already. -/
theorem stored_failed {applied : Bool} :
    (∀ key, (m.failed env config applied).redis.server.lookup key = m.redis.server.lookup key) ↔
      (applied = true → m.Holds env config) := by
  simp only [lookup_failed]
  constructor
  · rintro h rfl
    have hkey := h (buildKeyName env config.keyId)
    rw [if_pos ⟨rfl, rfl⟩] at hkey
    exact hkey.symm
  · intro h key
    split
    case isTrue hkey =>
      rw [hkey.2]
      exact (h hkey.1).symm
    case isFalse => rfl

/-- Of two writes to one name the second counts. -/
theorem stored_put_failed {applied : Bool} :
    (∀ key, ((m.put env config).failed env newKey applied).redis.server.lookup key =
        m.redis.server.lookup key) ↔
      (applied = true → m.Holds env newKey) ∧
        (m.Holds env config ∨ applied = true ∧ config.keyId = newKey.keyId) := by
  simp only [lookup_failed, lookup_put]
  constructor
  · intro h
    refine ⟨fun happlied => ?_, ?_⟩
    · have hnew := h (buildKeyName env newKey.keyId)
      rw [if_pos ⟨happlied, rfl⟩] at hnew
      exact hnew.symm
    · by_cases hsame : applied = true ∧ config.keyId = newKey.keyId
      · exact .inr hsame
      · have hold := h (buildKeyName env config.keyId)
        rw [if_neg fun hname => hsame ⟨hname.1, buildKeyName_inj.mp hname.2⟩, if_pos rfl] at hold
        exact .inl hold.symm
  · rintro ⟨hnew, hold⟩ key
    split
    case isTrue hkey =>
      rw [hkey.2]
      exact (hnew hkey.1).symm
    case isFalse hkey =>
      split
      case isTrue hname =>
        subst hname
        rw [buildKeyName_inj] at hkey
        exact (hold.resolve_right hkey).symm
      case isFalse => rfl

/-! ## Retiring the old key -/

theorem retireActive_of_none (env : Setting) (h : m.activeKey? = none) :
    (retireActive env).run m = (.ok (), m) := by
  rw [retireActive, Async.run_bind_of_ok (Async.run_read id m)]
  simp only [Manager.activeKey?, Option.bind_eq_none_iff] at h
  cases hid : m.activeKeyId? with
  | none => simp only [id_eq, hid, Async.run_pure]
  | some activeKeyId => simp only [id_eq, hid, h activeKeyId hid, Async.run_pure]

/-- Where a key encrypts, its cached flag is taken first, and then it is stored. -/
theorem retireActive_of_some (env : Setting) (hm : m.Named) (h : m.activeKey? = some old) :
    (retireActive env).run m =
      (addKey env { old with isActive := false }).run
        (m.withCached old.keyId (some { old with isActive := false })) := by
  obtain ⟨activeKeyId, hid, hcached⟩ := Manager.activeKey?_eq_some.mp h
  obtain rfl : old.keyId = activeKeyId := hm activeKeyId old hcached
  rw [retireActive, Async.run_bind_of_ok (Async.run_read id m)]
  simp only [id_eq, hid, hcached]
  rw [retire, setCached, Async.run_bind_of_ok (Async.run_modify _ m)]

/-- The manager once the old key is stored as inactive. -/
theorem put_retired :
    (m.withCached old.keyId (some { old with isActive := false })).put env
        { old with isActive := false } =
      m.put env { old with isActive := false } := by
  simp [Manager.put, Manager.withCached, Manager.withRedis]

/-! ## Flagging the new key -/

/-- The manager once the flag of the new key is set. -/
def Manager.flagged (m : Manager) (held : Bool) (newKey : EncryptionKeyConfig) : Manager :=
  if held then m.withCached newKey.keyId (some { newKey with isActive := true }) else m

@[simp] theorem redis_flagged : (m.flagged held newKey).redis = m.redis := by
  cases held with
  | false => rfl
  | true => rfl

@[simp] theorem activeKeyId_flagged : (m.flagged held newKey).activeKeyId = m.activeKeyId := by
  cases held with
  | false => rfl
  | true => rfl

theorem run_setFlag : (setFlag held newKey).run m = (.ok (), m.flagged held newKey) := by
  cases held with
  | false => rfl
  | true => rfl

theorem keysCache_failed {applied : Bool} :
    (m.failed env config applied).keysCache = m.keysCache := rfl

/-- What Redis does with a write does not depend on the flag. -/
theorem redis_failed_flagged {applied : Bool} :
    ((m.flagged held newKey).failed env config applied).redis =
      (m.failed env config applied).redis := by
  simp only [Manager.failed, Manager.withRedis, redis_flagged]

/-- Giving a cached key the flag that it has changes nothing. -/
theorem update_flag_eq_self_iff {cache : String → Option EncryptionKeyConfig} {flag : Bool}
    (h : cache config.keyId = some config) :
    Function.update cache config.keyId (some { config with isActive := flag }) = cache ↔
      config.isActive = flag := by
  rw [Function.update_eq_self_iff, h, Option.some.injEq]
  constructor
  · intro heq
    rw [← heq]
  · intro hflag
    rw [← hflag]

/-- The flag of a cached key is as it was if it was set. -/
theorem keysCache_flagged (hgiven : m.Given held newKey) :
    (m.flagged held newKey).keysCache = m.keysCache ↔ (held = true → newKey.isActive = true) := by
  cases held with
  | false => simp [Manager.flagged]
  | true =>
    refine (update_flag_eq_self_iff (hgiven rfl)).trans ?_
    simp

/-- The cached key is as it was if it was inactive. -/
theorem withCached_inactive (hm : m.Named) (h : m.activeKey? = some old) :
    Function.update m.keysCache old.keyId (some { old with isActive := false }) = m.keysCache ↔
      old.isActive = false :=
  update_flag_eq_self_iff (keysCache_activeKey hm h)

/-- The old key has lost its flag, and the new one has got it. -/
theorem keysCache_rotated (hm : m.Named) (h : m.activeKey? = some old)
    (hgiven : m.Given held newKey) :
    ((m.put env { old with isActive := false }).flagged held newKey).keysCache = m.keysCache ↔
      KeepsFlags held old newKey := by
  cases held with
  | false =>
    refine (withCached_inactive hm h).trans ?_
    simp [KeepsFlags]
  | true =>
    have hcached := keysCache_activeKey hm h
    have hnew := hgiven rfl
    change Function.update (Function.update m.keysCache old.keyId
      (some { old with isActive := false })) newKey.keyId
        (some { newKey with isActive := true }) = m.keysCache ↔ _
    by_cases hsame : old.keyId = newKey.keyId
    · obtain rfl : old = newKey := Option.some.inj (hcached.symm.trans (hsame ▸ hnew))
      rw [KeepsFlags, if_pos ⟨rfl, rfl⟩, Function.update_idem]
      exact update_flag_eq_self_iff hcached
    · rw [KeepsFlags, if_neg fun hboth => hsame hboth.2]
      have hsecond := keysCache_flagged hgiven
      constructor
      · intro heq
        have hretired : Function.update m.keysCache old.keyId
            (some { old with isActive := false }) = m.keysCache := by
          rw [Function.update_eq_self_iff, ← congrFun heq old.keyId, Function.update_of_ne hsame,
            Function.update_self]
        rw [hretired] at heq
        exact ⟨(withCached_inactive hm h).mp hretired, hsecond.mp heq⟩
      · rintro ⟨hinactive, hactive⟩
        rw [(withCached_inactive hm h).mpr hinactive]
        exact hsecond.mpr hactive

/-! ## Rotations that reject -/

theorem run_rotateKey_of_error {m₁ : Manager} {e : Thrown} (held : Bool)
    (newKey : EncryptionKeyConfig) (h : (retireActive env).run m = (.error e, m₁)) :
    (rotateKeyObject env held newKey).run m = (.error e, m₁) :=
  Async.run_bind_of_error h

/-- Once the old key is retired, the rotation rejects if the second write does. -/
theorem run_rotateKey_of_retired {m₁ : Manager} (held : Bool) (newKey : EncryptionKeyConfig)
    (h : (retireActive env).run m = (.ok (), m₁)) :
    (∃ m', (rotateKeyObject env held newKey).run m = (.ok (), m')) ∧
        env.answers m₁.redis.calls = .answered ∨
      ∃ e applied, env.answers m₁.redis.calls = .rejected e applied ∧
        (rotateKeyObject env held newKey).run m =
          (.error e,
            (m₁.flagged held newKey).failed env { newKey with isActive := true } applied) := by
  rw [rotateKeyObject, Async.run_bind_of_ok h, Async.run_bind_of_ok run_setFlag]
  have hcalls : (m₁.flagged held newKey).redis.calls = m₁.redis.calls := by rw [redis_flagged]
  cases ha : env.answers m₁.redis.calls with
  | answered =>
    rw [Async.run_bind_of_ok (run_addKey_of_answered (hcalls ▸ ha))]
    exact .inl ⟨⟨_, rfl⟩, rfl⟩
  | rejected e applied =>
    exact .inr ⟨e, applied, rfl,
      Async.run_bind_of_error (run_addKey_of_rejected (hcalls ▸ ha))⟩

/-- A rotation that resolves leaves nothing to ask for. -/
theorem atomic_of_ok (h : (rotateKeyObject env held newKey).run m = (.ok (), m')) :
    m.Atomic env held newKey := by
  intro e m'' herror
  rw [h] at herror
  simp at herror

/-- A rotation that rejects is atomic if it leaves what is stored and what is cached alone. -/
theorem atomic_of_error {e : Thrown} (h : (rotateKeyObject env held newKey).run m = (.error e, m'))
    (hid : m'.activeKeyId = m.activeKeyId) :
    m.Atomic env held newKey ↔
      (∀ key, m'.redis.server.lookup key = m.redis.server.lookup key) ∧
        m'.keysCache = m.keysCache := by
  constructor
  · intro hatomic
    have hsame := (hatomic e m' h).1
    exact ⟨hsame.stored, hsame.cached⟩
  · rintro ⟨hstored, hcached⟩ e' m'' herror
    obtain rfl := (Prod.mk.inj (h.symm.trans herror)).2
    have hsame : m.SameKeys m' :=
      ⟨hstored, hcached, by simp only [Manager.activeKey?, Manager.activeKeyId?, hid, hcached]⟩
    exact ⟨hsame, encryptsActive_of_sameKeys hsame⟩

/-- With no key to retire, the new one is all that is stored. -/
theorem atomic_iff_of_none (h : m.activeKey? = none) (hgiven : m.Given held newKey) :
    m.Atomic env held newKey ↔ m.Spares env held newKey := by
  simp only [Manager.Spares, h]
  rcases run_rotateKey_of_retired held newKey (retireActive_of_none env h) with
    ⟨⟨m', hok⟩, ha⟩ | ⟨e, applied, ha, herror⟩
  · rw [ha]
    exact iff_of_true (atomic_of_ok hok) (.inl trivial)
  · rw [ha, atomic_of_error herror activeKeyId_flagged, redis_failed_flagged, stored_failed,
      keysCache_failed, keysCache_flagged hgiven]
    simp only [Answer.IsAnswered, Answer.TakesEffect, false_or]

/-- With a key to retire, the flags have to be as they are left already, unless both writes are
answered. -/
theorem atomic_iff_of_some (hm : m.Named) (h : m.activeKey? = some old)
    (hgiven : m.Given held newKey) : m.Atomic env held newKey ↔ m.Spares env held newKey := by
  simp only [Manager.Spares, h]
  have hretire := retireActive_of_some env hm h
  cases hfirst : env.answers m.redis.calls with
  | rejected e applied =>
    rw [run_addKey_of_rejected (m := m.withCached _ _) hfirst] at hretire
    have herror := run_rotateKey_of_error held newKey hretire
    rw [atomic_of_error herror rfl]
    refine (and_congr (stored_failed (m := m.withCached _ _)) (withCached_inactive hm h)).trans ?_
    simp only [Answer.IsAnswered, Answer.TakesEffect, holds_withCached, false_and, false_or,
      or_false, not_false_eq_true, true_and]
    exact and_comm
  | answered =>
    rw [run_addKey_of_answered (m := m.withCached _ _) hfirst, put_retired] at hretire
    rcases run_rotateKey_of_retired held newKey hretire with
      ⟨⟨m', hok⟩, hsecond⟩ | ⟨e, applied, hsecond, herror⟩
    · have hsecond : env.answers (m.redis.calls + 1) = .answered := hsecond
      rw [hsecond]
      exact iff_of_true (atomic_of_ok hok) (.inl ⟨trivial, trivial⟩)
    · have hsecond : env.answers (m.redis.calls + 1) = .rejected e applied := hsecond
      rw [hsecond, atomic_of_error herror activeKeyId_flagged, redis_failed_flagged,
        stored_put_failed, keysCache_failed, keysCache_rotated hm h hgiven]
      simp only [Answer.IsAnswered, Answer.TakesEffect, and_false, false_or, not_true_eq_false,
        false_and, true_and]
      exact and_comm

/-! ## Runs -/

theorem named_rotateKeyObject (hm : m.Named) :
    ((rotateKeyObject env held newKey).run m).2.Named := by
  have hretire : Async.Preserves Manager.Named (retireActive env) :=
    caches_retireActive (fun h => h _ rfl) fun h => by simp_all
  have hflag : Async.Preserves Manager.Named (setFlag held newKey) := by
    cases held with
    | false => exact .pure ()
    | true => exact caches_setCached (by simp)
  have hadd : Async.Preserves Manager.Named (addKey env { newKey with isActive := true }) :=
    caches_addKey (by simp)
  have huse : Async.Preserves (ε := Thrown) Manager.Named
      (.modify fun m => { m with activeKeyId := some newKey.keyId }) :=
    .modify fun _ h => h
  exact (hretire.bind fun _ => hflag.bind fun _ => hadd.bind fun _ => huse) m hm

theorem named_of_rotationSystem {redis : Redis.Store EncryptionKeyConfig} {es : List RotationEvent}
    {w : World} (hrun : (rotationSystem env).runFrom (World.init redis) es = some w) :
    w.manager.Named := by
  refine System.invariant (I := fun w : World => w.manager.Named) (fun w e w' hw hstep => ?_)
    (fun keyId => by simp [World.init]) hrun
  cases e with
  | event e =>
    obtain rfl := Option.some.inj hstep
    exact named_after hw e
  | rotateHeld newKey =>
    obtain ⟨-, hstep⟩ := Option.ite_none_right_eq_some.mp hstep
    obtain rfl := Option.some.inj hstep
    exact named_rotateKeyObject hw

/-- **In every state of every run, a rotation is atomic exactly if its writes are all answered, or
the flags of the cached keys are what it makes of them already and the writes that Redis applies
store what is stored already**, whether the cache holds the object it is given or not. -/
theorem atomic_iff {redis : Redis.Store EncryptionKeyConfig} {es : List RotationEvent} {w : World}
    (hrun : (rotationSystem env).runFrom (World.init redis) es = some w)
    (hgiven : w.manager.Given held newKey) :
    w.manager.Atomic env held newKey ↔ w.manager.Spares env held newKey := by
  cases h : w.manager.activeKey? with
  | none => exact atomic_iff_of_none h hgiven
  | some old => exact atomic_iff_of_some (named_of_rotationSystem hrun) h hgiven

/-- What Redis rejects a write with. -/
def refusal : Thrown := .error { message := "Connection is closed.", stack := none }

/-- A Redis that rejects one call, the `n`th, without applying it. -/
def refusing (n : ℕ) : Setting :=
  { sampleSetting with
    answers := fun call => if call = n then .rejected refusal false else .answered }

/-- A rotation away from a key that was deactivated leaves it as it was, be it to another key or to
the deactivated one itself. -/
theorem atomic_of_deactivated :
    ∃ w, (rotationSystem (refusing 3)).runFrom (World.init .empty)
        [.event (.call (.addKey (sampleKey "key-1" .aes256Cbc))),
          .rotateHeld (sampleKey "key-1" .aes256Cbc),
          .event (.call (.deactivateKey "key-1"))] = some w ∧
      ((rotateKey (refusing 3) (sampleKey "key-2" .aes256Cbc)).run w.manager).1 =
        .error refusal ∧
      w.manager.Atomic (refusing 3) false (sampleKey "key-2" .aes256Cbc) ∧
      w.manager.Atomic (refusing 3) true
        { sampleKey "key-1" .aes256Cbc with isActive := false } := by
  obtain ⟨w, hrun, hcalls, hactive, hrejects⟩ :
      ∃ w ∈ (rotationSystem (refusing 3)).runFrom (World.init .empty)
          [.event (.call (.addKey (sampleKey "key-1" .aes256Cbc))),
            .rotateHeld (sampleKey "key-1" .aes256Cbc),
            .event (.call (.deactivateKey "key-1"))],
        w.manager.redis.calls = 3 ∧
        w.manager.activeKey? = some { sampleKey "key-1" .aes256Cbc with isActive := false } ∧
        ((rotateKey (refusing 3) (sampleKey "key-2" .aes256Cbc)).run w.manager).1 =
          .error refusal := by
    decide +kernel
  have hcached := keysCache_activeKey (named_of_rotationSystem hrun) hactive
  refine ⟨w, hrun, hrejects, (atomic_iff hrun fun h => absurd h Bool.false_ne_true).mpr ?_,
    (atomic_iff hrun fun _ => hcached).mpr ?_⟩
  all_goals
    simp [Manager.Spares, hcalls, hactive, refusing, Answer.IsAnswered, Answer.TakesEffect]

-- A key object that the cache holds has its flag before the write that fails.
example :
    let config := { sampleKey "key-1" .aes256Cbc with isActive := false }
    let m : Manager := ({ redis := ⟨.empty, 0⟩ } : Manager).withCached "key-1" (some config)
    ((rotateKeyObject (refusing 0) true config).run m).2.keysCache "key-1" =
      some (sampleKey "key-1" .aes256Cbc) := by
  decide +kernel

/-- The second write of a rotation fails: no stored key is active any more, and encryption goes on
under the old one. -/
theorem not_atomic_rotateKey :
    ∃ w, (rotationSystem (refusing 2)).runFrom (World.init .empty)
        [.event (.call (.rotateKey (sampleKey "key-1" .aes256Cbc)))] = some w ∧
      w.manager.activeIds = ["key-1"] ∧
      (let m' := ((rotateKey (refusing 2) (sampleKey "key-2" .aes256Cbc)).run w.manager).2
       m'.activeIds = [] ∧ m'.activeKeyId = some "key-1") ∧
      ¬ w.manager.Atomic (refusing 2) false (sampleKey "key-2" .aes256Cbc) := by
  obtain ⟨w, hrun, hrejects, hbefore, hnone, hafter⟩ :
      ∃ w ∈ (rotationSystem (refusing 2)).runFrom (World.init .empty)
          [.event (.call (.rotateKey (sampleKey "key-1" .aes256Cbc)))],
        ((rotateKey (refusing 2) (sampleKey "key-2" .aes256Cbc)).run w.manager).1 =
          .error refusal ∧
        w.manager.activeIds = ["key-1"] ∧
        (let m' := ((rotateKey (refusing 2) (sampleKey "key-2" .aes256Cbc)).run w.manager).2
         m'.activeIds = [] ∧ m'.activeKeyId = some "key-1") ∧
        w.manager.keysCache "key-1" ≠
          ((rotateKey (refusing 2) (sampleKey "key-2" .aes256Cbc)).run w.manager).2.keysCache
            "key-1" := by
    decide +kernel
  refine ⟨w, hrun, hbefore, hnone, fun hatomic => ?_⟩
  have hsame := (hatomic refusal _ (Prod.ext hrejects rfl)).1
  exact hafter (congrFun hsame.cached "key-1").symm

end KitiumJobQueue.Encryption
