import KitiumJobQueue.Encryption.RoundTrip
import KitiumJobQueue.Redis.Client

/-!
# Encrypting while keys change

The methods of `EncryptionManager` as coroutines over its fields: calls about keys wait for Redis,
which may reject any command, while other calls encrypt and decrypt. As long as keys that are added
under one id have the same bytes, a ciphertext is only ever decrypted to the text it was made from,
which `decrypt` parses, and it stays readable until `removeKey` is called for its key
(`readable_of_calls`).

Keys are values, as in `Manager`. In the source two calls that were passed one key object share it,
so the `isActive` of a cached key may change under a waiting call; what is shown here is about the
bytes of keys, which no method changes.
-/

namespace KitiumJobQueue.Encryption.Overlapping

open Effects JavaScript Redis Redis.Client

/-- The fields of the manager, and a record of the ciphertexts made so far, each with its text. -/
structure Memory where
  activeKeyId : Option String := none
  keysCache : String → Option EncryptionKeyConfig := fun _ => none
  produced : List (EncryptedData × String) := []

/-- The manager with these fields. `encrypt` and `decrypt` do not look at its Redis. -/
def Memory.manager (m : Memory) : Manager where
  redis := ⟨.empty, 0⟩
  activeKeyId := m.activeKeyId
  keysCache := m.keysCache

/-- The fields with another cached key, or without one, under an id. -/
def Memory.withCached (m : Memory) (keyId : String) (config : Option EncryptionKeyConfig) :
    Memory :=
  { m with keysCache := Function.update m.keysCache keyId config }

theorem Memory.keysCache_withCached (m : Memory) (keyId : String)
    (config : Option EncryptionKeyConfig) (id : String) :
    (m.withCached keyId config).keysCache id =
      if id = keyId then config else m.keysCache id :=
  Function.update_apply m.keysCache keyId config id

/-- An asynchronous method of the manager. -/
abbrev Method (α : Type) := Client.Method Thrown Memory EncryptionKeyConfig α

/-! ## Methods -/

section

variable (env : Setting)

/-- `this.keysCache.set` and `this.keysCache.delete` -/
def setCached (keyId : String) (config : Option EncryptionKeyConfig) : Method Unit :=
  .modify fun m => m.withCached keyId config

/-- `addKey` -/
def addKey (config : EncryptionKeyConfig) : Method Unit := do
  ask (.set (buildKeyName env config.keyId) config none)
  setCached config.keyId (some config)

/-- Mark a cached key as inactive and store it. -/
def retire (keyId : String) (config : EncryptionKeyConfig) : Method Unit := do
  setCached keyId (some { config with isActive := false })
  addKey env { config with isActive := false }

/-- Retire what is cached under an id. -/
def retireCached (keyId : String) : Method Unit := do
  let cached ← .read fun m : Memory => m.keysCache keyId
  match cached with
  | some keyConfig => retire env keyId keyConfig
  | none => pure ()

/-- The first step of `rotateKey`: deactivate the old key. -/
def retireActive : Method Unit := do
  let activeKeyId ← .read fun m : Memory => m.manager.activeKeyId?
  match activeKeyId with
  | some activeKeyId => retireCached env activeKeyId
  | none => pure ()

/-- `this.activeKeyId = keyId` -/
def activate (keyId : String) : Method Unit := .modify fun m => { m with activeKeyId := some keyId }

/-- `rotateKey` -/
def rotateKey (newKey : EncryptionKeyConfig) : Method Unit := do
  retireActive env
  addKey env { newKey with isActive := true }
  activate newKey.keyId

/-- The loop of `getKeys` over the keys it found. -/
def readKeys : List String → List EncryptionKeyConfig → Method (List EncryptionKeyConfig)
  | [], configs => pure configs
  | key :: keys, configs => do
    let data ← ask (.get key)
    readKeys keys (configs ++ data.toList)

/-- `getKeys` -/
def getKeys : Method (List EncryptionKeyConfig) :=
  tryCatch
    (do
      let keys ← ask (.keys (env.keyPrefix ++ ":*"))
      readKeys keys [])
    fun _ => pure []

/-- `initialize` -/
def initializeManager : Method Unit :=
  tryCatch
    (do
      let keys ← getKeys env
      match keys.find? EncryptionKeyConfig.isActive with
      | some active => activate active.keyId
      | none => pure ())
    fun _ => pure ()

/-- `deactivateKey` -/
def deactivateKey (keyId : String) : Method Unit := retireCached env keyId

/-- `removeKey` -/
def removeKey (keyId : String) : Method Unit := do
  ask (.del (buildKeyName env keyId))
  setCached keyId none

/-- `encrypt`, the ciphertext being recorded with its text. -/
def encrypt (data : Json) (iv : List UInt8) : Method EncryptedData :=
  .act fun m =>
    match Encryption.encrypt env m.manager data iv with
    | .ok encrypted =>
      (.ok encrypted, { m with produced := (encrypted, plaintextOf env data) :: m.produced })
    | .error e => (.error e, m)

/-- `decrypt` -/
def decrypt (encrypted : EncryptedData) : Method Json :=
  .act fun m => (Encryption.decrypt env m.manager encrypted, m)

end

/-! ## The manager -/

/-- A call of a method. -/
inductive Request
  | initializeManager
  | addKey (config : EncryptionKeyConfig)
  | rotateKey (newKey : EncryptionKeyConfig)
  | deactivateKey (keyId : String)
  | removeKey (keyId : String)
  | getKeys
  | encrypt (data : Json) (iv : List UInt8)
  | decrypt (encrypted : EncryptedData)
  deriving DecidableEq

/-- What a call resolves with. -/
inductive Result
  | done
  | keys (keys : List EncryptionKeyConfig)
  | encrypted (encrypted : EncryptedData)
  | decrypted (data : Json)

/-- The method a call runs. -/
def Request.method (env : Setting) : Request → Method Result
  | .initializeManager => do
    Overlapping.initializeManager env
    pure .done
  | .addKey config => do
    Overlapping.addKey env config
    pure .done
  | .rotateKey newKey => do
    Overlapping.rotateKey env newKey
    pure .done
  | .deactivateKey keyId => do
    Overlapping.deactivateKey env keyId
    pure .done
  | .removeKey keyId => do
    Overlapping.removeKey env keyId
    pure .done
  | .getKeys => do
    let keys ← Overlapping.getKeys env
    pure (.keys keys)
  | .encrypt data iv => do
    let encrypted ← Overlapping.encrypt env data iv
    pure (.encrypted encrypted)
  | .decrypt encrypted => do
    let data ← Overlapping.decrypt env encrypted
    pure (.decrypted data)

/-- The key a call adds. -/
def Request.added? : Request → Option EncryptionKeyConfig
  | .addKey config | .rotateKey config => some config
  | .initializeManager | .deactivateKey _ | .removeKey _ | .getKeys | .encrypt _ _
  | .decrypt _ => none

/-- The manager, Redis and the calls made so far. -/
abbrev World := Pool Thrown Memory (Store EncryptionKeyConfig) (Reply (V := EncryptionKeyConfig))
  Request Result

/-- A manager under any interleaving of its calls. -/
def system (env : Setting) : System World (PoolEvent Request (Choice Thrown)) :=
  Pool.system (serve env.scan) (Request.method env)

/-- A new manager over an empty database. -/
def World.init : World := { memory := {}, server := .empty }

/-! ## What is kept -/

variable {env : Setting} {Called : Request → Prop} {keyId : String} {config : EncryptionKeyConfig}

/-- Some call added a key of these bytes under the id. -/
def HasBytes (Called : Request → Prop) (keyId : String) (bytes : List UInt8) : Prop :=
  ∃ request, Called request ∧
    ∃ config ∈ request.added?, config.keyId = keyId ∧ config.material = bytes

/-- The ciphertext stands for the text under a key that was added under its id. -/
def StandsFor (env : Setting) (Called : Request → Prop) (encrypted : EncryptedData)
    (text : String) : Prop :=
  ∃ bytes, HasBytes Called encrypted.keyId bytes ∧ decipher env bytes encrypted = .ok text

/-- The keys in the cache were added, and a ciphertext has its key there unless `removeKey` was
called for it. -/
structure Kept (env : Setting) (Called : Request → Prop) (m : Memory) : Prop where
  cached : ∀ keyId, ∀ config ∈ m.keysCache keyId,
    config.keyId = keyId ∧ HasBytes Called keyId config.material
  produced : ∀ p ∈ m.produced, StandsFor env Called p.1 p.2
  there : ∀ p ∈ m.produced, (m.keysCache p.1.keyId).isSome ∨ Called (.removeKey p.1.keyId)

/-- While others do likewise, the method keeps that so, and what it resolves with meets `Q`. -/
abbrev Keeps (env : Setting) (Called : Request → Prop) {α : Type} (Q : α → Prop) (m : Method α) :
    Prop :=
  Safely env.scan (Kept env Called) (fun _ _ => True) Q m

theorem keeps_setCached {cached : Option EncryptionKeyConfig}
    (hcached : ∀ config ∈ cached, config.keyId = keyId ∧ HasBytes Called keyId config.material)
    (hthere : cached.isSome ∨ Called (.removeKey keyId)) :
    Keeps env Called (fun _ => True) (setCached keyId cached) := by
  refine safely_modify fun m hm => ⟨fun id config hconfig => ?_, hm.produced, fun p hp => ?_⟩
  · rw [Memory.keysCache_withCached] at hconfig
    split at hconfig
    · next hid => exact hid ▸ hcached config hconfig
    · exact hm.cached id config hconfig
  · rw [Memory.keysCache_withCached]
    split
    · next hid => exact hid ▸ hthere
    · exact hm.there p hp

theorem keeps_addKey (h : HasBytes Called config.keyId config.material) :
    Keeps env Called (fun _ => True) (addKey env config) := by
  refine .bind (safely_set trivial _) fun _ _ => keeps_setCached (fun config' h' => ?_) (.inl rfl)
  obtain rfl := Option.some.inj h'
  exact ⟨rfl, h⟩

theorem keeps_retire (hid : config.keyId = keyId) (h : HasBytes Called keyId config.material) :
    Keeps env Called (fun _ => True) (retire env keyId config) := by
  subst hid
  refine .bind (keeps_setCached (fun config' h' => ?_) (.inl rfl)) fun _ _ => keeps_addKey h
  obtain rfl := Option.some.inj h'
  exact ⟨rfl, h⟩

theorem keeps_retireCached (keyId : String) :
    Keeps env Called (fun _ => True) (retireCached env keyId) := by
  refine .read_bind fun w hw => ?_
  cases hkey : w.memory.keysCache keyId with
  | none => exact .pure trivial
  | some config =>
    obtain ⟨hid, hbytes⟩ := hw.memory.cached keyId config hkey
    exact keeps_retire hid hbytes

theorem keeps_retireActive : Keeps env Called (fun _ => True) (retireActive env) := by
  refine .read_bind fun w hw => ?_
  cases w.memory.manager.activeKeyId? with
  | none => exact .pure trivial
  | some activeKeyId => exact keeps_retireCached activeKeyId

theorem keeps_activate (keyId : String) : Keeps env Called (fun _ => True) (activate keyId) :=
  safely_modify fun _ hm => ⟨hm.cached, hm.produced, hm.there⟩

/-- The loop, by induction on the keys that are left. -/
theorem keeps_readKeys (keys : List String) (configs : List EncryptionKeyConfig) :
    Keeps env Called (fun _ => True) (readKeys keys configs) := by
  induction keys generalizing configs with
  | nil => exact .pure trivial
  | cons key keys ih => exact .bind (safely_get key) fun data _ => ih _

theorem keeps_getKeys : Keeps env Called (fun _ => True) (getKeys env) :=
  .handle (.bind (safely_keys _) fun keys _ => keeps_readKeys keys []) fun _ => .pure trivial

theorem keeps_initializeManager : Keeps env Called (fun _ => True) (initializeManager env) := by
  refine .handle (.bind keeps_getKeys fun keys _ => ?_) fun _ => .pure trivial
  show Ensures _ _ _ _ (match keys.find? EncryptionKeyConfig.isActive with
    | some active => activate active.keyId
    | none => pure ())
  cases keys.find? EncryptionKeyConfig.isActive with
  | none => exact .pure trivial
  | some active => exact keeps_activate active.keyId

/-- What is encrypted is encrypted under a key that is in the cache. -/
theorem keeps_encrypt (hciphers : env.ciphers.Invertible) (data : Json) (iv : List UInt8) :
    Keeps env Called (fun _ => True) (encrypt env data iv) := by
  refine .act fun m s hs => ⟨⟨?_, hs.stored⟩, fun _ _ => trivial⟩
  cases hencrypted : Encryption.encrypt env m.manager data iv with
  | error e => exact hs.memory
  | ok encrypted =>
    obtain ⟨config, hactive⟩ := exists_activeKey_of_encrypt hencrypted
    obtain ⟨activeKeyId, -, hcached⟩ := Manager.activeKey?_eq_some.mp hactive
    obtain ⟨hid, hbytes⟩ := hs.memory.cached activeKeyId config hcached
    have hkeyId : encrypted.keyId = activeKeyId := (keyId_encrypt hactive hencrypted).trans hid
    refine ⟨hs.memory.cached, ?_, ?_⟩
    · refine List.forall_mem_cons.mpr ⟨⟨config.material, hkeyId ▸ hbytes, ?_⟩, hs.memory.produced⟩
      exact decipher_encrypt hciphers hactive hencrypted
    · refine List.forall_mem_cons.mpr ⟨.inl ?_, hs.memory.there⟩
      exact hkeyId ▸ Option.isSome_of_eq_some hcached

/-- What is decrypted is deciphered with the bytes of a cached key, and parsed. -/
theorem exists_decipher_of_decrypt {m : Manager} {encrypted : EncryptedData} {data : Json}
    (h : Encryption.decrypt env m encrypted = .ok data) :
    ∃ config text, m.keysCache encrypted.keyId = some config ∧
      decipher env config.material encrypted = .ok text ∧ data = parsePlaintext env text := by
  cases hkey : m.keysCache encrypted.keyId with
  | none => simp [Encryption.decrypt, decryptToPlaintext, hkey, bind, Except.bind] at h
  | some config =>
    rw [Encryption.decrypt, decryptToPlaintext_eq hkey] at h
    cases htext : decipher env config.material encrypted with
    | error e => simp [htext, bind, Except.bind] at h
    | ok text =>
      rw [htext] at h
      exact ⟨config, text, rfl, htext, (Except.ok.inj h).symm⟩

/-- What is decrypted is decrypted under a key that was added. -/
theorem keeps_decrypt (encrypted : EncryptedData) :
    Keeps env Called
      (fun data => ∃ text, StandsFor env Called encrypted text ∧ data = parsePlaintext env text)
      (decrypt env encrypted) := by
  refine .act fun m s hs => ⟨hs, fun data hdata => ?_⟩
  obtain ⟨config, text, hkey, htext, hparsed⟩ := exists_decipher_of_decrypt hdata
  exact ⟨text, ⟨config.material, (hs.memory.cached _ config hkey).2, htext⟩, hparsed⟩

/-- What a call of `decrypt` resolves with. -/
def Answered (env : Setting) (Called : Request → Prop) : Request → Result → Prop
  | .decrypt encrypted, result =>
    ∃ text, StandsFor env Called encrypted text ∧ result = .decrypted (parsePlaintext env text)
  | .initializeManager, _ | .addKey _, _ | .rotateKey _, _ | .deactivateKey _, _ | .removeKey _, _
  | .getKeys, _ | .encrypt _ _, _ => True

theorem keeps_method (hciphers : env.ciphers.Invertible) {request : Request}
    (hcalled : Called request) :
    Keeps env Called (Answered env Called request) (request.method env) := by
  cases request with
  | initializeManager => exact .bind keeps_initializeManager fun _ _ => .pure trivial
  | addKey config =>
    have hbytes : HasBytes Called config.keyId config.material :=
      ⟨_, hcalled, config, rfl, rfl, rfl⟩
    exact .bind (keeps_addKey hbytes) fun _ _ => .pure trivial
  | rotateKey newKey =>
    have hbytes : HasBytes Called newKey.keyId newKey.material :=
      ⟨_, hcalled, newKey, rfl, rfl, rfl⟩
    refine .bind (P := fun _ => True) ?_ fun _ _ => .pure trivial
    exact .bind keeps_retireActive fun _ _ => .bind (keeps_addKey hbytes) fun _ _ =>
      keeps_activate newKey.keyId
  | deactivateKey keyId => exact .bind (keeps_retireCached keyId) fun _ _ => .pure trivial
  | removeKey keyId =>
    refine .bind (P := fun _ => True) ?_ fun _ _ => .pure trivial
    exact .bind (safely_del _) fun _ _ => keeps_setCached (fun _ h => by cases h) (.inr hcalled)
  | getKeys => exact .bind keeps_getKeys fun _ _ => .pure trivial
  | encrypt data iv => exact .bind (keeps_encrypt hciphers data iv) fun _ _ => .pure trivial
  | decrypt encrypted =>
    refine .bind (keeps_decrypt encrypted) fun data hdata => .pure ?_
    obtain ⟨text, htext, rfl⟩ := hdata
    exact ⟨text, htext, rfl⟩

/-! ## Runs -/

/-- Keys that are added under one id have the same bytes. -/
def Unambiguous (Called : Request → Prop) : Prop :=
  ∀ keyId bytes bytes', HasBytes Called keyId bytes → HasBytes Called keyId bytes' → bytes = bytes'

/-- A ciphertext stands for one text only. -/
theorem StandsFor.unique (hcalled : Unambiguous Called) {encrypted : EncryptedData}
    {text text' : String} (h : StandsFor env Called encrypted text)
    (h' : StandsFor env Called encrypted text') : text = text' := by
  obtain ⟨bytes, hbytes, htext⟩ := h
  obtain ⟨bytes', hbytes', htext'⟩ := h'
  obtain rfl := hcalled _ _ _ hbytes hbytes'
  exact Except.ok.inj (htext.symm.trans htext')

/-- The ciphertext can be read, or its key is gone and `removeKey` was called for it. -/
def Readable (env : Setting) (Called : Request → Prop) (m : Memory)
    (p : EncryptedData × String) : Prop :=
  decryptToPlaintext env m.manager p.1 = .ok p.2 ∨
    Called (.removeKey p.1.keyId) ∧
      decryptToPlaintext env m.manager p.1 = .error (decryptionKeyNotFound p.1.keyId)

theorem Kept.readable {m : Memory} (hm : Kept env Called m) (hcalled : Unambiguous Called)
    {p : EncryptedData × String} (hp : p ∈ m.produced) : Readable env Called m p := by
  cases hkey : m.keysCache p.1.keyId with
  | none =>
    refine .inr ⟨(hm.there p hp).resolve_left fun h => ?_, ?_⟩
    · rw [hkey] at h
      cases h
    · simp only [decryptToPlaintext, Memory.manager, hkey]
  | some config =>
    obtain ⟨bytes, hbytes, htext⟩ := hm.produced p hp
    obtain rfl := hcalled _ _ _ hbytes (hm.cached _ config hkey).2
    exact .inl ((decryptToPlaintext_eq hkey).trans htext)

/-- **Encryption under overlapping calls.** Where keys added under one id have the same bytes, in
every interleaving of calls, with any command failing: a ciphertext made so far can be read unless
`removeKey` was called for its key, and no call of `decrypt` resolves with anything else than what
`parsePlaintext` makes of the text it was made from. -/
theorem readable_of_calls (hciphers : env.ciphers.Invertible)
    {es : List (PoolEvent Request (Choice Thrown))}
    (hkeys : Unambiguous fun request => .spawn request ∈ es) {p : World}
    (h : (system env).runFrom .init es = some p) :
    (∀ c ∈ p.memory.produced, Readable env (fun request => .spawn request ∈ es) p.memory c) ∧
      ∀ t ∈ p.threads, ∀ c ∈ p.memory.produced, t.label = .decrypt c.1 →
        ∀ result, t.stage = .settled (.ok result) →
          result = .decrypted (parsePlaintext env c.2) := by
  have hinit : Kept env (fun request => .spawn request ∈ es) {} :=
    { cached := fun _ _ hconfig => by cases hconfig
      produced := List.forall_mem_nil _
      there := List.forall_mem_nil _ }
  obtain ⟨hsound, hanswered⟩ := safely_run (fun _ hcalled => keeps_method hciphers hcalled) hinit
    (fun _ hcalled => hcalled) h
  refine ⟨fun c hc => hsound.memory.readable hkeys hc, fun t ht c hc hlabel result hresult => ?_⟩
  have hdecrypted := hanswered t ht result hresult
  rw [hlabel] at hdecrypted
  obtain ⟨text, htext, rfl⟩ := hdecrypted
  rw [htext.unique hkeys (hsound.memory.produced c hc)]

/-- What becomes of the sample text under the first key. -/
def sampleCiphertext : EncryptedData where
  ciphertext := "oNs0Vto="
  iv := "AAAAAAAAAAAAAAAAAAAAAA=="
  tag := some "MCuZfrGyxBmHW4X6kEYtHA=="
  keyId := "key-1"
  algorithm := .aes256Gcm

/-- A text is encrypted while its key is being replaced, and read while its key is being removed. -/
def rotatingRun : List (PoolEvent Request (Choice Thrown)) :=
  [.spawn (.rotateKey (sampleKey "key-1" .aes256Gcm)), .exec 0 {}, .resume 0,
    .spawn (.rotateKey (sampleKey "key-2" .aes256Cbc)),
    .spawn (.encrypt (.str "hello") (List.replicate 16 0)),
    .exec 1 { answer := .rejected (.value "ECONNRESET") true }, .resume 1,
    .spawn (.removeKey "key-1"), .exec 3 {}, .spawn (.decrypt sampleCiphertext), .resume 3]

theorem isSome_rotatingRun : ((system sampleSetting).runFrom .init rotatingRun).isSome := by
  decide +kernel

theorem unambiguous_rotatingRun : Unambiguous fun request => .spawn request ∈ rotatingRun := by
  have hbytes : ∀ keyId bytes, HasBytes (fun request => .spawn request ∈ rotatingRun) keyId bytes →
      bytes = (sampleKey "key-1" .aes256Gcm).material := by
    rintro _ _ ⟨request, hrequest, config, hconfig, -, rfl⟩
    simp only [rotatingRun, List.mem_cons, reduceCtorEq, PoolEvent.spawn.injEq, false_or,
      List.not_mem_nil, or_false] at hrequest
    rcases hrequest with rfl | rfl | rfl | rfl | rfl <;> cases hconfig <;> rfl
  exact fun keyId bytes bytes' h h' => (hbytes keyId bytes h).trans (hbytes keyId bytes' h').symm

/-- It was read before its key was gone. -/
theorem readable_of_rotatingRun :
    ∃ p, (system sampleSetting).runFrom .init rotatingRun = some p ∧
      (∀ c ∈ p.memory.produced,
        Readable sampleSetting (fun request => .spawn request ∈ rotatingRun) p.memory c) ∧
      ∀ t ∈ p.threads, ∀ c ∈ p.memory.produced, t.label = .decrypt c.1 →
        ∀ result, t.stage = .settled (.ok result) →
          result = .decrypted (parsePlaintext sampleSetting c.2) :=
  ⟨_, (Option.some_get isSome_rotatingRun).symm,
    readable_of_calls invertible_sampleCiphers unambiguous_rotatingRun
      (Option.some_get isSome_rotatingRun).symm⟩

end KitiumJobQueue.Encryption.Overlapping
