import KitiumJobQueue.Foundations.Base64
import KitiumJobQueue.Foundations.Effects
import KitiumJobQueue.Foundations.JavaScript
import KitiumJobQueue.Foundations.Systems
import KitiumJobQueue.Foundations.Utf8
import KitiumJobQueue.Redis.Store

/-!
# The encryption manager

`EncryptionManager` of `encryption.manager.ts`, method by method. Keys lie in Redis, and in a cache
that only the methods changing a key fill; `activeKeyId` names the key that encrypts. The ciphers of
`node:crypto` and `JSON` are parameters (`Ciphers`, `JsonText`), and so are the random vectors. Keys
are values here: what the source does to a key object it has cached is a change of the cache. A
rotation to an object that the cache holds is `rotateKeyObject`, in `Rotation`.

The two values of `EncryptionAlgorithm` are all there are, so the branches for an unsupported
algorithm are not reached. `createdAt` and `expiresAt` of a key are stored and not read.
-/

namespace KitiumJobQueue.Encryption

open Effects JavaScript

/-! ## Keys and ciphertexts -/

/-- Encryption algorithm types. -/
inductive EncryptionAlgorithm
  | aes256Gcm
  | aes256Cbc
  deriving DecidableEq

/-- Encryption key configuration; `key` is in Base64. -/
structure EncryptionKeyConfig where
  keyId : String
  key : String
  algorithm : EncryptionAlgorithm
  createdAt : ℚ := 0
  expiresAt : Option ℚ := none
  isActive : Bool
  deriving DecidableEq

/-- Encrypted data container, its bytes in Base64. -/
structure EncryptedData where
  ciphertext : String
  iv : String
  tag : Option String := none
  keyId : String
  algorithm : EncryptionAlgorithm
  deriving DecidableEq

/-- The bytes of a key. -/
def EncryptionKeyConfig.material (config : EncryptionKeyConfig) : List UInt8 :=
  Base64.decode config.key

/-! ## What the manager calls -/

/-- `createCipheriv` and `createDecipheriv`, each with its `update` and `final`. In GCM a ciphertext
has a tag. -/
structure Ciphers where
  gcm (key iv plaintext : List UInt8) : Except Thrown (List UInt8 × List UInt8)
  openGcm (key iv ciphertext tag : List UInt8) : Except Thrown (List UInt8)
  cbc (key iv plaintext : List UInt8) : Except Thrown (List UInt8)
  openCbc (key iv ciphertext : List UInt8) : Except Thrown (List UInt8)

/-- Under the same key, vector and tag, what was encrypted is decrypted. -/
structure Ciphers.Invertible (ciphers : Ciphers) : Prop where
  openGcm_gcm : ∀ {key iv plaintext ciphertext tag},
    ciphers.gcm key iv plaintext = .ok (ciphertext, tag) →
      ciphers.openGcm key iv ciphertext tag = .ok plaintext
  openCbc_cbc : ∀ {key iv plaintext ciphertext},
    ciphers.cbc key iv plaintext = .ok ciphertext →
      ciphers.openCbc key iv ciphertext = .ok plaintext

/-- `JSON.stringify`, and `JSON.parse`, which throws on what is no JSON text. -/
structure JsonText where
  stringify : Json → String
  parse : String → Option Json

/-- What a manager is given, and what it calls. -/
structure Setting where
  keyPrefix : String
  scan : Redis.Scan EncryptionKeyConfig
  answers : ℕ → Answer Thrown
  ciphers : Ciphers
  json : JsonText

/-! ## The manager -/

/-- The manager's Redis and its fields. -/
structure Manager where
  redis : Remote (Redis.Store EncryptionKeyConfig)
  activeKeyId : Option String := none
  keysCache : String → Option EncryptionKeyConfig := fun _ => none

/-- `this.activeKeyId`, where it is truthy. -/
def Manager.activeKeyId? (m : Manager) : Option String := m.activeKeyId.filter (· ≠ "")

/-- The key that `activeKeyId` names in the cache. -/
def Manager.activeKey? (m : Manager) : Option EncryptionKeyConfig :=
  m.activeKeyId?.bind m.keysCache

/-- The manager with another Redis. -/
def Manager.withRedis (m : Manager) (redis : Remote (Redis.Store EncryptionKeyConfig)) : Manager :=
  { m with redis := redis }

/-- The manager with another cached key, or without one, under an id. -/
def Manager.withCached (m : Manager) (keyId : String) (config : Option EncryptionKeyConfig) :
    Manager :=
  { m with keysCache := Function.update m.keysCache keyId config }

/-- An error of the manager's own. No method reads its stack. -/
def managerError (code message : String) : Thrown :=
  .error
    { message := message
      stack := none
      fields :=
        [("code", .str code),
          ("severity", .str "error"),
          ("kind", .str "validation"),
          ("retryable", .bool false),
          ("source", .str "@kitiumai/job-queue/encryption-manager")] }

def noActiveKey : Thrown :=
  managerError "encryption/no_active_key" "No active encryption key configured"

def encryptionKeyNotFound (keyId : String) : Thrown :=
  managerError "encryption/key_not_found" s!"Encryption key {keyId} not found"

def decryptionKeyNotFound (keyId : String) : Thrown :=
  managerError "encryption/key_not_found" s!"Decryption key {keyId} not found"

section Data

variable (env : Setting)

/-! ## Encrypting and decrypting -/

/-- The text that stands for a string or an object. -/
def plaintextOf : Json → String
  | .str data => data
  | data => env.json.stringify data

/-- `encryptGCM`, with the vector that `randomBytes` gives. -/
def encryptGCM (plaintext : String) (key : List UInt8) (keyConfig : EncryptionKeyConfig)
    (iv : List UInt8) : Except Thrown EncryptedData := do
  let (ciphertext, tag) ← env.ciphers.gcm key iv (Utf8.encode plaintext)
  pure
    { ciphertext := Base64.encode ciphertext
      iv := Base64.encode iv
      tag := some (Base64.encode tag)
      keyId := keyConfig.keyId
      algorithm := keyConfig.algorithm }

/-- `encryptCBC`, with the vector that `randomBytes` gives. -/
def encryptCBC (plaintext : String) (key : List UInt8) (keyConfig : EncryptionKeyConfig)
    (iv : List UInt8) : Except Thrown EncryptedData := do
  let ciphertext ← env.ciphers.cbc key iv (Utf8.encode plaintext)
  pure
    { ciphertext := Base64.encode ciphertext
      iv := Base64.encode iv
      keyId := keyConfig.keyId
      algorithm := keyConfig.algorithm }

/-- `encrypt` of a string or an object. -/
def encrypt (m : Manager) (data : Json) (iv : List UInt8) : Except Thrown EncryptedData :=
  match m.activeKeyId? with
  | none => .error noActiveKey
  | some activeKeyId =>
    match m.keysCache activeKeyId with
    | none => .error (encryptionKeyNotFound activeKeyId)
    | some keyConfig =>
      let plaintext := plaintextOf env data
      let key := Base64.decode keyConfig.key
      match keyConfig.algorithm with
      | .aes256Gcm => encryptGCM env plaintext key keyConfig iv
      | .aes256Cbc => encryptCBC env plaintext key keyConfig iv

/-- What `decryptToPlaintext` does once it has the key. -/
def decipher (key : List UInt8) (encrypted : EncryptedData) : Except Thrown String := do
  let ciphertext := Base64.decode encrypted.ciphertext
  let iv := Base64.decode encrypted.iv
  match encrypted.algorithm with
  | .aes256Gcm => do
    let tag := Base64.decode (encrypted.tag.getD "")
    let decrypted ← env.ciphers.openGcm key iv ciphertext tag
    pure (Utf8.decode decrypted)
  | .aes256Cbc => do
    let decrypted ← env.ciphers.openCbc key iv ciphertext
    pure (Utf8.decode decrypted)

/-- `decryptToPlaintext` -/
def decryptToPlaintext (m : Manager) (encrypted : EncryptedData) : Except Thrown String :=
  match m.keysCache encrypted.keyId with
  | none => .error (decryptionKeyNotFound encrypted.keyId)
  | some keyConfig => decipher env (Base64.decode keyConfig.key) encrypted

/-- `parsePlaintext` -/
def parsePlaintext (plaintext : String) : Json := (env.json.parse plaintext).getD (.str plaintext)

/-- `decrypt` -/
def decrypt (m : Manager) (encrypted : EncryptedData) : Except Thrown Json := do
  let plaintext ← decryptToPlaintext env m encrypted
  pure (parsePlaintext env plaintext)

/-! ## Keys -/

/-- Send a command to Redis. -/
def command {α : Type}
    (op : Redis.Store EncryptionKeyConfig → α × Redis.Store EncryptionKeyConfig) :
    Async Thrown Manager α :=
  .within Manager.redis (fun redis m => m.withRedis redis) (call env.answers op)

/-- `this.keysCache.set` and `this.keysCache.delete` -/
def setCached (keyId : String) (config : Option EncryptionKeyConfig) : Async Thrown Manager Unit :=
  .modify fun m => m.withCached keyId config

/-- `buildKeyName` -/
def buildKeyName (keyId : String) : String := env.keyPrefix ++ ":" ++ keyId

/-- `addKey` -/
def addKey (config : EncryptionKeyConfig) : Async Thrown Manager Unit := do
  command env fun r => ((), r.set (buildKeyName env config.keyId) config none)
  setCached config.keyId (some config)

/-- Mark a cached key as inactive and store it. -/
def retire (keyId : String) (config : EncryptionKeyConfig) : Async Thrown Manager Unit := do
  setCached keyId (some { config with isActive := false })
  addKey env { config with isActive := false }

/-- The first step of `rotateKey`: deactivate the old key. -/
def retireActive : Async Thrown Manager Unit := do
  let m ← .read id
  match m.activeKeyId? with
  | some activeKeyId =>
    match m.keysCache activeKeyId with
    | some oldKey => retire env activeKeyId oldKey
    | none => pure ()
  | none => pure ()

/-- `rotateKey`, given an object that the cache does not hold. -/
def rotateKey (newKey : EncryptionKeyConfig) : Async Thrown Manager Unit := do
  retireActive env
  addKey env { newKey with isActive := true }
  .modify fun m => { m with activeKeyId := some newKey.keyId }

/-- The loop of `getKeys` over the keys it found, at the time `now`. -/
def readKeys (now : ℕ) : List String → List EncryptionKeyConfig →
    Async Thrown Manager (List EncryptionKeyConfig)
  | [], configs => pure configs
  | key :: keys, configs => do
    let data ← command env fun r => (r.get now key, r)
    readKeys now keys (configs ++ data.toList)

/-- `getKeys` -/
def getKeys (now : ℕ) : Async Thrown Manager (List EncryptionKeyConfig) :=
  tryCatch
    (do
      let keys ← command env fun r => (r.keys env.scan now (env.keyPrefix ++ ":*"), r)
      readKeys env now keys [])
    fun _ => pure []

/-- `initialize` -/
def initializeManager (now : ℕ) : Async Thrown Manager Unit :=
  tryCatch
    (do
      let keys ← getKeys env now
      match keys.find? EncryptionKeyConfig.isActive with
      | some active => .modify fun m => { m with activeKeyId := some active.keyId }
      | none => pure ())
    fun _ => pure ()

/-- `deactivateKey` -/
def deactivateKey (keyId : String) : Async Thrown Manager Unit := do
  match ← .read fun m : Manager => m.keysCache keyId with
  | some keyConfig => retire env keyId keyConfig
  | none => pure ()

/-- `removeKey` -/
def removeKey (keyId : String) : Async Thrown Manager Unit := do
  command env fun r => ((), r.del (buildKeyName env keyId))
  setCached keyId none

end Data

/-! ## Runs -/

/-- A call that is about keys. `now` is when the keys are read. -/
inductive Call
  | initializeManager (now : ℕ)
  | addKey (config : EncryptionKeyConfig)
  | rotateKey (newKey : EncryptionKeyConfig)
  | deactivateKey (keyId : String)
  | removeKey (keyId : String)
  deriving DecidableEq

/-- The method a call runs. -/
def Call.method (env : Setting) : Call → Async Thrown Manager Unit
  | .initializeManager now => Encryption.initializeManager env now
  | .addKey config => Encryption.addKey env config
  | .rotateKey newKey => Encryption.rotateKey env newKey
  | .deactivateKey keyId => Encryption.deactivateKey env keyId
  | .removeKey keyId => Encryption.removeKey env keyId

/-- The key a call adds. -/
def Call.added? : Call → Option EncryptionKeyConfig
  | .addKey config => some config
  | .rotateKey newKey => some { newKey with isActive := true }
  | .initializeManager _ | .deactivateKey _ | .removeKey _ => none

/-- The id a call removes. -/
def Call.removed? : Call → Option String
  | .removeKey keyId => some keyId
  | .initializeManager _ | .addKey _ | .rotateKey _ | .deactivateKey _ => none

/-- The managers over one database, one after the other. -/
structure World where
  manager : Manager
  /-- The ciphertexts made so far, each with the text it was made from. -/
  produced : List (EncryptedData × String) := []
  /-- The ids `removeKey` was called with. -/
  removed : List String := []

/-- What happens: a call about keys, an encryption with the vector that is drawn, or a restart,
after which a new manager is set up. -/
inductive Event
  | call (c : Call)
  | encrypt (data : Json) (iv : List UInt8)
  | restart (now : ℕ)
  deriving DecidableEq

/-- The ciphertext of an encryption that succeeds, with its text. -/
def World.record (w : World) (text : String) : Except Thrown EncryptedData → World
  | .ok encrypted => { w with produced := (encrypted, text) :: w.produced }
  | .error _ => w

/-- What an event does. -/
def World.after (env : Setting) (w : World) : Event → World
  | .call c =>
    { manager := ((c.method env).run w.manager).2
      produced := w.produced
      removed := c.removed?.toList ++ w.removed }
  | .encrypt data iv =>
    w.record (plaintextOf env data) (Encryption.encrypt env w.manager data iv)
  | .restart now =>
    { w with manager := ((initializeManager env now).run { redis := w.manager.redis }).2 }

/-- Managers under any sequence of events. -/
def system (env : Setting) : System World Event where
  step w e := some (w.after env e)

/-- A new manager over a database. -/
def World.init (redis : Redis.Store EncryptionKeyConfig) : World where
  manager := { redis := ⟨redis, 0⟩ }

/-! ## What the calls do to the cache -/

section Cache

variable {env : Setting}

theorem keeps_command {α τ : Type} {f : Manager → τ} (hf : ∀ m redis, f (m.withRedis redis) = f m)
    (op : Redis.Store EncryptionKeyConfig → α × Redis.Store EncryptionKeyConfig) :
    Async.Keeps f (command env op) :=
  fun m => hf m _

/-- A command that reads changes no more than the number of calls made. -/
theorem keeps_reading {α τ : Type} {f : Manager → τ}
    (hf : ∀ m calls, f (m.withRedis ⟨m.redis.server, calls⟩) = f m)
    {op : Redis.Store EncryptionKeyConfig → α × Redis.Store EncryptionKeyConfig}
    (hop : ∀ r, (op r).2 = r) : Async.Keeps f (command env op) := by
  intro m
  cases ha : env.answers m.redis.calls with
  | answered =>
    rw [command, Async.run_within (run_call_of_answered ha), hop]
    exact hf m _
  | rejected e applied =>
    rw [command, Async.run_within (run_call_of_rejected ha), hop, ite_self]
    exact hf m _

theorem keeps_readKeys {τ : Type} {f : Manager → τ}
    (hf : ∀ m calls, f (m.withRedis ⟨m.redis.server, calls⟩) = f m) (now : ℕ)
    (keys : List String) (configs : List EncryptionKeyConfig) :
    Async.Keeps f (readKeys env now keys configs) := by
  induction keys generalizing configs with
  | nil => exact .pure configs
  | cons key keys ih => exact .bind (keeps_reading hf fun _ => rfl) fun data => ih _

theorem keeps_getKeys {τ : Type} {f : Manager → τ}
    (hf : ∀ m calls, f (m.withRedis ⟨m.redis.server, calls⟩) = f m) (now : ℕ) :
    Async.Keeps f (getKeys env now) :=
  .handle (.bind (keeps_reading hf fun _ => rfl) fun keys => keeps_readKeys hf now keys [])
    fun _ => .pure _

/-- Reading the keys leaves the cache as it is. -/
theorem keysCache_initializeManager (now : ℕ) :
    Async.Keeps Manager.keysCache (initializeManager env now) := by
  refine .handle (.bind (keeps_getKeys (fun _ _ => rfl) now) fun keys => ?_) fun _ => .pure _
  cases keys.find? EncryptionKeyConfig.isActive with
  | some active => exact fun m => rfl
  | none => exact .pure _

/-- What is cached under an id is as `R` says. -/
def Manager.Caches (R : String → Option EncryptionKeyConfig → Prop) (m : Manager) : Prop :=
  ∀ keyId, R keyId (m.keysCache keyId)

variable {R : String → Option EncryptionKeyConfig → Prop} {keyId : String}
  {config : EncryptionKeyConfig}

theorem caches_command {α : Type}
    (op : Redis.Store EncryptionKeyConfig → α × Redis.Store EncryptionKeyConfig) :
    Async.Preserves (Manager.Caches R) (command env op) :=
  (keeps_command (f := Manager.keysCache) (fun _ _ => rfl) op).preserves
    fun cache => ∀ keyId, R keyId (cache keyId)

theorem caches_setCached {cached : Option EncryptionKeyConfig} (h : R keyId cached) :
    Async.Preserves (Manager.Caches R) (setCached keyId cached) := by
  refine Async.Preserves.modify fun m hm id => ?_
  by_cases hid : id = keyId
  · subst hid
    simpa [Manager.withCached] using h
  · simpa [Manager.withCached, hid] using hm id

theorem caches_addKey (h : R config.keyId (some config)) :
    Async.Preserves (Manager.Caches R) (addKey env config) :=
  (caches_command _).bind fun _ => caches_setCached h

/-- Retiring a key changes what is cached under its id, whether or not Redis takes it. -/
theorem caches_retire (hid : config.keyId = keyId)
    (h : R keyId (some { config with isActive := false })) :
    Async.Preserves (Manager.Caches R) (retire env keyId config) := by
  subst hid
  exact (caches_setCached h).bind fun _ => caches_addKey h

/-- Retiring the key that is cached under an id, if there is one. -/
theorem caches_retire_cached (hid : ∀ {keyId config}, R keyId (some config) → config.keyId = keyId)
    (hflag : ∀ {keyId config}, R keyId (some config) →
      R keyId (some { config with isActive := false }))
    {m : Manager} (hm : m.Caches R) :
    (Async.run (match m.keysCache keyId with
      | some keyConfig => retire env keyId keyConfig
      | none => pure ()) m).2.Caches R := by
  cases hkey : m.keysCache keyId with
  | none => exact hm
  | some keyConfig =>
    have hkeyConfig : R keyId (some keyConfig) := hkey ▸ hm keyId
    exact caches_retire (hid hkeyConfig) (hflag hkeyConfig) m hm

theorem caches_retireActive (hid : ∀ {keyId config}, R keyId (some config) → config.keyId = keyId)
    (hflag : ∀ {keyId config}, R keyId (some config) →
      R keyId (some { config with isActive := false })) :
    Async.Preserves (Manager.Caches R) (retireActive env) := by
  refine Async.Preserves.read_bind fun m hm => ?_
  simp only [id_eq]
  cases m.activeKeyId? with
  | none => exact hm
  | some activeKeyId => exact caches_retire_cached hid hflag hm

/-- **What every call preserves of the cache.** A property of what is cached is preserved by a call
if it tells the id of a key, does not depend on whether the key is active, and holds of the key the
call adds and of the place that it empties. -/
theorem caches_method {c : Call} (hid : ∀ {keyId config}, R keyId (some config) →
      config.keyId = keyId)
    (hflag : ∀ {keyId config}, R keyId (some config) →
      R keyId (some { config with isActive := false }))
    (hadded : ∀ config ∈ c.added?, R config.keyId (some config))
    (hremoved : ∀ keyId ∈ c.removed?, R keyId none) :
    Async.Preserves (Manager.Caches R) (c.method env) := by
  cases c with
  | initializeManager now =>
    exact (keysCache_initializeManager now).preserves fun cache => ∀ keyId, R keyId (cache keyId)
  | addKey config => exact caches_addKey (hadded config rfl)
  | rotateKey newKey =>
    have hretire : Async.Preserves (Manager.Caches R) (retireActive env) :=
      caches_retireActive hid hflag
    exact hretire.bind fun _ => (caches_addKey (hadded _ rfl)).bind fun _ => .modify fun _ h => h
  | deactivateKey keyId =>
    exact Async.Preserves.read_bind fun m hm => caches_retire_cached hid hflag hm
  | removeKey keyId =>
    exact (caches_command _).bind fun _ => caches_setCached (hremoved keyId rfl)

/-- A cached key lies under its own id. -/
def Manager.Named : Manager → Prop :=
  Manager.Caches fun keyId cached => ∀ config ∈ cached, config.keyId = keyId

theorem named_after {w : World} (hw : w.manager.Named) (e : Event) :
    (w.after env e).manager.Named := by
  cases e with
  | call c =>
    refine caches_method (fun h => h _ rfl) (fun h => ?_) (fun config _ => ?_) (fun keyId _ => ?_)
      w.manager hw
    all_goals simp_all
  | encrypt data iv =>
    simp only [World.after]
    cases Encryption.encrypt env w.manager data iv with
    | ok encrypted => exact hw
    | error e => exact hw
  | restart now =>
    intro keyId
    simp only [World.after, (keysCache_initializeManager now) _]
    simp

/-- In every run a cached key lies under its own id. -/
theorem named_of_run {redis : Redis.Store EncryptionKeyConfig} {es : List Event} {w : World}
    (hrun : (system env).runFrom (World.init redis) es = some w) : w.manager.Named := by
  refine System.invariant (I := fun w : World => w.manager.Named) (fun w e w' hw hstep => ?_)
    (fun keyId => by simp [World.init]) hrun
  obtain rfl : w.after env e = w' := by simpa [system] using hstep
  exact named_after hw e

end Cache

end KitiumJobQueue.Encryption
