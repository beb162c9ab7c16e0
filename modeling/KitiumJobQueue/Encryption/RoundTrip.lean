import KitiumJobQueue.Encryption.Manager
import Mathlib.GroupTheory.Perm.Basic

/-!
# Decrypting what was encrypted

`encrypt` takes a string as the text it is, and an object as the text of its JSON. `decrypt` does
not know which of the two it was given, and takes every text that is JSON for the value it denotes.
So the text of a ciphertext is read back under the key it was made under (`decipher_encrypt`), and
an object comes back as it was, but of the strings only those that `JSON.parse` does not take
(`decrypt_encrypt_iff`).
-/

namespace KitiumJobQueue.Encryption

open Effects JavaScript

/-- `JSON.parse` reads back what `JSON.stringify` wrote. -/
def JsonText.Inverts (json : JsonText) (data : Json) : Prop :=
  json.parse (json.stringify data) = some data

/-- The text of a string is not taken for another value. -/
def JsonText.Spares (json : JsonText) : Json → Prop
  | .str data => json.parse data = none ∨ json.parse data = some (.str data)
  | .null | .bool _ | .num _ | .arr _ | .obj _ => True

instance (json : JsonText) : DecidablePred json.Spares
  | .str data =>
    inferInstanceAs (Decidable (json.parse data = none ∨ json.parse data = some (.str data)))
  | .null | .bool _ | .num _ | .arr _ | .obj _ => .isTrue trivial

/-- A key and a vector of the lengths that AES-256 takes are taken. -/
structure Ciphers.Accepts (ciphers : Ciphers) : Prop where
  gcm : ∀ {key iv : List UInt8} (plaintext), key.length = 32 → iv.length = 16 →
    ∃ out, ciphers.gcm key iv plaintext = .ok out
  cbc : ∀ {key iv : List UInt8} (plaintext), key.length = 32 → iv.length = 16 →
    ∃ out, ciphers.cbc key iv plaintext = .ok out

variable {env : Setting} {m : Manager} {config : EncryptionKeyConfig} {data : Json}
  {iv : List UInt8} {encrypted : EncryptedData}

/-! ## The text of a ciphertext -/

theorem Manager.activeKey?_eq_some :
    m.activeKey? = some config ↔
      ∃ activeKeyId, m.activeKeyId? = some activeKeyId ∧ m.keysCache activeKeyId = some config :=
  Option.bind_eq_some_iff

/-- The active key is cached under its own id. -/
theorem keysCache_activeKey (hm : m.Named) (h : m.activeKey? = some config) :
    m.keysCache config.keyId = some config := by
  obtain ⟨activeKeyId, -, hkey⟩ := Manager.activeKey?_eq_some.mp h
  have hid : config.keyId = activeKeyId := hm activeKeyId config hkey
  rw [hid, hkey]

/-- What is encrypted is encrypted under the active key. -/
theorem encrypt_of_activeKey (h : m.activeKey? = some config) :
    encrypt env m data iv = match config.algorithm with
      | .aes256Gcm => encryptGCM env (plaintextOf env data) config.material config iv
      | .aes256Cbc => encryptCBC env (plaintextOf env data) config.material config iv := by
  obtain ⟨activeKeyId, hid, hkey⟩ := Manager.activeKey?_eq_some.mp h
  simp only [encrypt, hid, hkey]
  rfl

theorem exists_activeKey_of_encrypt (h : encrypt env m data iv = .ok encrypted) :
    ∃ config, m.activeKey? = some config := by
  unfold encrypt at h
  cases hid : m.activeKeyId? with
  | none => simp [hid] at h
  | some activeKeyId =>
    cases hkey : m.keysCache activeKeyId with
    | none => simp [hid, hkey] at h
    | some config => exact ⟨config, Manager.activeKey?_eq_some.mpr ⟨_, hid, hkey⟩⟩

theorem encryptGCM_eq_ok {text : String} {key : List UInt8} :
    encryptGCM env text key config iv = .ok encrypted ↔
      ∃ ciphertext tag, env.ciphers.gcm key iv (Utf8.encode text) = .ok (ciphertext, tag) ∧
        { ciphertext := Base64.encode ciphertext
          iv := Base64.encode iv
          tag := some (Base64.encode tag)
          keyId := config.keyId
          algorithm := config.algorithm } = encrypted := by
  unfold encryptGCM
  cases env.ciphers.gcm key iv (Utf8.encode text) with
  | error e => simp [bind, Except.bind]
  | ok out => simp [bind, Except.bind, pure, Except.pure, Prod.ext_iff]

theorem encryptCBC_eq_ok {text : String} {key : List UInt8} :
    encryptCBC env text key config iv = .ok encrypted ↔
      ∃ ciphertext, env.ciphers.cbc key iv (Utf8.encode text) = .ok ciphertext ∧
        { ciphertext := Base64.encode ciphertext
          iv := Base64.encode iv
          keyId := config.keyId
          algorithm := config.algorithm } = encrypted := by
  unfold encryptCBC
  cases env.ciphers.cbc key iv (Utf8.encode text) with
  | error e => simp [bind, Except.bind]
  | ok ciphertext => simp [bind, Except.bind, pure, Except.pure]

/-- What is encrypted has gone through one of the two ciphers. -/
theorem encrypt_cases (hactive : m.activeKey? = some config)
    (h : encrypt env m data iv = .ok encrypted) :
    config.algorithm = .aes256Gcm ∧
        encryptGCM env (plaintextOf env data) config.material config iv = .ok encrypted ∨
      config.algorithm = .aes256Cbc ∧
        encryptCBC env (plaintextOf env data) config.material config iv = .ok encrypted := by
  rw [encrypt_of_activeKey hactive] at h
  cases halgorithm : config.algorithm with
  | aes256Gcm => exact .inl ⟨rfl, by rwa [halgorithm] at h⟩
  | aes256Cbc => exact .inr ⟨rfl, by rwa [halgorithm] at h⟩

/-- A ciphertext names the key it was made under. -/
theorem keyId_encrypt (hactive : m.activeKey? = some config)
    (h : encrypt env m data iv = .ok encrypted) : encrypted.keyId = config.keyId := by
  rcases encrypt_cases hactive h with ⟨-, h⟩ | ⟨-, h⟩
  · obtain ⟨ciphertext, tag, -, rfl⟩ := encryptGCM_eq_ok.mp h
    rfl
  · obtain ⟨ciphertext, -, rfl⟩ := encryptCBC_eq_ok.mp h
    rfl

/-- **Under the key it was made under, a ciphertext stands for the text it was made from.** -/
theorem decipher_encrypt (hciphers : env.ciphers.Invertible)
    (hactive : m.activeKey? = some config) (h : encrypt env m data iv = .ok encrypted) :
    decipher env config.material encrypted = .ok (plaintextOf env data) := by
  rcases encrypt_cases hactive h with ⟨halgorithm, h⟩ | ⟨halgorithm, h⟩
  · obtain ⟨ciphertext, tag, hgcm, rfl⟩ := encryptGCM_eq_ok.mp h
    simp [decipher, halgorithm, Base64.decode_encode, hciphers.openGcm_gcm hgcm,
      Utf8.decode_encode, bind, Except.bind, pure, Except.pure]
  · obtain ⟨ciphertext, hcbc, rfl⟩ := encryptCBC_eq_ok.mp h
    simp [decipher, halgorithm, Base64.decode_encode, hciphers.openCbc_cbc hcbc,
      Utf8.decode_encode, bind, Except.bind, pure, Except.pure]

/-- A manager that still has the key reads the text. -/
theorem decryptToPlaintext_eq (h : m.keysCache encrypted.keyId = some config) :
    decryptToPlaintext env m encrypted = decipher env config.material encrypted := by
  simp only [decryptToPlaintext, h]
  rfl

/-- The active key encrypts, if the cipher takes it. -/
theorem exists_encrypt (hciphers : env.ciphers.Accepts) (hactive : m.activeKey? = some config)
    (hkey : config.material.length = 32) (hiv : iv.length = 16) :
    ∃ encrypted, encrypt env m data iv = .ok encrypted := by
  rw [encrypt_of_activeKey hactive]
  cases config.algorithm with
  | aes256Gcm =>
    obtain ⟨⟨ciphertext, tag⟩, hgcm⟩ := hciphers.gcm (Utf8.encode (plaintextOf env data)) hkey hiv
    exact ⟨_, encryptGCM_eq_ok.mpr ⟨ciphertext, tag, hgcm, rfl⟩⟩
  | aes256Cbc =>
    obtain ⟨ciphertext, hcbc⟩ := hciphers.cbc (Utf8.encode (plaintextOf env data)) hkey hiv
    exact ⟨_, encryptCBC_eq_ok.mpr ⟨ciphertext, hcbc, rfl⟩⟩

/-! ## Strings and objects -/

/-- The text that stands for a value is read as that value, unless it is a string whose text is
taken for another. -/
theorem parsePlaintext_plaintextOf (hjson : (∀ s, data ≠ .str s) → env.json.Inverts data) :
    parsePlaintext env (plaintextOf env data) = data ↔ env.json.Spares data := by
  cases data with
  | str s =>
    cases hparse : env.json.parse s with
    | none => simp [plaintextOf, parsePlaintext, JsonText.Spares, hparse]
    | some value => simp [plaintextOf, parsePlaintext, JsonText.Spares, hparse]
  | null | bool | num | arr | obj =>
    have hdata := hjson nofun
    unfold JsonText.Inverts at hdata
    simp [plaintextOf, parsePlaintext, JsonText.Spares, hdata]

/-- **At any moment of any run, the active key encrypts, and what it encrypts is decrypted to the
same value exactly if that is an object or a string that `JSON.parse` does not take for another
value.** -/
theorem decrypt_encrypt_iff (hciphers : env.ciphers.Invertible)
    (haccepts : env.ciphers.Accepts) {redis : Redis.Store EncryptionKeyConfig} {es : List Event}
    {w : World} (hrun : (system env).runFrom (World.init redis) es = some w)
    (hactive : w.manager.activeKey? = some config)
    (hjson : (∀ s, data ≠ .str s) → env.json.Inverts data) (iv : List UInt8) :
    (config.material.length = 32 → iv.length = 16 →
        ∃ encrypted, encrypt env w.manager data iv = .ok encrypted) ∧
      ∀ encrypted, encrypt env w.manager data iv = .ok encrypted →
        (decrypt env w.manager encrypted = .ok data ↔ env.json.Spares data) := by
  refine ⟨exists_encrypt haccepts hactive, fun encrypted h => ?_⟩
  have hkey : w.manager.keysCache encrypted.keyId = some config := by
    rw [keyId_encrypt hactive h]
    exact keysCache_activeKey (named_of_run hrun) hactive
  have htext : decryptToPlaintext env w.manager encrypted = .ok (plaintextOf env data) :=
    (decryptToPlaintext_eq hkey).trans (decipher_encrypt hciphers hactive h)
  rw [← parsePlaintext_plaintextOf hjson]
  simp [decrypt, htext, bind, Except.bind, pure, Except.pure]

/-! ## Two texts -/

/-- A text and what AES-256 makes of it, under the key whose bytes count from 0 to 31 and the vector
of sixteen zeros. -/
structure Sample where
  text : String
  cbc : List UInt8
  gcm : List UInt8
  tag : List UInt8

/-- The ciphertexts of two texts. -/
def samples : List Sample :=
  [{ text := "hello"
     cbc := [145, 104, 68, 135, 195, 76, 52, 86, 235, 78, 144, 28, 239, 136, 74, 30]
     gcm := [160, 219, 52, 86, 218]
     tag := [48, 43, 153, 126, 177, 178, 196, 25, 135, 91, 133, 250, 144, 70, 45, 28] },
    { text := "123"
      cbc := [249, 62, 86, 102, 152, 222, 220, 181, 33, 156, 221, 36, 51, 88, 229, 216]
      gcm := [249, 140, 107]
      tag := [217, 12, 148, 51, 207, 72, 133, 207, 104, 37, 49, 161, 204, 119, 33, 120] }]

/-- Exchange the bytes of each sample's text for other bytes, and leave all others. -/
def exchange (f : Sample → List UInt8) : Equiv.Perm (List UInt8) :=
  (samples.map fun sample => Equiv.swap (Utf8.encode sample.text) (f sample)).prod

/-- The tag of the bytes of a sample's text. -/
def sampleTag (text : List UInt8) : List UInt8 :=
  ((samples.find? fun sample => Utf8.encode sample.text = text).map Sample.tag).getD []

/-- A cipher that takes keys and vectors of the lengths that AES-256 takes. -/
def taking {α : Type} (key iv : List UInt8) (out : Except Thrown α) : Except Thrown α :=
  if key.length = 32 ∧ iv.length = 16 then out
  else .error (.error { message := "Invalid key length", stack := none })

/-- Ciphers that do to the samples what AES-256 does. -/
def sampleCiphers : Ciphers where
  gcm key iv plaintext := taking key iv (.ok (exchange Sample.gcm plaintext, sampleTag plaintext))
  openGcm key iv ciphertext tag :=
    let plaintext := (exchange Sample.gcm).symm ciphertext
    taking key iv <|
      if tag = sampleTag plaintext then .ok plaintext
      else .error (.error
        { message := "Unsupported state or unable to authenticate data", stack := none })
  cbc key iv plaintext := taking key iv (.ok (exchange Sample.cbc plaintext))
  openCbc key iv ciphertext := taking key iv (.ok ((exchange Sample.cbc).symm ciphertext))

theorem taking_eq_ok {α : Type} {key iv : List UInt8} {out : Except Thrown α} {a : α} :
    taking key iv out = .ok a ↔ (key.length = 32 ∧ iv.length = 16) ∧ out = .ok a := by
  unfold taking
  split <;> simp_all

theorem invertible_sampleCiphers : sampleCiphers.Invertible where
  openGcm_gcm h := by
    obtain ⟨hlengths, hout⟩ := taking_eq_ok.mp h
    obtain ⟨rfl, rfl⟩ := Prod.mk.inj (Except.ok.inj hout)
    exact taking_eq_ok.mpr ⟨hlengths, by simp⟩
  openCbc_cbc h := by
    obtain ⟨hlengths, hout⟩ := taking_eq_ok.mp h
    obtain rfl := Except.ok.inj hout
    exact taking_eq_ok.mpr ⟨hlengths, by simp⟩

theorem accepts_sampleCiphers : sampleCiphers.Accepts where
  gcm _ hkey hiv := ⟨_, taking_eq_ok.mpr ⟨⟨hkey, hiv⟩, rfl⟩⟩
  cbc _ hkey hiv := ⟨_, taking_eq_ok.mpr ⟨⟨hkey, hiv⟩, rfl⟩⟩

/-- The default prefix, a Redis that answers all calls, and the part of `JSON` that is about the
samples and about the empty object. -/
def sampleSetting : Setting where
  keyPrefix := "encryption-keys"
  scan := .stored
  answers := fun _ => .answered
  ciphers := sampleCiphers
  json :=
    { stringify := fun _ => "{}"
      parse := fun text =>
        if text = "123" then some (.num 123)
        else if text = "{}" then some (.obj [])
        else none }

/-- A key whose bytes count from 0 to 31. -/
def sampleKey (keyId : String) (algorithm : EncryptionAlgorithm) : EncryptionKeyConfig where
  keyId := keyId
  key := "AAECAwQFBgcICQoLDA0ODxAREhMUFRYXGBkaGxwdHh8="
  algorithm := algorithm
  isActive := true

/-- The managers after a rotation to the sample key. -/
def rotated (algorithm : EncryptionAlgorithm) : World :=
  (World.init .empty).after sampleSetting (.call (.rotateKey (sampleKey "key-1" algorithm)))

/-- A string comes back from a key of the sample bytes. -/
theorem decrypt_encrypt_hello :
    ∃ encrypted, encrypt sampleSetting (rotated .aes256Cbc).manager (.str "hello")
        (List.replicate 16 0) = .ok encrypted ∧
      decrypt sampleSetting (rotated .aes256Cbc).manager encrypted = .ok (.str "hello") := by
  have hrun : (system sampleSetting).runFrom (World.init .empty)
      [.call (.rotateKey (sampleKey "key-1" .aes256Cbc))] = some (rotated .aes256Cbc) := rfl
  have hactive : (rotated .aes256Cbc).manager.activeKey? = some (sampleKey "key-1" .aes256Cbc) := by
    decide +kernel
  have hjson : (∀ s, Json.str "hello" ≠ .str s) → sampleSetting.json.Inverts (.str "hello") :=
    fun h => absurd rfl (h "hello")
  obtain ⟨hencrypts, hiff⟩ := decrypt_encrypt_iff invertible_sampleCiphers accepts_sampleCiphers
    hrun hactive hjson (List.replicate 16 0)
  obtain ⟨encrypted, hencrypted⟩ := hencrypts (by decide +kernel) rfl
  exact ⟨encrypted, hencrypted, (hiff encrypted hencrypted).mpr (by decide)⟩

/-- The string of three digits is decrypted to a number. -/
theorem decrypt_encrypt_digits :
    ∃ encrypted, encrypt sampleSetting (rotated .aes256Gcm).manager (.str "123")
        (List.replicate 16 0) = .ok encrypted ∧
      decrypt sampleSetting (rotated .aes256Gcm).manager encrypted = .ok (.num 123) ∧
      decrypt sampleSetting (rotated .aes256Gcm).manager encrypted ≠ .ok (.str "123") := by
  refine ⟨{ ciphertext := "+Yxr"
            iv := "AAAAAAAAAAAAAAAAAAAAAA=="
            tag := some "2QyUM89Ihc9oJTGhzHcheA=="
            keyId := "key-1"
            algorithm := .aes256Gcm }, ?_, ?_, ?_⟩
  all_goals decide +kernel

end KitiumJobQueue.Encryption
