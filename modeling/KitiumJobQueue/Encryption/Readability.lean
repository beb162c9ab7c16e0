import KitiumJobQueue.Encryption.RoundTrip

/-!
# What stays readable

`decryptToPlaintext` looks for a key in the cache alone. `initialize` reads the keys that are stored
and takes from them which one is active, but caches none: after a restart no ciphertext can be read
(`not_readable_restart`). `addKey` puts a key in the place of one of the same id, whatever its
bytes. Where neither happens to a key that is in use, ciphertexts stay readable
(`readable_of_run`): whether or not Redis answers, no method takes a key out of the cache but
`removeKey`, and none changes its bytes.
-/

namespace KitiumJobQueue.Encryption

variable {env : Setting}

/-- The current manager reads every ciphertext made so far, unless its key was removed. -/
def World.Readable (env : Setting) (w : World) : Prop :=
  ∀ p ∈ w.produced, p.1.keyId ∉ w.removed → decryptToPlaintext env w.manager p.1 = .ok p.2

/-- There is a ciphertext under the key, which was never removed. -/
def World.InUse (w : World) (keyId : String) : Prop :=
  keyId ∉ w.removed ∧ ∃ p ∈ w.produced, p.1.keyId = keyId

/-- No key in use is lost from the cache: there is no restart, and no key of other bytes in its
place. -/
def Event.Spares (w : World) : Event → Prop
  | .call c => ∀ config ∈ c.added?, w.InUse config.keyId →
      ∀ old ∈ w.manager.keysCache config.keyId, old.material = config.material
  | .encrypt _ _ => True
  | .restart _ => ∀ p ∈ w.produced, ¬ w.InUse p.1.keyId

instance (w : World) : Decidable (w.Readable env) :=
  inferInstanceAs (Decidable (∀ p ∈ w.produced, p.1.keyId ∉ w.removed →
    decryptToPlaintext env w.manager p.1 = .ok p.2))

instance (w : World) : DecidablePred w.InUse := fun keyId =>
  inferInstanceAs (Decidable (keyId ∉ w.removed ∧ ∃ p ∈ w.produced, p.1.keyId = keyId))

instance (w : World) : DecidablePred (Event.Spares w)
  | .call c => inferInstanceAs (Decidable (∀ config ∈ c.added?, w.InUse config.keyId →
      ∀ old ∈ w.manager.keysCache config.keyId, old.material = config.material))
  | .encrypt _ _ => .isTrue trivial
  | .restart _ => inferInstanceAs (Decidable (∀ p ∈ w.produced, ¬ w.InUse p.1.keyId))

/-! ## The keys in use are cached -/

/-- What is cached under an id reads the ciphertexts under that id. -/
def World.Reads (env : Setting) (w : World) (keyId : String)
    (cached : Option EncryptionKeyConfig) : Prop :=
  (∀ config ∈ cached, config.keyId = keyId) ∧
    ∀ p ∈ w.produced, p.1.keyId = keyId → keyId ∉ w.removed →
      ∃ config ∈ cached, decipher env config.material p.1 = .ok p.2

/-- **A call that spares the keys in use leaves them readable.** -/
theorem caches_reads_call {w : World} (hw : w.manager.Caches (w.Reads env)) {c : Call}
    (hspares : Event.Spares w (.call c)) :
    (w.after env (.call c)).manager.Caches ((w.after env (.call c)).Reads env) := by
  have hremoved : ∀ {keyId}, keyId ∉ (w.after env (.call c)).removed → keyId ∉ w.removed :=
    fun h hmem => h (List.mem_append_right _ hmem)
  refine caches_method (fun h => h.1 _ rfl) ?_ ?_ ?_ w.manager ?_
  · rintro keyId config ⟨hid, hreads⟩
    refine ⟨fun _ h => Option.mem_some_iff.mp h ▸ hid config rfl, fun p hp hkey hne => ?_⟩
    obtain ⟨config', hconfig, hdecipher⟩ := hreads p hp hkey hne
    obtain rfl := Option.mem_some_iff.mp hconfig
    exact ⟨_, rfl, hdecipher⟩
  · -- the key that is added has the bytes of the one that it replaces
    intro config hconfig
    refine ⟨fun _ h => Option.mem_some_iff.mp h ▸ rfl, fun p hp hkey hne => ⟨config, rfl, ?_⟩⟩
    obtain ⟨old, hold, hdecipher⟩ := (hw config.keyId).2 p hp hkey (hremoved hne)
    rwa [← hspares config hconfig ⟨hremoved hne, p, hp, hkey⟩ old hold]
  · intro keyId hkeyId
    refine ⟨fun _ h => (Option.not_mem_none _ h).elim, fun p hp hkey hne => absurd ?_ hne⟩
    exact List.mem_append_left _ (Option.mem_toList.mpr hkeyId)
  · exact fun keyId => ⟨(hw keyId).1, fun p hp hkey hne => (hw keyId).2 p hp hkey (hremoved hne)⟩

/-- A ciphertext is made under a key in the cache. -/
theorem caches_reads_encrypt (hciphers : env.ciphers.Invertible) {w : World}
    (hw : w.manager.Caches (w.Reads env)) (data : Json) (iv : List UInt8) :
    (w.after env (.encrypt data iv)).manager.Caches
      ((w.after env (.encrypt data iv)).Reads env) := by
  simp only [World.after]
  cases hencrypted : encrypt env w.manager data iv with
  | error e => exact hw
  | ok encrypted =>
    intro keyId
    refine ⟨(hw keyId).1, fun p hp hkey hne => ?_⟩
    rcases List.mem_cons.mp hp with rfl | hp
    · obtain ⟨config, hactive⟩ := exists_activeKey_of_encrypt hencrypted
      have hcached := keysCache_activeKey (fun keyId => (hw keyId).1) hactive
      rw [← keyId_encrypt hactive hencrypted, hkey] at hcached
      exact ⟨config, hcached, decipher_encrypt hciphers hactive hencrypted⟩
    · exact (hw keyId).2 p hp hkey hne

/-- A new manager has an empty cache. -/
theorem keysCache_restart (w : World) (now : ℕ) :
    (w.after env (.restart now)).manager.keysCache = fun _ => none :=
  keysCache_initializeManager now _

theorem caches_reads_restart {w : World} {now : ℕ} (hspares : Event.Spares w (.restart now)) :
    (w.after env (.restart now)).manager.Caches ((w.after env (.restart now)).Reads env) := by
  intro keyId
  rw [keysCache_restart]
  refine ⟨fun _ h => (Option.not_mem_none _ h).elim, fun p hp hkey hne => ?_⟩
  exact absurd ⟨hkey ▸ hne, p, hp, rfl⟩ (hspares p hp)

theorem caches_reads_after (hciphers : env.ciphers.Invertible) {w : World}
    (hw : w.manager.Caches (w.Reads env)) {e : Event} (hspares : e.Spares w) :
    (w.after env e).manager.Caches ((w.after env e).Reads env) := by
  cases e with
  | call c => exact caches_reads_call hw hspares
  | encrypt data iv => exact caches_reads_encrypt hciphers hw data iv
  | restart now => exact caches_reads_restart hspares

/-! ## Runs -/

/-- **In every run in which no key in use is lost from the cache, every ciphertext whose key was not
removed is decrypted to the text it was made from.** -/
theorem readable_of_run (hciphers : env.ciphers.Invertible)
    {redis : Redis.Store EncryptionKeyConfig} {es : List Event} {w : World}
    (hspares : (system env).StepsMeet Event.Spares (World.init redis) es)
    (hrun : (system env).runFrom (World.init redis) es = some w) : w.Readable env := by
  have hreads : w.manager.Caches (w.Reads env) := by
    refine System.invariant_of_stepsMeet (I := fun w : World => w.manager.Caches (w.Reads env))
      (fun w e w' hw he hstep => ?_) (fun keyId => ?_) hspares hrun
    · obtain rfl : w.after env e = w' := by simpa [system] using hstep
      exact caches_reads_after hciphers hw he
    · simp [World.Reads, World.init]
  intro p hp hne
  obtain ⟨config, hcached, hdecipher⟩ := (hreads p.1.keyId).2 p hp rfl hne
  rw [decryptToPlaintext_eq hcached, hdecipher]

/-- **A restart leaves no ciphertext readable.** -/
theorem not_readable_restart {w : World} {p : EncryptedData × String} (hp : p ∈ w.produced)
    (huse : w.InUse p.1.keyId) (now : ℕ) : ¬ (w.after env (.restart now)).Readable env := by
  intro hreadable
  have hp' := hreadable p hp huse.1
  simp [decryptToPlaintext, keysCache_restart] at hp'

/-- A text encrypted, and the key rotated. -/
def encryptThenRotate : List Event :=
  [.call (.rotateKey (sampleKey "key-1" .aes256Gcm)),
    .encrypt (.str "hello") (List.replicate 16 0),
    .call (.rotateKey (sampleKey "key-2" .aes256Cbc))]

/-- The text is still readable. -/
theorem readable_encryptThenRotate :
    ∃ w, (system sampleSetting).runFrom (World.init .empty) encryptThenRotate = some w ∧
      w.produced.length = 1 ∧ w.Readable sampleSetting := by
  obtain ⟨w, hrun, hproduced⟩ :
      ∃ w ∈ (system sampleSetting).runFrom (World.init .empty) encryptThenRotate,
        w.produced.length = 1 := by decide +kernel
  exact ⟨w, hrun, hproduced, readable_of_run invertible_sampleCiphers (by decide +kernel) hrun⟩

/-- After a restart it is not, though its key is still stored. -/
theorem not_readable_encryptThenRestart :
    ∃ w, (system sampleSetting).runFrom (World.init .empty)
          [.call (.rotateKey (sampleKey "key-1" .aes256Gcm)),
            .encrypt (.str "hello") (List.replicate 16 0), .restart 0] = some w ∧
      w.removed = [] ∧ ¬ w.Readable sampleSetting := by
  obtain ⟨w, hrun, hremoved, hreadable⟩ :
      ∃ w ∈ (system sampleSetting).runFrom (World.init .empty)
          [.call (.rotateKey (sampleKey "key-1" .aes256Gcm)),
            .encrypt (.str "hello") (List.replicate 16 0), .restart 0],
        w.removed = [] ∧ ¬ w.Readable sampleSetting := by decide +kernel
  exact ⟨w, hrun, hremoved, hreadable⟩

end KitiumJobQueue.Encryption
