import KitiumJobQueue.Encryption.Overlapping
import KitiumJobQueue.Redis.Serial

/-!
# The manager whose calls do not overlap

`Manager` translates the methods of `EncryptionManager` as computations over the manager and its
Redis, and `Overlapping` as coroutines. Each method, called while no other is under way, does and
returns what the computation does, so what happens to one manager in `Encryption.system` is a run
of the overlapping one (`exists_overlapping_run`).
-/

namespace KitiumJobQueue.Encryption.Overlapping

open Effects JavaScript Redis Redis.Client

/-! ## Methods -/

/-- The Redis of a manager. -/
def home : Home EncryptionKeyConfig Manager where
  get := Manager.redis
  put redis m := m.withRedis redis
  get_put _ _ := rfl

/-- The manager has these fields, and these ciphertexts were made. -/
structure Agrees (produced : List (EncryptedData × String)) (memory : Memory) (m : Manager) :
    Prop where
  activeKeyId : memory.activeKeyId = m.activeKeyId
  keysCache : memory.keysCache = m.keysCache
  produced : memory.produced = produced

variable {env : Setting} {now : ℕ} {produced : List (EncryptedData × String)} {α : Type}

/-- On its own, at the time `now`, the method does what the computation does. -/
abbrev Follows (env : Setting) (now : ℕ) (produced : List (EncryptedData × String))
    (m : Method α) (m' : Async Thrown Manager α) : Prop :=
  Mirrors (serve env.scan) (Matches home env.answers now (Agrees produced))
    (Matches home env.answers now (Agrees produced)) m m'

theorem follows_command {c : Command EncryptionKeyConfig}
    {op : Store EncryptionKeyConfig → Reply c × Store EncryptionKeyConfig}
    (hop : ∀ (answer : Answer Thrown) server,
      serve env.scan ⟨answer, now⟩ c server = (perform answer op).run server) :
    Follows env now produced (ask c) (command env op) :=
  mirrors_command hop fun _ _ _ h => ⟨h.activeKeyId, h.keysCache, h.produced⟩

theorem follows_setCached (keyId : String) (config : Option EncryptionKeyConfig) :
    Follows env now produced (setCached keyId config) (Encryption.setCached keyId config) :=
  mirrors_modify (fun _ => rfl) fun memory m h =>
    { activeKeyId := h.activeKeyId
      keysCache := by
        show Function.update memory.keysCache keyId config =
          Function.update m.keysCache keyId config
        rw [h.keysCache]
      produced := h.produced }

theorem follows_activate (keyId : String) :
    Follows env now produced (activate keyId)
      (.modify fun m => { m with activeKeyId := some keyId }) :=
  mirrors_modify (fun _ => rfl) fun _ _ h => ⟨rfl, h.keysCache, h.produced⟩

theorem follows_addKey (config : EncryptionKeyConfig) :
    Follows env now produced (addKey env config) (Encryption.addKey env config) :=
  .bind (follows_command fun _ _ => rfl) (fun _ => follows_setCached _ _) fun _ _ h => h

theorem follows_retire (keyId : String) (config : EncryptionKeyConfig) :
    Follows env now produced (retire env keyId config) (Encryption.retire env keyId config) :=
  .bind (follows_setCached _ _) (fun _ => follows_addKey _) fun _ _ h => h

theorem follows_deactivateKey (keyId : String) :
    Follows env now produced (deactivateKey env keyId) (Encryption.deactivateKey env keyId) := by
  refine .read_bind fun w m h => ?_
  rw [h.memory.keysCache]
  cases m.keysCache keyId with
  | none => exact ⟨rfl, h⟩
  | some config => exact follows_retire keyId config w m h

theorem follows_retireActive :
    Follows env now produced (retireActive env) (Encryption.retireActive env) := by
  refine .read_bind fun w m h => ?_
  have hactive : w.memory.manager.activeKeyId? = m.activeKeyId? :=
    congrArg (Option.filter (· ≠ "")) h.memory.activeKeyId
  rw [hactive, id_eq]
  cases m.activeKeyId? with
  | none => exact ⟨rfl, h⟩
  | some activeKeyId => exact follows_deactivateKey activeKeyId w m h

theorem follows_rotateKey (newKey : EncryptionKeyConfig) :
    Follows env now produced (rotateKey env newKey) (Encryption.rotateKey env newKey) :=
  .bind follows_retireActive
    (fun _ => .bind (follows_addKey _) (fun _ => follows_activate _) fun _ _ h => h) fun _ _ h => h

/-- The loop, by induction on the keys that are left. -/
theorem follows_readKeys (keys : List String) (configs : List EncryptionKeyConfig) :
    Follows env now produced (readKeys keys configs)
      (Encryption.readKeys env now keys configs) := by
  induction keys generalizing configs with
  | nil => exact .pure configs
  | cons key keys ih => exact .bind (follows_command fun _ _ => rfl) (fun _ => ih _) fun _ _ h => h

theorem follows_getKeys : Follows env now produced (getKeys env) (Encryption.getKeys env now) :=
  .handle
    (.bind (follows_command fun _ _ => rfl) (fun keys => follows_readKeys keys []) fun _ _ h => h)
    fun _ => .pure []

theorem follows_initializeManager :
    Follows env now produced (initializeManager env) (Encryption.initializeManager env now) := by
  refine .handle (.bind follows_getKeys (fun keys => ?_) fun _ _ h => h) fun _ => .pure ()
  cases keys.find? EncryptionKeyConfig.isActive with
  | none => exact .pure ()
  | some active => exact follows_activate active.keyId

theorem follows_removeKey (keyId : String) :
    Follows env now produced (removeKey env keyId) (Encryption.removeKey env keyId) :=
  .bind (follows_command fun _ _ => rfl) (fun _ => follows_setCached _ _) fun _ _ h => h

/-! ## Runs -/

/-- The time at which a call reads keys. -/
def readAt : Call → ℕ
  | .initializeManager now => now
  | .addKey _ | .rotateKey _ | .deactivateKey _ | .removeKey _ => 0

/-- The same call of the overlapping manager. -/
def requestOf : Call → Request
  | .initializeManager _ => .initializeManager
  | .addKey config => .addKey config
  | .rotateKey newKey => .rotateKey newKey
  | .deactivateKey keyId => .deactivateKey keyId
  | .removeKey keyId => .removeKey keyId

theorem follows_method (c : Call) :
    Follows env (readAt c) produced ((requestOf c).method env) (do
      c.method env
      pure .done) := by
  cases c with
  | initializeManager now => exact .bind_pure follows_initializeManager fun _ => Result.done
  | addKey config => exact .bind_pure (follows_addKey config) fun _ => Result.done
  | rotateKey newKey => exact .bind_pure (follows_rotateKey newKey) fun _ => Result.done
  | deactivateKey keyId => exact .bind_pure (follows_deactivateKey keyId) fun _ => Result.done
  | removeKey keyId => exact .bind_pure (follows_removeKey keyId) fun _ => Result.done

/-- The overlapping manager is where the other one is. -/
structure Simulates (w : Encryption.World) (p : World) : Prop where
  agrees : Agrees w.produced p.memory w.manager
  server : p.server = w.manager.redis.server

theorem encrypt_congr {m m' : Manager} (hactive : m.activeKeyId = m'.activeKeyId)
    (hcache : m.keysCache = m'.keysCache) (data : Json) (iv : List UInt8) :
    Encryption.encrypt env m data iv = Encryption.encrypt env m' data iv := by
  simp only [Encryption.encrypt, Manager.activeKeyId?, hactive, hcache]

/-- Every event but a restart is a run of the overlapping manager. -/
theorem exists_run_of_after {w : Encryption.World} {p : World} (h : Simulates w p) {e : Event}
    (he : ∀ now, e ≠ .restart now) :
    ∃ es p', (system env).runFrom p es = some p' ∧ Simulates (w.after env e) p' := by
  cases e with
  | call c =>
    obtain ⟨choices, hmatches⟩ : ∃ choices, Matches home env.answers (readAt c)
        (Agrees w.produced) ⟨p.toShared, choices, []⟩ w.manager :=
      exists_matches h.server h.agrees (readAt c)
    obtain ⟨es, solo, hrun, hsolo⟩ := exists_run_of_mirrors (follows_method c) p hmatches
    rw [Async.run_bind_pure] at hsolo
    exact ⟨_, _, hrun, hsolo.memory, hsolo.server⟩
  | encrypt data iv =>
    have hencrypt : Encryption.encrypt env p.memory.manager data iv =
        Encryption.encrypt env w.manager data iv :=
      encrypt_congr h.agrees.activeKeyId h.agrees.keysCache data iv
    refine ⟨[.spawn (.encrypt data iv)], _, rfl, ?_, ?_⟩
    · show Agrees _ (((encrypt env data iv >>= fun encrypted => pure (.encrypted encrypted) :
        Method Result).advance p.memory).2) _
      rw [encrypt, Coroutine.advance_act_bind_pure]
      simp only [World.after, hencrypt]
      cases Encryption.encrypt env w.manager data iv with
      | ok encrypted =>
        exact ⟨h.agrees.activeKeyId, h.agrees.keysCache, congrArg _ h.agrees.produced⟩
      | error e => exact h.agrees
    · show p.server = (w.record _ _).manager.redis.server
      cases Encryption.encrypt env w.manager data iv with
      | ok encrypted => exact h.server
      | error e => exact h.server
  | restart now => exact absurd rfl (he now)

/-- **Calls one after another.** Whatever happens to one manager while no call overlaps another, the
overlapping manager has a run to the same fields, the same Redis and the same ciphertexts. -/
theorem exists_overlapping_run {redis : Store EncryptionKeyConfig} {es : List Event}
    {w : Encryption.World} (hes : ∀ e ∈ es, ∀ now, e ≠ .restart now)
    (h : (Encryption.system env).runFrom (.init redis) es = some w) :
    ∃ es' p, (system env).runFrom { memory := {}, server := redis } es' = some p ∧
      Simulates w p := by
  have hC : (Encryption.system env).StepsMeet (fun _ e => True ∧ ∀ now, e ≠ .restart now)
      (.init redis) es :=
    (System.stepsMeet_of_forall (fun _ _ => trivial) _ es).and_forall hes
  refine System.exists_run_of_simulation Simulates (fun w p e w' hw he hstep => ?_)
    ⟨⟨rfl, rfl, rfl⟩, rfl⟩ hC h
  obtain rfl := Option.some.inj hstep
  exact exists_run_of_after hw he.2

end KitiumJobQueue.Encryption.Overlapping
