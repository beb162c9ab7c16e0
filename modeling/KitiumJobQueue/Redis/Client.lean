import KitiumJobQueue.Foundations.SharedInvariants
import KitiumJobQueue.Redis.Store

/-!
# Clients of a Redis database

The commands of a client whose methods overlap, and that Redis may reject: a rejected command was
carried out or not. The clock of the client is asked like Redis, but cannot fail.

For such methods there is a simple invariant: every stored value has a property that is known of it
when it is stored, and the client's memory one of its own (`Sound`). Then what is read has that
property too, whatever other methods do in the meantime.
-/

namespace KitiumJobQueue.Redis.Client

open Effects

variable {ε σ V α L : Type}

/-! ## Commands -/

/-- What a client asks of Redis and of its clock. -/
inductive Command (V : Type)
  | get (key : String)
  /-- `SET`, the value being kept for a time or forever -/
  | set (key : String) (value : V) (lifetime : Option ℕ)
  | del (key : String)
  | keys (pattern : String)
  /-- `Date.now()` -/
  | now

/-- What a command is answered with. -/
abbrev Reply {V : Type} : Command V → Type
  | .get _ => Option V
  | .set _ _ _ => Unit
  | .del _ => Unit
  | .keys _ => List String
  | .now => ℕ

/-- What is done on a command. -/
def serve (scan : Scan V) : Serve ε (Store V) (Choice ε) (Reply (V := V))
  | v, .get key, s => (perform v.answer fun s => (s.get v.now key, s)).run s
  | v, .set key value lifetime, s =>
    (perform v.answer fun s => ((), s.set key value (lifetime.map (v.now + ·)))).run s
  | v, .del key, s => (perform v.answer fun s => ((), s.del key)).run s
  | v, .keys pattern, s => (perform v.answer fun s => (s.keys scan v.now pattern, s)).run s
  | v, .now, s => (.ok v.now, s)

/-- A method of a client with the memory `σ`. -/
abbrev Method (ε σ V α : Type) := Coroutine ε σ (Reply (V := V)) α

/-- Send a command and wait for its answer. -/
def ask (c : Command V) : Method ε σ V (Reply c) := .await c

/-! ## What is known of stored values -/

/-- The memory meets `J`, and every value under its key meets `P`. -/
structure Sound (J : σ → Prop) (P : String → V → Prop) (w : Shared σ (Store V)) : Prop where
  memory : J w.memory
  stored : ∀ key e, w.server.lookup key = some e → P key e.value

/-- While others do likewise, the method keeps that so, and what it resolves with meets `Q`. -/
abbrev Safely (scan : Scan V) (J : σ → Prop) (P : String → V → Prop) (Q : α → Prop)
    (m : Method ε σ V α) : Prop :=
  Ensures (serve scan) (Sound J P) (fun _ _ => True) Q m

variable {scan : Scan V} {J : σ → Prop} {P : String → V → Prop}

theorem sound_empty {memory : σ} (h : J memory) : Sound J P ⟨memory, .empty⟩ where
  memory := h
  stored key e he := by cases (Store.lookup_empty key).symm.trans he

theorem safely_set {key : String} {value : V} (hvalue : P key value) (lifetime : Option ℕ) :
    Safely (ε := ε) scan J P (fun _ => True) (ask (.set key value lifetime)) := by
  refine .perform (fun _ _ => rfl) (fun v m s hs => ⟨⟨hs.memory, fun k e he => ?_⟩, .inr trivial⟩)
    fun _ _ _ _ => trivial
  rw [Store.lookup_set] at he
  split at he
  · next hk =>
    obtain rfl := Option.some.inj he
    exact hk ▸ hvalue
  · exact hs.stored k e he

theorem safely_del (key : String) :
    Safely (ε := ε) scan J P (fun _ => True) (ask (.del key)) := by
  refine .perform (fun _ _ => rfl) (fun v m s hs => ⟨⟨hs.memory, fun k e he => ?_⟩, .inr trivial⟩)
    fun _ _ _ _ => trivial
  rw [Store.lookup_del] at he
  split at he
  · cases he
  · exact hs.stored k e he

theorem safely_get (key : String) :
    Safely (ε := ε) scan J P (fun data => ∀ value ∈ data, P key value) (ask (.get key)) := by
  refine .reading (fun v s => s.get v.now key) (fun _ _ => rfl) fun v m s hs value hvalue => ?_
  obtain ⟨e, he, -, rfl⟩ := Store.get_eq_some.mp hvalue
  exact hs.stored key e he

theorem safely_keys (pattern : String) :
    Safely (ε := ε) scan J P (fun keys => keys.Nodup ∧ ∀ key ∈ keys, KeyMatches pattern key)
      (ask (.keys pattern)) :=
  .reading (fun v s => s.keys scan v.now pattern) (fun _ _ => rfl)
    fun v _ s _ => ⟨Store.nodup_keys s v.now pattern, fun _ hkey => (Store.mem_keys.mp hkey).2⟩

theorem safely_now : Safely (ε := ε) scan J P (fun _ => True) (ask .now) :=
  .await fun _ _ _ hs => ⟨⟨hs, .inl rfl⟩, fun _ _ => trivial⟩

theorem safely_modify {f : σ → σ} (hf : ∀ memory, J memory → J (f memory)) :
    Safely (ε := ε) scan J P (fun _ => True) (.modify f) :=
  .modify (fun _ _ hs => ⟨hf _ hs.memory, hs.stored⟩) trivial

/-- The methods of a run that starts with nothing stored. -/
theorem safely_run {code : L → Method ε σ V α} {called : L → Prop} {Q : L → α → Prop}
    (hcode : ∀ l, called l → Safely scan J P (Q l) (code l)) {memory : σ} (hmemory : J memory)
    {es : List (PoolEvent L (Choice ε))} (hes : ∀ l, .spawn l ∈ es → called l)
    {p : Pool ε σ (Store V) (Reply (V := V)) L α}
    (h : (Pool.system (serve scan) code).runFrom ⟨⟨memory, .empty⟩, []⟩ es = some p) :
    Sound J P p.toShared ∧ ∀ t ∈ p.threads, ∀ a, t.stage = .settled (.ok a) → Q t.label a :=
  ensures_of_run (U := fun _ _ _ => True) hcode (sound_empty hmemory) hes h

end KitiumJobQueue.Redis.Client
