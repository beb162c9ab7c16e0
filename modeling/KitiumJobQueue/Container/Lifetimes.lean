import KitiumJobQueue.Container.Basic
import KitiumJobQueue.Foundations.Histories
import KitiumJobQueue.Foundations.Systems

/-!
# The lifetimes of instances

Containers under any sequence of calls, those that factories make while they run included: a
`resolve` that has to make an instance puts a frame on a stack, and the factory of the latest frame
returns or throws. Factories are acyclic: none is called again to make what it is making.

A history without caches says what a `resolve` is to return (`Right`): an instance made by the
factory bound last, and always the same one while that binding is in force, unless it is transient.
The containers keep the instance with the key and not with the binding, and `always_right_of_run`
says in which runs that makes no difference.
-/

namespace KitiumJobQueue.Container

variable {F : Type}

/-! ## Worlds -/

/-- An instance is known by the run of the factory that made it. -/
structure Instance (F : Type) where
  serial : ℕ
  factory : F
  deriving DecidableEq

/-- A `resolve` whose factory runs, and how many instances had been made when it was called. -/
structure Frame (F : Type) where
  container : ℕ
  key : String
  factory : F
  started : ℕ
  deriving DecidableEq

/-- What has happened. A failure without a message is one of the factory. -/
inductive Record (F : Type)
  | bound (container : ℕ) (key : String) (factory : F) (transient : Bool)
  | cleared (container : ℕ)
  | child (container parent : ℕ)
  | returned (container : ℕ) (key : String) (instance_ : Instance F) (started : ℕ)
  | failed (container : ℕ) (key : String) (message : Option String)
  deriving DecidableEq

/-- The containers, the factories that run, the latest first, how many instances were made, and the
history, newest first. -/
structure World (F : Type) where
  containers : List (DIContainer F (Instance F))
  running : List (Frame F) := []
  made : ℕ := 0
  history : List (Record F) := []

/-- A call, or the end of the factory that runs. -/
inductive Event (F : Type)
  | bind (container : ℕ) (key : String) (factory : F) (singleton : Option Bool)
  | bindSingleton (container : ℕ) (key : String) (factory : F)
  | clear (container : ℕ)
  | createChild (container : ℕ)
  | resolve (container : ℕ) (key : String)
  | produce
  | throw
  deriving DecidableEq

namespace World

variable (w : World F)

/-- A container has changed. -/
def update (container : ℕ) (c : DIContainer F (Instance F)) (r : Record F) : World F :=
  { w with containers := w.containers.set container c, history := r :: w.history }

/-- Something has happened that changes no container. -/
def note (r : Record F) : World F := { w with history := r :: w.history }

/-- A factory is called. -/
def push (container : ℕ) (key : String) (factory : F) : World F :=
  { w with running := ⟨container, key, factory, w.made⟩ :: w.running }

/-- The instance that the factory of the frame returns. -/
def product (frame : Frame F) : Instance F := ⟨w.made, frame.factory⟩

/-- The factory of the frame returns. -/
def return_ (frame : Frame F) (rest : List (Frame F)) (c : DIContainer F (Instance F)) :
    World F where
  containers := w.containers.set frame.container (c.keep frame.key (w.product frame))
  running := rest
  made := w.made + 1
  history := .returned frame.container frame.key (w.product frame) frame.started :: w.history

/-- Containers that have just been constructed. -/
def init (F : Type) (count : ℕ) : World F := { containers := List.replicate count {} }

end World

/-- Containers and factories under any sequence of calls. -/
def system [DecidableEq F] : System (World F) (Event F) where
  step w e :=
    match e with
    | .bind container key factory singleton =>
      w.containers[container]?.map fun c =>
        w.update container (c.bind key factory singleton)
          (.bound container key factory (singleton = some false))
    | .bindSingleton container key factory =>
      w.containers[container]?.map fun c =>
        w.update container (c.bindSingleton key factory) (.bound container key factory false)
    | .clear container =>
      w.containers[container]?.map fun c => w.update container c.clear (.cleared container)
    | .createChild container =>
      w.containers[container]?.map fun c =>
        { w with
          containers := w.containers ++ [c.createChild]
          history := .child w.containers.length container :: w.history }
    | .resolve container key =>
      w.containers[container]?.bind fun c =>
        match c.lookup key with
        | .notRegistered message => some (w.note (.failed container key (some message)))
        | .cached instance_ => some (w.note (.returned container key instance_ w.made))
        | .run factory =>
          if ∃ frame ∈ w.running, frame.container = container ∧ frame.key = key ∧
              frame.factory = factory then none
          else some (w.push container key factory)
    | .produce =>
      match w.running with
      | [] => none
      | frame :: rest => w.containers[frame.container]?.map (w.return_ frame rest)
    | .throw =>
      match w.running with
      | [] => none
      | frame :: rest =>
        some { w.note (.failed frame.container frame.key none) with running := rest }

/-! ## What is to be returned -/

/-- A binding: a factory, and whether it was made with `singleton: false`. -/
structure Binding (F : Type) where
  factory : F
  transient : Bool
  deriving DecidableEq

/-- The binding of the key that is in force in the container. A child has those of its parent. -/
def inForce (container : ℕ) (key : String) : List (Record F) → Option (Binding F)
  | [] => none
  | .bound container' key' factory transient :: past =>
    if container' = container ∧ key' = key then some ⟨factory, transient⟩
    else inForce container key past
  | .cleared container' :: past =>
    if container' = container then none else inForce container key past
  | .child container' parent :: past =>
    if container' = container then inForce parent key past else inForce container key past
  | .returned _ _ _ _ :: past | .failed _ _ _ :: past => inForce container key past

/-- What was returned for the key since the binding that is in force was made. -/
def returnedSince (container : ℕ) (key : String) : List (Record F) → List (Instance F)
  | [] => []
  | .bound container' key' _ _ :: past =>
    if container' = container ∧ key' = key then [] else returnedSince container key past
  | .cleared container' :: past | .child container' _ :: past =>
    if container' = container then [] else returnedSince container key past
  | .returned container' key' instance_ _ :: past =>
    if container' = container ∧ key' = key then instance_ :: returnedSince container key past
    else returnedSince container key past
  | .failed _ _ _ :: past => returnedSince container key past

/-- What is returned was made by the factory in force: for a transient binding after `resolve` was
called, for another it is what was returned before. -/
def Right : Record F → List (Record F) → Prop
  | .returned container key instance_ started, past =>
    ∃ b, inForce container key past = some b ∧ instance_.factory = b.factory ∧
      if b.transient then started ≤ instance_.serial
      else ∀ earlier ∈ returnedSince container key past, earlier = instance_
  | .bound _ _ _ _, _ | .cleared _, _ | .child _ _, _ | .failed _ _ _, _ => True

/-! ## The condition -/

/-- The key is bound to what its factory that runs has been, and, other than with
`singleton: false`, to what its cached instance was made by. -/
def CarefulBind (w : World F) (container : ℕ) (key : String) (factory : F)
    (singleton : Option Bool) : Prop :=
  (∀ frame ∈ w.running, frame.container = container → frame.key = key →
      frame.factory = factory) ∧
    (singleton ≠ some false → ∀ c ∈ w.containers[container]?, ∀ i ∈ c.singletons.get key,
      i.factory = factory)

/-- Rebinding finds no instance of another factory, a transient binding is resolved while no
instance is cached, and no container is cleared while one of its factories runs. -/
def Careful (w : World F) : Event F → Prop
  | .bind container key factory singleton => CarefulBind w container key factory singleton
  | .bindSingleton container key factory => CarefulBind w container key factory (some true)
  | .clear container => ∀ frame ∈ w.running, frame.container ≠ container
  | .resolve container key => ∀ b ∈ inForce container key w.history, b.transient = true →
      ∀ c ∈ w.containers[container]?, c.singletons.get key = none
  | .createChild _ | .produce | .throw => True

instance [DecidableEq F] (w : World F) (container : ℕ) (key : String) (factory : F)
    (singleton : Option Bool) : Decidable (CarefulBind w container key factory singleton) :=
  inferInstanceAs (Decidable (_ ∧ _))

instance [DecidableEq F] (w : World F) : (e : Event F) → Decidable (Careful w e)
  | .bind container key factory singleton =>
    inferInstanceAs (Decidable (CarefulBind w container key factory singleton))
  | .bindSingleton container key factory =>
    inferInstanceAs (Decidable (CarefulBind w container key factory (some true)))
  | .clear container =>
    inferInstanceAs (Decidable (∀ frame ∈ w.running, frame.container ≠ container))
  | .resolve container key =>
    inferInstanceAs (Decidable (∀ b ∈ inForce container key w.history, b.transient = true →
      ∀ c ∈ w.containers[container]?, c.singletons.get key = none))
  | .createChild _ | .produce | .throw => inferInstanceAs (Decidable True)

/-! ## One key of one container -/

/-- A record that is about another container or another key. -/
def Record.Elsewhere (container : ℕ) (key : String) : Record F → Prop
  | .bound container' key' _ _ | .returned container' key' _ _ =>
    ¬ (container' = container ∧ key' = key)
  | .cleared container' | .child container' _ => container' ≠ container
  | .failed _ _ _ => True

section Cell

variable {container : ℕ} {key : String} {c c' : DIContainer F (Instance F)}
  {past : List (Record F)} {r : Record F}

theorem inForce_cons_of_elsewhere (h : r.Elsewhere container key) :
    inForce container key (r :: past) = inForce container key past := by
  cases r with
  | bound | cleared | child => rw [inForce, if_neg h]
  | returned | failed => rw [inForce]

theorem returnedSince_cons_of_elsewhere (h : r.Elsewhere container key) :
    returnedSince container key (r :: past) = returnedSince container key past := by
  cases r with
  | bound | returned | cleared | child => rw [returnedSince, if_neg h]
  | failed => rw [returnedSince]

/-- What a container has under a key agrees with the history: the factory in force, and as cached
instance, unless the binding is transient, the one that was returned. -/
structure Cell (c : DIContainer F (Instance F)) (container : ℕ) (key : String)
    (past : List (Record F)) : Prop where
  bound : c.bindings.get key = (inForce container key past).map Binding.factory
  cached : ∀ i, c.singletons.get key = some i → ∃ b, inForce container key past = some b ∧
    i.factory = b.factory ∧
      (b.transient = false → ∀ earlier ∈ returnedSince container key past, earlier = i)
  uncached : c.singletons.get key = none → ∀ b, inForce container key past = some b →
    b.transient = false → returnedSince container key past = []

namespace Cell

theorem elsewhere (h : Cell c container key past) (hr : r.Elsewhere container key)
    (hbindings : c'.bindings.get key = c.bindings.get key)
    (hsingletons : c'.singletons.get key = c.singletons.get key) :
    Cell c' container key (r :: past) := by
  refine ⟨?_, ?_, ?_⟩
  · rw [hbindings, inForce_cons_of_elsewhere hr]
    exact h.bound
  · rw [hsingletons, inForce_cons_of_elsewhere hr, returnedSince_cons_of_elsewhere hr]
    exact h.cached
  · rw [hsingletons, inForce_cons_of_elsewhere hr, returnedSince_cons_of_elsewhere hr]
    exact h.uncached

theorem bind (container : ℕ) (past : List (Record F)) {factory : F} {singleton : Option Bool}
    (hcached : singleton ≠ some false → ∀ i ∈ c.singletons.get key, i.factory = factory) :
    Cell (c.bind key factory singleton) container key
      (.bound container key factory (singleton = some false) :: past) := by
  have hforce : inForce container key
      (.bound container key factory (singleton = some false) :: past) =
      some ⟨factory, singleton = some false⟩ := by
    rw [inForce, if_pos ⟨rfl, rfl⟩]
  have hreturned : returnedSince container key
      (.bound container key factory (singleton = some false) :: past) = [] := by
    rw [returnedSince, if_pos ⟨rfl, rfl⟩]
  refine ⟨?_, fun i hi => ?_, fun _ _ _ _ => hreturned⟩
  · rw [DIContainer.get_bindings_bind, if_pos rfl, hforce]
    rfl
  · rw [DIContainer.get_singletons_bind] at hi
    split at hi
    · exact absurd hi (Option.some_ne_none i).symm
    · next hne =>
      refine ⟨_, hforce, hcached (fun hfalse => hne ⟨rfl, hfalse⟩) i hi, fun _ => ?_⟩
      rw [hreturned]
      exact fun earlier hmem => absurd hmem List.not_mem_nil

theorem clear (c : DIContainer F (Instance F)) (container : ℕ) (key : String)
    (past : List (Record F)) : Cell c.clear container key (.cleared container :: past) := by
  refine ⟨?_, fun i hi => absurd hi (Option.some_ne_none i).symm, fun _ _ _ _ => ?_⟩
  · rw [inForce, if_pos rfl]
    rfl
  · rw [returnedSince, if_pos rfl]

theorem createChild {parent : ℕ} (h : Cell c parent key past) :
    Cell c.createChild container key (.child container parent :: past) := by
  refine ⟨?_, fun i hi => ?_, fun _ _ _ _ => ?_⟩
  · rw [DIContainer.get_bindings_createChild, inForce, if_pos rfl]
    exact h.bound
  · rw [DIContainer.singletons_createChild] at hi
    exact absurd hi (Option.some_ne_none i).symm
  · rw [returnedSince, if_pos rfl]

/-- The instance that is cached is returned again. -/
theorem cachedReturned (h : Cell c container key past) {i : Instance F} (started : ℕ)
    (hi : c.singletons.get key = some i) :
    Cell c container key (.returned container key i started :: past) := by
  refine ⟨h.bound, fun i' hi' => ?_, fun hnone => absurd (hnone.symm.trans hi)
    (Option.some_ne_none i).symm⟩
  obtain rfl : i = i' := Option.some.inj (hi.symm.trans hi')
  obtain ⟨b, hb, hfactory, hearlier⟩ := h.cached i hi
  refine ⟨b, hb, hfactory, fun htransient => ?_⟩
  rw [returnedSince, if_pos ⟨rfl, rfl⟩, List.forall_mem_cons]
  exact ⟨rfl, hearlier htransient⟩

/-- The first instance of a binding is cached and returned. -/
theorem keep (h : Cell c container key past) {i : Instance F} (started : ℕ) {b : Binding F}
    (hb : inForce container key past = some b) (hfactory : i.factory = b.factory)
    (hnone : c.singletons.get key = none) :
    Cell (c.keep key i) container key (.returned container key i started :: past) := by
  have hget : (c.keep key i).singletons.get key = some i := by
    rw [DIContainer.get_singletons_keep, if_pos rfl]
  refine ⟨h.bound, fun i' hi' => ?_, fun hnone' => absurd (hnone'.symm.trans hget)
    (Option.some_ne_none i).symm⟩
  obtain rfl : i = i' := Option.some.inj (hget.symm.trans hi')
  refine ⟨b, hb, hfactory, fun htransient => ?_⟩
  rw [returnedSince, if_pos ⟨rfl, rfl⟩, h.uncached hnone b hb htransient]
  simp

end Cell

end Cell

/-! ## Runs -/

section Runs

variable {w w' : World F}

/-- The state of a frame: its key is bound to its factory, and nothing is cached under it yet. -/
structure Live (w : World F) (frame : Frame F) : Prop where
  started : frame.started ≤ w.made
  uncached : ∃ c, w.containers[frame.container]? = some c ∧ c.singletons.get frame.key = none
  bound : ∃ b, inForce frame.container frame.key w.history = some b ∧ b.factory = frame.factory

/-- The two frames are for different keys or containers. -/
def Frame.Apart (a b : Frame F) : Prop := ¬ (a.container = b.container ∧ a.key = b.key)

/-- Every key of every container agrees with the history, the frames are live and about different
keys, and all returns so far were right. -/
structure Sound (w : World F) : Prop where
  cell : ∀ container c key, w.containers[container]? = some c →
    Cell c container key w.history
  live : ∀ frame ∈ w.running, Live w frame
  apart : w.running.Pairwise Frame.Apart
  right : History.Always Right w.history

theorem sound_init (count : ℕ) : Sound (World.init F count) where
  cell container c key hc := by
    have hc : (List.replicate count ({} : DIContainer F (Instance F)))[container]? = some c := hc
    obtain rfl := List.eq_of_mem_replicate (List.mem_of_getElem? hc)
    exact ⟨rfl, fun i hi => absurd hi (Option.some_ne_none i).symm, fun _ _ _ _ => rfl⟩
  live _ hmem := absurd hmem List.not_mem_nil
  apart := List.Pairwise.nil
  right := trivial

/-- A frame stays live where its key stays bound to its factory, with nothing cached. -/
theorem Live.mono {frame : Frame F} (h : Live w frame) (hmade : w.made ≤ w'.made)
    (huncached : ∀ c, w.containers[frame.container]? = some c →
      c.singletons.get frame.key = none →
        ∃ c', w'.containers[frame.container]? = some c' ∧ c'.singletons.get frame.key = none)
    (hbound : inForce frame.container frame.key w'.history =
        inForce frame.container frame.key w.history ∨
      ∃ b, inForce frame.container frame.key w'.history = some b ∧ b.factory = frame.factory) :
    Live w' frame := by
  obtain ⟨hstarted, ⟨c, hc, hnone⟩, b, hb, hfactory⟩ := h
  refine ⟨hstarted.trans hmade, huncached c hc hnone, ?_⟩
  rcases hbound with hsame | hb'
  · exact ⟨b, hsame.trans hb, hfactory⟩
  · exact hb'

/-- Where one container changes, another is as before. -/
theorem getElem?_update {container other : ℕ} {c c₁ : DIContainer F (Instance F)} {r : Record F}
    (h : (w.update container c r).containers[other]? = some c₁) :
    other = container ∧ c₁ = c ∨ other ≠ container ∧ w.containers[other]? = some c₁ := by
  have h : (w.containers.set container c)[other]? = some c₁ := h
  rw [List.getElem?_set] at h
  split at h
  · next heq =>
    split at h
    · exact .inl ⟨heq.symm, (Option.some.inj h).symm⟩
    · exact absurd h (Option.some_ne_none c₁).symm
  · next hne => exact .inr ⟨Ne.symm hne, h⟩

/-- What a changed container does not cache is not cached. -/
theorem uncached_update {container other : ℕ} {key : String}
    {c c' : DIContainer F (Instance F)} {r : Record F} (hc : w.containers[container]? = some c)
    (hc' : other = container → c.singletons.get key = none → c'.singletons.get key = none)
    {c₁ : DIContainer F (Instance F)} (h₁ : w.containers[other]? = some c₁)
    (hnone : c₁.singletons.get key = none) :
    ∃ c₂, (w.update container c' r).containers[other]? = some c₂ ∧
      c₂.singletons.get key = none := by
  have hlt := (List.getElem?_eq_some_iff.mp hc).1
  change ∃ c₂, (w.containers.set container c')[other]? = some c₂ ∧ _
  rw [List.getElem?_set]
  by_cases heq : container = other
  · subst heq
    obtain rfl : c = c₁ := Option.some.inj (hc.symm.trans h₁)
    exact ⟨c', by rw [if_pos rfl, if_pos hlt], hc' rfl hnone⟩
  · exact ⟨c₁, by rw [if_neg heq, h₁], hnone⟩

theorem sound_bind (hw : Sound w) {container : ℕ} {key : String} {factory : F}
    {singleton : Option Bool} {c : DIContainer F (Instance F)}
    (hc : w.containers[container]? = some c)
    (hcareful : CarefulBind w container key factory singleton) :
    Sound (w.update container (c.bind key factory singleton)
      (.bound container key factory (singleton = some false))) := by
  obtain ⟨hrunning, hcached⟩ := hcareful
  refine ⟨fun other c₁ k hc₁ => ?_, fun frame hframe => ?_, hw.apart, trivial, hw.right⟩
  · rcases getElem?_update hc₁ with ⟨rfl, rfl⟩ | ⟨hne, hc₁⟩
    · by_cases hk : k = key
      · subst hk
        exact Cell.bind other w.history fun hfalse => hcached hfalse c hc
      · refine (hw.cell other c k hc).elsewhere (fun h => hk h.2.symm) ?_ ?_
        · rw [DIContainer.get_bindings_bind, if_neg hk]
        · rw [DIContainer.get_singletons_bind, if_neg fun h => hk h.1]
    · exact (hw.cell other c₁ k hc₁).elsewhere (fun h => hne h.1.symm) rfl rfl
  · refine (hw.live frame hframe).mono (Nat.le_refl _) (fun c₁ h₁ hnone => ?_) ?_
    · refine uncached_update hc (fun _ hnone => ?_) h₁ hnone
      rw [DIContainer.get_singletons_bind]
      split
      · rfl
      · exact hnone
    · by_cases heq : container = frame.container ∧ key = frame.key
      · refine .inr ⟨⟨factory, singleton = some false⟩, ?_, ?_⟩
        · exact if_pos heq
        · exact (hrunning frame hframe heq.1.symm heq.2.symm).symm
      · exact .inl (if_neg heq)

theorem sound_clear (hw : Sound w) {container : ℕ} {c : DIContainer F (Instance F)}
    (hc : w.containers[container]? = some c)
    (hcareful : ∀ frame ∈ w.running, frame.container ≠ container) :
    Sound (w.update container c.clear (.cleared container)) := by
  refine ⟨fun other c₁ k hc₁ => ?_, fun frame hframe => ?_, hw.apart, trivial, hw.right⟩
  · rcases getElem?_update hc₁ with ⟨rfl, rfl⟩ | ⟨hne, hc₁⟩
    · exact Cell.clear c other k w.history
    · exact (hw.cell other c₁ k hc₁).elsewhere (Ne.symm hne) rfl rfl
  · have hne := hcareful frame hframe
    refine (hw.live frame hframe).mono (Nat.le_refl _) (fun c₁ h₁ hnone => ?_) ?_
    · exact uncached_update hc (fun heq => absurd heq hne) h₁ hnone
    · exact .inl (inForce_cons_of_elsewhere (Ne.symm hne))

theorem sound_createChild (hw : Sound w) {container : ℕ} {c : DIContainer F (Instance F)}
    (hc : w.containers[container]? = some c) :
    Sound { w with
      containers := w.containers ++ [c.createChild]
      history := .child w.containers.length container :: w.history } := by
  have hnew : ∀ other, w.containers.length ≠ other → ∀ k,
      (Record.child w.containers.length container : Record F).Elsewhere other k :=
    fun other hne _ => hne
  refine ⟨fun other c₁ k hc₁ => ?_, fun frame hframe => ?_, hw.apart, trivial, hw.right⟩
  · have hc₁ : (w.containers ++ [c.createChild])[other]? = some c₁ := hc₁
    rcases Nat.lt_or_ge other w.containers.length with hlt | hge
    · rw [List.getElem?_append_left hlt] at hc₁
      exact (hw.cell other c₁ k hc₁).elsewhere (hnew other (Nat.ne_of_gt hlt) k) rfl rfl
    · have hlt := (List.getElem?_eq_some_iff.mp hc₁).1
      rw [List.length_append, List.length_singleton] at hlt
      obtain rfl : w.containers.length = other := Nat.le_antisymm hge (Nat.le_of_lt_succ hlt)
      rw [List.getElem?_concat_length] at hc₁
      cases hc₁
      exact (hw.cell container c k hc).createChild
  · refine (hw.live frame hframe).mono (Nat.le_refl _) (fun c₁ h₁ hnone => ?_) ?_
    · exact ⟨c₁, (List.getElem?_append_left (List.getElem?_eq_some_iff.mp h₁).1).trans h₁, hnone⟩
    · obtain ⟨c₁, h₁, -⟩ := (hw.live frame hframe).uncached
      have hlt := (List.getElem?_eq_some_iff.mp h₁).1
      exact .inl (inForce_cons_of_elsewhere (hnew _ (Nat.ne_of_gt hlt) _))

theorem sound_failed (hw : Sound w) (container : ℕ) (key : String) (message : Option String) :
    Sound (w.note (.failed container key message)) where
  cell other c k hc := (hw.cell other c k hc).elsewhere trivial rfl rfl
  live frame hframe := (hw.live frame hframe).mono (Nat.le_refl _)
    (fun c hc hnone => ⟨c, hc, hnone⟩) (.inl rfl)
  apart := hw.apart
  right := ⟨trivial, hw.right⟩

/-- A cached instance is returned. -/
theorem sound_returned (hw : Sound w) {container : ℕ} {key : String} {i : Instance F}
    {c : DIContainer F (Instance F)} (hc : w.containers[container]? = some c)
    (hi : c.singletons.get key = some i)
    (hcareful : ∀ b ∈ inForce container key w.history, b.transient = true →
      ∀ c ∈ w.containers[container]?, c.singletons.get key = none) :
    Sound (w.note (.returned container key i w.made)) := by
  refine ⟨fun other c₁ k hc₁ => ?_, fun frame hframe => ?_, hw.apart, ?_, hw.right⟩
  · by_cases heq : container = other ∧ key = k
    · obtain ⟨rfl, rfl⟩ := heq
      obtain rfl : c = c₁ := Option.some.inj (hc.symm.trans hc₁)
      exact (hw.cell container c key hc).cachedReturned w.made hi
    · exact (hw.cell other c₁ k hc₁).elsewhere heq rfl rfl
  · exact (hw.live frame hframe).mono (Nat.le_refl _) (fun c hc hnone => ⟨c, hc, hnone⟩)
      (.inl rfl)
  · obtain ⟨b, hb, hfactory, hearlier⟩ := (hw.cell container c key hc).cached i hi
    refine ⟨b, hb, hfactory, ?_⟩
    split
    · next htransient =>
      have hnone := hcareful b hb htransient c hc
      exact absurd (hnone.symm.trans hi) (Option.some_ne_none i).symm
    · next htransient => exact hearlier (Bool.eq_false_iff.mpr htransient)

/-- A factory is called for a key that none runs for. -/
theorem sound_push (hw : Sound w) {container : ℕ} {key : String} {factory : F}
    {c : DIContainer F (Instance F)} (hc : w.containers[container]? = some c)
    (hfactory : c.bindings.get key = some factory) (hnone : c.singletons.get key = none)
    (hacyclic : ¬ ∃ frame ∈ w.running, frame.container = container ∧ frame.key = key ∧
      frame.factory = factory) :
    Sound (w.push container key factory) := by
  have hbound := (hw.cell container c key hc).bound
  rw [hfactory, eq_comm, Option.map_eq_some_iff] at hbound
  refine ⟨hw.cell, fun frame hframe => ?_, List.pairwise_cons.mpr ⟨?_, hw.apart⟩, hw.right⟩
  · rcases List.mem_cons.mp hframe with rfl | hframe
    · exact ⟨Nat.le_refl _, ⟨c, hc, hnone⟩, hbound⟩
    · obtain ⟨hstarted, huncached, hframeBound⟩ := hw.live frame hframe
      exact ⟨hstarted, huncached, hframeBound⟩
  · rintro frame hframe ⟨rfl, rfl⟩
    obtain ⟨b, hb, rfl⟩ := hbound
    obtain ⟨b', hb', hfactory'⟩ := (hw.live frame hframe).bound
    obtain rfl : b = b' := Option.some.inj (hb.symm.trans hb')
    exact hacyclic ⟨frame, hframe, rfl, rfl, hfactory'.symm⟩

/-- A factory returns: its instance is cached and returned. -/
theorem sound_return (hw : Sound w) {frame : Frame F} {rest : List (Frame F)}
    {c : DIContainer F (Instance F)} (hrunning : w.running = frame :: rest)
    (hc : w.containers[frame.container]? = some c) : Sound (w.return_ frame rest c) := by
  obtain ⟨hstarted, ⟨c₀, hc₀, hnone⟩, b, hb, hfactory⟩ :=
    hw.live frame (hrunning ▸ List.mem_cons_self)
  obtain rfl : c = c₀ := Option.some.inj (hc.symm.trans hc₀)
  have hapart := hw.apart
  rw [hrunning, List.pairwise_cons] at hapart
  have hcells := hw.cell
  refine ⟨fun other c₁ k hc₁ => ?_, fun frame' hframe' => ?_, hapart.2, ?_, hw.right⟩
  · rcases getElem?_update (r := .failed 0 "" none) hc₁ with ⟨rfl, rfl⟩ | ⟨hne, hc₁⟩
    · by_cases hk : k = frame.key
      · subst hk
        exact (hcells frame.container c frame.key hc).keep frame.started hb hfactory.symm hnone
      · refine (hcells frame.container c k hc).elsewhere (fun h => hk h.2.symm) rfl ?_
        rw [DIContainer.get_singletons_keep, if_neg hk]
    · exact (hcells other c₁ k hc₁).elsewhere (fun h => hne h.1.symm) rfl rfl
  · have hlive := hw.live frame' (hrunning ▸ List.mem_cons_of_mem frame hframe')
    have hother := hapart.1 frame' hframe'
    refine hlive.mono (Nat.le_succ _) (fun c₁ h₁ hnone' => ?_) ?_
    · refine uncached_update (r := .failed 0 "" none) hc (fun heq hnone => ?_) h₁ hnone'
      rw [DIContainer.get_singletons_keep, if_neg fun hk => hother ⟨heq.symm, hk.symm⟩]
      exact hnone
    · exact .inl rfl
  · refine ⟨b, hb, hfactory.symm, ?_⟩
    split
    · exact hstarted
    · next htransient =>
      have hempty := (hcells frame.container c frame.key hc).uncached hnone b hb
        (Bool.eq_false_iff.mpr htransient)
      rw [hempty]
      exact fun earlier hmem => absurd hmem List.not_mem_nil

theorem sound_throw (hw : Sound w) {frame : Frame F} {rest : List (Frame F)}
    (hrunning : w.running = frame :: rest) :
    Sound { w.note (.failed frame.container frame.key none) with running := rest } := by
  have hfailed := sound_failed hw frame.container frame.key none
  have hapart := hw.apart
  rw [hrunning, List.pairwise_cons] at hapart
  refine ⟨hfailed.cell, fun frame' hframe' => ?_, hapart.2, hfailed.right⟩
  obtain ⟨hstarted, huncached, hbound⟩ := hfailed.live frame'
    (hrunning ▸ List.mem_cons_of_mem frame hframe')
  exact ⟨hstarted, huncached, hbound⟩

variable [DecidableEq F] {e : Event F}

theorem sound_step (hw : Sound w) (hcareful : Careful w e) (h : system.step w e = some w') :
    Sound w' := by
  cases e with
  | bind container key factory singleton =>
    obtain ⟨c, hc, rfl⟩ := Option.map_eq_some_iff.mp h
    exact sound_bind hw hc hcareful
  | bindSingleton container key factory =>
    obtain ⟨c, hc, rfl⟩ := Option.map_eq_some_iff.mp h
    exact sound_bind hw hc hcareful
  | clear container =>
    obtain ⟨c, hc, rfl⟩ := Option.map_eq_some_iff.mp h
    exact sound_clear hw hc hcareful
  | createChild container =>
    obtain ⟨c, hc, rfl⟩ := Option.map_eq_some_iff.mp h
    exact sound_createChild hw hc
  | resolve container key =>
    obtain ⟨c, hc, h⟩ := Option.bind_eq_some_iff.mp h
    cases hlookup : c.lookup key with
    | notRegistered message =>
      simp only [hlookup, Option.some.injEq] at h
      exact h ▸ sound_failed hw container key (some message)
    | cached i =>
      simp only [hlookup, Option.some.injEq] at h
      exact h ▸ sound_returned hw hc (DIContainer.lookup_eq_cached hlookup) hcareful
    | run factory =>
      simp only [hlookup] at h
      split at h
      · exact absurd h (Option.some_ne_none w').symm
      · next hacyclic =>
        obtain ⟨hfactory, hnone⟩ := DIContainer.lookup_eq_run hlookup
        exact Option.some.inj h ▸ sound_push hw hc hfactory hnone hacyclic
  | produce =>
    simp only [system] at h
    split at h
    · exact absurd h (Option.some_ne_none w').symm
    · next frame rest hrunning =>
      obtain ⟨c, hc, rfl⟩ := Option.map_eq_some_iff.mp h
      exact sound_return hw hrunning hc
  | throw =>
    simp only [system] at h
    split at h
    · exact absurd h (Option.some_ne_none w').symm
    · next frame rest hrunning => exact Option.some.inj h ▸ sound_throw hw hrunning

/-- **In a run of careful steps every `resolve` returns what it is to return.** -/
theorem always_right_of_run (count : ℕ) (es : List (Event F))
    (hcareful : system.StepsMeet Careful (World.init F count) es)
    (hrun : system.runFrom (World.init F count) es = some w) :
    History.Always Right w.history :=
  (System.invariant_of_stepsMeet (fun _ _ _ hw hc hs => sound_step hw hc hs) (sound_init count)
    hcareful hrun).right

/-- The connection managers, one of them made while the other is, and again in a child. -/
def connections : List (Event String) :=
  [.bindSingleton 0 "RedisConnectionManager" "redis",
    .bindSingleton 0 "QueueConnectionManager" "queue",
    .resolve 0 "QueueConnectionManager", .resolve 0 "RedisConnectionManager", .produce, .produce,
    .createChild 0, .resolve 1 "RedisConnectionManager", .produce,
    .resolve 1 "RedisConnectionManager", .resolve 0 "RedisConnectionManager"]

theorem always_right_connections :
    ∃ w : World String, system.runFrom (World.init String 1) connections = some w ∧
      w.made = 3 ∧ History.Always Right w.history :=
  ⟨_, rfl, rfl, always_right_of_run 1 connections (by decide +kernel) rfl⟩

/-- A service bound with `singleton: false` is made once. -/
theorem not_always_right_transient :
    ¬ ∀ (es : List (Event String)) (w : World String),
      system.runFrom (World.init String 1) es = some w → History.Always Right w.history := by
  intro hclaim
  have hright := (hclaim
    [.bind 0 "JobOptionsBuilder" "builder" (some false), .resolve 0 "JobOptionsBuilder", .produce,
      .resolve 0 "JobOptionsBuilder"] _ rfl).1
  obtain ⟨b, hb, -, hnew⟩ := hright
  cases hb
  exact absurd hnew (by decide)

end Runs

end KitiumJobQueue.Container
