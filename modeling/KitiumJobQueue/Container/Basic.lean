import KitiumJobQueue.Foundations.InsertionMaps
import Mathlib.Data.Nat.Notation

/-!
# The container

`DIContainer`, method by method: a map of factories and a map of the instances made so far.
`resolve` runs a factory in its middle, so it appears in two parts: `lookup`, up to the call of the
factory, and `keep`, from its return. Factories and instances are of any type; the container only
passes them on.
-/

namespace KitiumJobQueue.Container

/-- The two maps of a container. -/
structure DIContainer (F I : Type) where
  bindings : InsertionMap String F := .empty
  singletons : InsertionMap String I := .empty

/-- What `resolve` has found before it calls a factory. -/
inductive Lookup (F I : Type)
  | notRegistered (message : String)
  | cached (instance_ : I)
  | run (factory : F)

namespace DIContainer

variable {F I : Type} (c : DIContainer F I)

/-- `DIContainer.bind`; the last argument is `options?.singleton`. -/
def bind (key : String) (factory : F) (singleton : Option Bool) : DIContainer F I where
  bindings := c.bindings.set key factory
  singletons := if singleton = some false then c.singletons.delete key else c.singletons

/-- `DIContainer.bindSingleton` -/
def bindSingleton (key : String) (factory : F) : DIContainer F I := c.bind key factory (some true)

/-- The error of `resolve` for a key that is not bound. -/
def notRegistered (key : String) : String :=
  "Service not registered: " ++ key ++ ". Available services: " ++
    ", ".intercalate c.bindings.keys

/-- `DIContainer.resolve`, up to the call of the factory. -/
def lookup (key : String) : Lookup F I :=
  match c.bindings.get key with
  | none => .notRegistered (c.notRegistered key)
  | some factory =>
    match c.singletons.get key with
    | some instance_ => .cached instance_
    | none => .run factory

/-- `DIContainer.resolve`, from the return of the factory. -/
def keep (key : String) (instance_ : I) : DIContainer F I :=
  { c with singletons := c.singletons.set key instance_ }

/-- `DIContainer.clear` -/
def clear (_ : DIContainer F I) : DIContainer F I := {}

/-- `DIContainer.createChild` -/
def createChild : DIContainer F I :=
  c.bindings.entries.foldl (fun child e => child.bind e.1 e.2 none) {}

/-! ## What the methods do to the maps -/

variable {c}

@[simp] theorem get_bindings_bind (key : String) (factory : F) (singleton : Option Bool)
    (k : String) : (c.bind key factory singleton).bindings.get k =
      if k = key then some factory else c.bindings.get k :=
  InsertionMap.get_set _ _ _ _

theorem get_singletons_bind (key : String) (factory : F) (singleton : Option Bool) (k : String) :
    (c.bind key factory singleton).singletons.get k =
      if k = key ∧ singleton = some false then none else c.singletons.get k := by
  unfold bind
  simp only
  split
  · next h => simp [h, InsertionMap.get_delete]
  · next h => simp [h]

@[simp] theorem bindings_keep (key : String) (instance_ : I) :
    (c.keep key instance_).bindings = c.bindings := rfl

@[simp] theorem get_singletons_keep (key : String) (instance_ : I) (k : String) :
    (c.keep key instance_).singletons.get k =
      if k = key then some instance_ else c.singletons.get k :=
  InsertionMap.get_set _ _ _ _

theorem lookup_eq_cached {key : String} {instance_ : I} (h : c.lookup key = .cached instance_) :
    c.singletons.get key = some instance_ := by
  unfold lookup at h
  cases hf : c.bindings.get key with
  | none => simp [hf] at h
  | some factory =>
    cases hi : c.singletons.get key with
    | none => simp [hf, hi] at h
    | some i =>
      simp only [hf, hi, Lookup.cached.injEq] at h
      rw [h]

theorem lookup_eq_run {key : String} {factory : F} (h : c.lookup key = .run factory) :
    c.bindings.get key = some factory ∧ c.singletons.get key = none := by
  unfold lookup at h
  cases hf : c.bindings.get key with
  | none => simp [hf] at h
  | some f =>
    cases hi : c.singletons.get key with
    | some i => simp [hf, hi] at h
    | none =>
      simp only [hf, hi, Lookup.run.injEq] at h
      exact ⟨congrArg some h, rfl⟩

/-- Binding distinct keys one after another binds each to its factory. -/
theorem foldl_bind {entries : List (String × F)} (hnodup : (entries.map Prod.fst).Nodup)
    (child : DIContainer F I) (k : String) :
    let bound := entries.foldl (fun child e => child.bind e.1 e.2 none) child
    bound.singletons = child.singletons ∧
      ∀ f, bound.bindings.get k = some f ↔
        (k, f) ∈ entries ∨ k ∉ entries.map Prod.fst ∧ child.bindings.get k = some f := by
  induction entries generalizing child with
  | nil => simp
  | cons e entries ih =>
    obtain ⟨key, factory⟩ := e
    obtain ⟨hnot, hnodup⟩ := List.nodup_cons.mp hnodup
    obtain ⟨hsingletons, hbindings⟩ := ih hnodup (child.bind key factory none)
    refine ⟨hsingletons, fun f => ?_⟩
    rw [List.foldl_cons, hbindings, get_bindings_bind, List.mem_cons, List.map_cons, List.mem_cons]
    by_cases hk : k = key
    · subst hk
      have hmem : (k, f) ∉ entries := fun h => hnot (List.mem_map.mpr ⟨_, h, rfl⟩)
      simp only [Prod.mk.injEq, true_and, hmem, or_false, false_or, if_true, not_true, false_and,
        Option.some.injEq, true_or, eq_comm, and_iff_right hnot]
    · simp [hk]

/-- A child has the bindings of its parent. -/
@[simp] theorem get_bindings_createChild (k : String) :
    (c.createChild).bindings.get k = c.bindings.get k := by
  ext f
  rw [createChild, (foldl_bind c.bindings.nodup {} k).2, ← InsertionMap.get_eq_some]
  exact or_iff_left fun h => absurd h.2 (Option.some_ne_none f).symm

/-- A child has made nothing yet. -/
@[simp] theorem singletons_createChild : (c.createChild).singletons = .empty :=
  (foldl_bind c.bindings.nodup {} "").1

end DIContainer

end KitiumJobQueue.Container
