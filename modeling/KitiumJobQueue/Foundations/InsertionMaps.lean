import Mathlib.Data.List.Nodup

/-!
# Maps that remember the order of insertion

An `InsertionMap` keeps its entries in the order in which their keys first came. Setting a key that
is there replaces its value in place, setting another one adds an entry at the end. Keys are
distinct by construction.

Reading back is `get_set` and `get_delete`; `mem_keys` connects the listing with the reading.
-/

/-- A map, with its entries in the order of insertion. -/
@[ext] structure InsertionMap (κ : Type*) (α : Type*) where
  entries : List (κ × α)
  nodup : (entries.map Prod.fst).Nodup

namespace InsertionMap

variable {κ α : Type*}

/-- The map without entries. -/
def empty : InsertionMap κ α := ⟨[], List.nodup_nil⟩

/-- `Map.keys` -/
def keys (m : InsertionMap κ α) : List κ := m.entries.map Prod.fst

/-- `Map.values` -/
def values (m : InsertionMap κ α) : List α := m.entries.map Prod.snd

@[simp] theorem keys_empty : (empty : InsertionMap κ α).keys = [] := rfl

@[simp] theorem values_empty : (empty : InsertionMap κ α).values = [] := rfl

theorem nodup_appended {entries : List (κ × α)} (h : (entries.map Prod.fst).Nodup) {k : κ}
    (hk : k ∉ entries.map Prod.fst) (a : α) : ((entries ++ [(k, a)]).map Prod.fst).Nodup := by
  rw [List.map_append]
  exact h.append (List.nodup_singleton k) (by simpa using hk)

variable [DecidableEq κ]

/-- `Map.get` -/
def get (m : InsertionMap κ α) (k : κ) : Option α := (m.entries.find? (·.1 = k)).map Prod.snd

/-- The entries with another value under a key that is there. -/
def replaced (k : κ) (a : α) (entries : List (κ × α)) : List (κ × α) :=
  entries.map fun e => if e.1 = k then (k, a) else e

theorem fst_replaced (k : κ) (a : α) (entries : List (κ × α)) :
    (replaced k a entries).map Prod.fst = entries.map Prod.fst := by
  rw [replaced, List.map_map]
  refine List.map_congr_left fun e _ => ?_
  change (if e.1 = k then (k, a) else e).1 = e.1
  split
  · next h => exact h.symm
  · rfl

theorem nodup_replaced {entries : List (κ × α)} (h : (entries.map Prod.fst).Nodup) (k : κ)
    (a : α) : ((replaced k a entries).map Prod.fst).Nodup :=
  (fst_replaced k a entries).symm ▸ h

theorem nodup_filtered {entries : List (κ × α)} (h : (entries.map Prod.fst).Nodup) (k : κ) :
    ((entries.filter (·.1 ≠ k)).map Prod.fst).Nodup :=
  h.sublist (List.filter_sublist.map Prod.fst)

/-- `Map.set` -/
def set (m : InsertionMap κ α) (k : κ) (a : α) : InsertionMap κ α :=
  if hk : k ∈ m.keys then ⟨replaced k a m.entries, nodup_replaced m.nodup k a⟩
  else ⟨m.entries ++ [(k, a)], nodup_appended m.nodup hk a⟩

/-- `Map.delete` -/
def delete (m : InsertionMap κ α) (k : κ) : InsertionMap κ α :=
  ⟨m.entries.filter (·.1 ≠ k), nodup_filtered m.nodup k⟩

variable {m : InsertionMap κ α} {k k' : κ} {a : α}

@[simp] theorem get_empty (k : κ) : (empty : InsertionMap κ α).get k = none := rfl

/-! ## Entries -/

theorem get_eq_some : m.get k = some a ↔ (k, a) ∈ m.entries := by
  unfold get
  rw [Option.map_eq_some_iff]
  constructor
  · rintro ⟨⟨k', a'⟩, hfind, rfl⟩
    obtain rfl : k' = k := by simpa using List.find?_some hfind
    exact List.mem_of_find?_eq_some hfind
  · intro hmem
    refine ⟨(k, a), ?_, rfl⟩
    obtain ⟨e, hfind⟩ := Option.isSome_iff_exists.mp
      (List.find?_isSome (p := fun e => decide (e.1 = k)).mpr ⟨(k, a), hmem, by simp⟩)
    have hkey : e.1 = k := by simpa using List.find?_some hfind
    rw [hfind, List.inj_on_of_nodup_map m.nodup (List.mem_of_find?_eq_some hfind) hmem hkey]

theorem mem_entries_set {b : α} :
    (k', b) ∈ (m.set k a).entries ↔ k' = k ∧ b = a ∨ k' ≠ k ∧ (k', b) ∈ m.entries := by
  by_cases hk : k ∈ m.keys
  · rw [set, dif_pos hk]
    change (k', b) ∈ replaced k a m.entries ↔ _
    rw [replaced, List.mem_map]
    constructor
    · rintro ⟨e, he, heq⟩
      split at heq
      · cases heq
        exact .inl ⟨rfl, rfl⟩
      · next hne =>
        cases heq
        exact .inr ⟨hne, he⟩
    · rintro (⟨rfl, rfl⟩ | ⟨hne, hmem⟩)
      · obtain ⟨e, he, hek⟩ := List.mem_map.mp hk
        exact ⟨e, he, if_pos hek⟩
      · exact ⟨(k', b), hmem, if_neg hne⟩
  · rw [set, dif_neg hk, List.mem_append, List.mem_singleton, Prod.mk.injEq]
    constructor
    · rintro (hmem | hnew)
      · refine .inr ⟨?_, hmem⟩
        rintro rfl
        exact hk (List.mem_map_of_mem hmem)
      · exact .inl hnew
    · rintro (hnew | ⟨-, hmem⟩)
      · exact .inr hnew
      · exact .inl hmem

/-- Entries with new and distinct keys, set one after another, come at the end. -/
theorem entries_foldl_set (entries : List (κ × α)) (m : InsertionMap κ α)
    (h : ((m.entries ++ entries).map Prod.fst).Nodup) :
    (entries.foldl (fun m e => m.set e.1 e.2) m).entries = m.entries ++ entries := by
  induction entries generalizing m with
  | nil => exact (List.append_nil _).symm
  | cons e entries ih =>
    have hnew : e.1 ∉ m.keys := by
      rw [List.map_append, List.map_cons] at h
      intro hmem
      exact (List.nodup_append.mp h).2.2 _ hmem _ List.mem_cons_self rfl
    have hset : (m.set e.1 e.2).entries = m.entries ++ [e] := by rw [set, dif_neg hnew]
    rw [List.foldl_cons, ih _ (by simpa [hset] using h), hset, List.append_assoc]
    rfl

/-- A map is what its entries make of an empty one. -/
theorem foldl_set_entries (m : InsertionMap κ α) :
    m.entries.foldl (fun m e => m.set e.1 e.2) empty = m := by
  ext1
  exact entries_foldl_set m.entries empty m.nodup

theorem mem_entries_delete {b : α} :
    (k', b) ∈ (m.delete k).entries ↔ k' ≠ k ∧ (k', b) ∈ m.entries := by
  simp [delete, and_comm]

/-! ## Reading back -/

theorem get_set (m : InsertionMap κ α) (k : κ) (a : α) (k' : κ) :
    (m.set k a).get k' = if k' = k then some a else m.get k' := by
  ext b
  rw [get_eq_some, mem_entries_set]
  split
  · next h => simp [h, eq_comm]
  · next h => simp [h, get_eq_some]

theorem get_delete (m : InsertionMap κ α) (k k' : κ) :
    (m.delete k).get k' = if k' = k then none else m.get k' := by
  ext b
  rw [get_eq_some, mem_entries_delete]
  split
  · next h => simp [h]
  · next h => simp [h, get_eq_some]

@[simp] theorem get_set_self (m : InsertionMap κ α) (k : κ) (a : α) :
    (m.set k a).get k = some a := by
  rw [get_set, if_pos rfl]

@[simp] theorem get_delete_self (m : InsertionMap κ α) (k : κ) : (m.delete k).get k = none := by
  rw [get_delete, if_pos rfl]

/-! ## Listing -/

theorem mem_keys : k ∈ m.keys ↔ ∃ a, m.get k = some a := by
  rw [keys, List.mem_map]
  constructor
  · rintro ⟨⟨k, a⟩, he, rfl⟩
    exact ⟨a, get_eq_some.mpr he⟩
  · rintro ⟨a, ha⟩
    exact ⟨(k, a), get_eq_some.mp ha, rfl⟩

theorem mem_values : a ∈ m.values ↔ ∃ k, m.get k = some a := by
  rw [values, List.mem_map]
  constructor
  · rintro ⟨⟨k, a⟩, he, rfl⟩
    exact ⟨k, get_eq_some.mpr he⟩
  · rintro ⟨k, ha⟩
    exact ⟨(k, a), get_eq_some.mp ha, rfl⟩

theorem keys_set (m : InsertionMap κ α) (k : κ) (a : α) :
    (m.set k a).keys = if k ∈ m.keys then m.keys else m.keys ++ [k] := by
  by_cases h : k ∈ m.keys
  · rw [set, dif_pos h, if_pos h]
    exact fst_replaced k a m.entries
  · rw [set, dif_neg h, if_neg h]
    exact List.map_append

@[simp] theorem mem_keys_set {a : α} : k' ∈ (m.set k a).keys ↔ k' = k ∨ k' ∈ m.keys := by
  rw [keys_set]
  split
  · next h => exact ⟨.inr, fun hk => hk.elim (fun heq => heq ▸ h) id⟩
  · rw [List.mem_append, List.mem_singleton, or_comm]

end InsertionMap
