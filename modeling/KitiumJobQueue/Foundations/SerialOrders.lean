import Mathlib.Data.List.Basic

/-!
# Serial orders

An object that is used by one call at a time is a function `apply`: what an operation gives in a
state, and the state it leaves. `Serial apply s l` says that the operations of `l`, one after
another from the state `s`, give the results that `l` lists. Calls that overlapped are serializable
if their operations and results, in some order, are such a list.

Such an order grows at its end by an operation that changes the object. An operation that leaves the
object as it is may be put in wherever the object was in a state that gives its result:
`Serial.exists_insert`.
-/

namespace SerialOrder

variable {S O R : Type*} (apply : O → S → R × S)

/-- The state that the operations leave. -/
def after : S → List (O × R) → S
  | s, [] => s
  | s, x :: l => after (apply x.1 s).2 l

/-- One after another the operations give the results. -/
def Serial : S → List (O × R) → Prop
  | _, [] => True
  | s, x :: l => (apply x.1 s).1 = x.2 ∧ Serial (apply x.1 s).2 l

/-- The states on the way. -/
def visited : S → List (O × R) → List S
  | s, [] => [s]
  | s, x :: l => s :: visited (apply x.1 s).2 l

variable {apply} {s t : S} {l : List (O × R)}

theorem after_concat (x : O × R) : after apply s (l ++ [x]) = (apply x.1 (after apply s l)).2 := by
  induction l generalizing s with
  | nil => rfl
  | cons y l ih => exact ih

theorem visited_concat (x : O × R) :
    visited apply s (l ++ [x]) = visited apply s l ++ [(apply x.1 (after apply s l)).2] := by
  induction l generalizing s with
  | nil => rfl
  | cons y l ih => simp only [List.cons_append, visited, after, ih]

theorem after_mem_visited : after apply s l ∈ visited apply s l := by
  induction l generalizing s with
  | nil => exact List.mem_singleton_self s
  | cons y l ih => exact List.mem_cons_of_mem _ ih

/-- An operation comes last. -/
theorem Serial.concat (h : Serial apply s l) {x : O × R}
    (hx : (apply x.1 (after apply s l)).1 = x.2) : Serial apply s (l ++ [x]) := by
  induction l generalizing s with
  | nil => exact ⟨hx, trivial⟩
  | cons y l ih => exact ⟨h.1, ih h.2 hx⟩

/-- An operation that changes nothing comes first. -/
theorem Serial.cons_self (h : Serial apply s l) {o : O} {r : R} (ho : apply o s = (r, s)) :
    Serial apply s ((o, r) :: l) ∧ after apply s ((o, r) :: l) = after apply s l ∧
      visited apply s l ⊆ visited apply s ((o, r) :: l) := by
  refine ⟨⟨by rw [ho], ?_⟩, ?_, ?_⟩
  · rwa [ho]
  · rw [after, ho]
  · rw [visited, ho]
    exact List.subset_cons_self _ _

/-- An operation that changes nothing is put in where its state was visited. -/
theorem Serial.exists_insert (h : Serial apply s l) (ht : t ∈ visited apply s l) {o : O} {r : R}
    (ho : apply o t = (r, t)) :
    ∃ l', l'.Perm ((o, r) :: l) ∧ Serial apply s l' ∧ after apply s l' = after apply s l ∧
      visited apply s l ⊆ visited apply s l' := by
  induction l generalizing s with
  | nil =>
    obtain rfl := List.mem_singleton.mp ht
    exact ⟨_, .refl _, h.cons_self ho⟩
  | cons x l ih =>
    obtain rfl | ht := List.mem_cons.mp ht
    · exact ⟨_, .refl _, h.cons_self ho⟩
    · obtain ⟨l', hperm, hserial, hafter, hvisited⟩ := ih h.2 ht
      refine ⟨x :: l', (hperm.cons x).trans (.swap _ _ l), ⟨h.1, hserial⟩, hafter, ?_⟩
      exact List.cons_subset_cons s hvisited

/-- An operation is put in if it is decided. -/
theorem Serial.exists_insert_toList (h : Serial apply s l) {o : O} {r? : Option R}
    (hr : ∀ r, r? = some r → ∃ t ∈ visited apply s l, apply o t = (r, t)) :
    ∃ l', l'.Perm ((r?.map (o, ·)).toList ++ l) ∧ Serial apply s l' ∧
      after apply s l' = after apply s l ∧ visited apply s l ⊆ visited apply s l' := by
  cases r? with
  | none => exact ⟨l, .refl _, h, rfl, fun _ => id⟩
  | some r =>
    obtain ⟨t, ht, ho⟩ := hr r rfl
    exact h.exists_insert ht ho

end SerialOrder
