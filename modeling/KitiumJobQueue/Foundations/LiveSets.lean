import Mathlib.Data.List.Nodup
import Mathlib.Data.List.ReduceOption

/-!
# Sets that change while a loop goes over them

A `LiveSet` keeps its elements in the order in which they were added, each in a slot of its own.
Deleting an element empties its slot; adding one that is absent takes a new slot at the end. A loop
over the set (`forOf`) goes from slot to slot and ends where there is no further slot at the time it
gets there, so it also visits what its own body has added.

`forInitial` goes over the elements the set has at the beginning, without those that are deleted
before their turn. Both loops do the same up to the last of these elements (`forOf_forInitial`), and
`forOf` ends there exactly if nothing that was added by then is still in the set
(`forOf_ends_iff`).
-/

/-- A set with its slots, in the order of insertion. -/
structure LiveSet (α : Type*) where
  slots : List (Option α)
  nodup : slots.reduceOption.Nodup

namespace LiveSet

variable {α : Type*}

/-- The set without elements. -/
def empty : LiveSet α := ⟨[], List.nodup_nil⟩

/-- The elements, in the order of insertion. -/
def toList (s : LiveSet α) : List α := s.slots.reduceOption

/-- `Set.size` -/
def size (s : LiveSet α) : ℕ := s.toList.length

theorem nodup_concat {slots : List (Option α)} (h : slots.reduceOption.Nodup) {a : α}
    (ha : a ∉ slots.reduceOption) : (slots ++ [some a]).reduceOption.Nodup := by
  rw [List.reduceOption_append]
  exact List.Nodup.append h (List.nodup_singleton a) (by simpa using ha)

/-! ## Loops -/

section Loops

variable {σ : Type*} (set : σ → LiveSet α) (body : α → σ → σ)

/-- `for (const a of set) { body }`, from the slot `i` on: the state at the end, if the fuel is
enough to get there. -/
def forOf : ℕ → ℕ → σ → Option σ
  | 0, _, _ => none
  | fuel + 1, i, s =>
    match (set s).slots[i]? with
    | none => some s
    | some none => forOf fuel (i + 1) s
    | some (some a) => forOf fuel (i + 1) (body a s)

variable {set body} {s t : σ} {i fuel : ℕ}

theorem forOf_end (h : (set s).slots[i]? = none) : forOf set body (fuel + 1) i s = some s := by
  rw [forOf, h]

theorem forOf_empty (h : (set s).slots[i]? = some none) :
    forOf set body (fuel + 1) i s = forOf set body fuel (i + 1) s := by
  rw [forOf, h]

theorem forOf_turn {a : α} (h : (set s).slots[i]? = some (some a)) :
    forOf set body (fuel + 1) i s = forOf set body fuel (i + 1) (body a s) := by
  rw [forOf, h]

/-- What every turn preserves holds at the end of the loop. -/
theorem forOf_invariant {I : σ → Prop} (hbody : ∀ a s, I s → I (body a s)) (hs : I s)
    (h : forOf set body fuel i s = some t) : I t := by
  induction fuel generalizing i s with
  | zero => exact absurd h (by simp [forOf])
  | succ fuel ih =>
    cases hslot : (set s).slots[i]? with
    | none =>
      rw [forOf_end hslot] at h
      exact Option.some.inj h ▸ hs
    | some slot =>
      cases slot with
      | none => exact ih hs (forOf_empty hslot ▸ h)
      | some a => exact ih (hbody a s hs) (forOf_turn hslot ▸ h)

/-- More fuel changes nothing. -/
theorem forOf_mono (h : forOf set body fuel i s = some t) (k : ℕ) :
    forOf set body (fuel + k) i s = some t := by
  induction fuel generalizing i s with
  | zero => exact absurd h (by simp [forOf])
  | succ fuel ih =>
    rw [Nat.add_right_comm]
    cases hslot : (set s).slots[i]? with
    | none =>
      rw [forOf_end hslot] at h ⊢
      exact h
    | some slot =>
      cases slot with
      | none =>
        rw [forOf_empty hslot] at h ⊢
        exact ih h
      | some a =>
        rw [forOf_turn hslot] at h ⊢
        exact ih h

/-- Empty slots are passed over. -/
theorem forOf_replicate {before later : List (Option α)} (k : ℕ)
    (h : (set s).slots = before ++ (List.replicate k none ++ later)) (fuel : ℕ) :
    forOf set body (fuel + k) before.length s = forOf set body fuel (before.length + k) s := by
  induction k generalizing before with
  | zero => rfl
  | succ k ih =>
    have hslot : (set s).slots[before.length]? = some none := by
      rw [h, List.getElem?_append_right (Nat.le_refl _), Nat.sub_self]
      rfl
    have hnext : (set s).slots = (before ++ [none]) ++ (List.replicate k none ++ later) := by
      rw [h, List.replicate_succ, List.append_assoc]
      rfl
    have hlength : (before ++ [none (α := α)]).length = before.length + 1 := by simp
    rw [← Nat.add_assoc, forOf_empty hslot, ← hlength, ih hnext, hlength]
    congr 1
    omega

end Loops

/-- The first slot that is not empty. -/
theorem exists_first {slots : List (Option α)} (h : slots.reduceOption ≠ []) :
    ∃ k a later, slots = List.replicate k none ++ some a :: later := by
  induction slots with
  | nil => exact absurd rfl h
  | cons slot slots ih =>
    cases slot with
    | none =>
      rw [List.reduceOption_cons_of_none] at h
      obtain ⟨k, a, later, rfl⟩ := ih h
      exact ⟨k + 1, a, later, rfl⟩
    | some a => exact ⟨0, a, slots, rfl⟩

/-! ## Changes -/

variable [DecidableEq α]

/-- The slots after the deletion of some elements. -/
def without (gone : List α) (slots : List (Option α)) : List (Option α) :=
  slots.map (Option.filter (· ∉ gone))

theorem reduceOption_without (gone : List α) (slots : List (Option α)) :
    (without gone slots).reduceOption = slots.reduceOption.filter (· ∉ gone) := by
  induction slots with
  | nil => rfl
  | cons slot slots ih =>
    cases slot with
    | none => simpa [without] using ih
    | some a =>
      by_cases ha : a ∈ gone
      · simpa [without, ha, Option.filter] using ih
      · simpa [without, ha, Option.filter] using ih

theorem nodup_without {slots : List (Option α)} (h : slots.reduceOption.Nodup) (gone : List α) :
    (without gone slots).reduceOption.Nodup := by
  rw [reduceOption_without]
  exact h.filter _

/-- `Set.add` -/
def add (s : LiveSet α) (a : α) : LiveSet α :=
  if ha : a ∈ s.toList then s else ⟨s.slots ++ [some a], nodup_concat s.nodup ha⟩

/-- `Set.delete` -/
def delete (s : LiveSet α) (a : α) : LiveSet α :=
  ⟨without [a] s.slots, nodup_without s.nodup [a]⟩

/-- A change of a set. -/
inductive Change (α : Type*)
  | add (a : α)
  | delete (a : α)

/-- The set after a change. -/
def change (s : LiveSet α) : Change α → LiveSet α
  | .add a => s.add a
  | .delete a => s.delete a

/-- The set after some changes. -/
def changes (s : LiveSet α) (cs : List (Change α)) : LiveSet α := cs.foldl change s

/-- The elements that are deleted, whether or not they are added again. -/
def deleted : List (Change α) → List α
  | [] => []
  | .add _ :: cs => deleted cs
  | .delete a :: cs => a :: deleted cs

/-! ## The slots after changes -/

theorem without_nil (slots : List (Option α)) : without [] slots = slots := by
  rw [without]
  conv_rhs => rw [← List.map_id slots]
  refine List.map_congr_left fun slot _ => ?_
  cases slot with
  | none => rfl
  | some a => simp [Option.filter]

theorem without_append (gone : List α) (slots slots' : List (Option α)) :
    without gone (slots ++ slots') = without gone slots ++ without gone slots' :=
  List.map_append

theorem without_without (gone gone' : List α) (slots : List (Option α)) :
    without gone' (without gone slots) = without (gone ++ gone') slots := by
  rw [without, without, List.map_map]
  refine List.map_congr_left fun slot _ => ?_
  cases slot with
  | none => rfl
  | some a =>
    by_cases ha : a ∈ gone
    · simp [Option.filter, ha]
    · simp [Option.filter, ha]

theorem slots_add {s : LiveSet α} {a : α} (ha : a ∉ s.toList) :
    (s.add a).slots = s.slots ++ [some a] := by
  rw [add, dif_neg ha]

/-- A slot stays where it is; what changes is whether it is empty, and what follows the slots. -/
theorem slots_changes {s : LiveSet α} {gone : List α} {slots later : List (Option α)}
    (h : s.slots = without gone slots ++ later) (cs : List (Change α)) :
    ∃ later', (s.changes cs).slots = without (gone ++ deleted cs) slots ++ later' := by
  induction cs generalizing s gone later with
  | nil =>
    refine ⟨later, ?_⟩
    rw [deleted, List.append_nil]
    exact h
  | cons c cs ih =>
    cases c with
    | add a =>
      by_cases ha : a ∈ s.toList
      · have hsame : s.change (.add a) = s := dif_pos ha
        rw [changes, List.foldl_cons, hsame]
        exact ih h
      · have hnew : (s.change (.add a)).slots = s.slots ++ [some a] := slots_add ha
        rw [h, List.append_assoc] at hnew
        exact ih hnew
    | delete a =>
      have hnew : (s.change (.delete a)).slots =
          without (gone ++ [a]) slots ++ without [a] later := by
        change without [a] s.slots = _
        rw [h, without_append, without_without]
      obtain ⟨later', hslots⟩ := ih hnew
      refine ⟨later', ?_⟩
      rw [List.append_assoc, List.singleton_append] at hslots
      exact hslots

/-! ## Loops whose body changes the set -/

section Loops

variable {σ : Type*} {set : σ → LiveSet α} (body : α → σ → σ)
  (changesOf : α → σ → List (Change α))

/-- The loop over a list without the elements that are deleted before their turn; the state at the
end, and what was deleted by then. -/
def forInitial : List α → List α → σ → σ × List α
  | [], gone, s => (s, gone)
  | a :: rest, gone, s =>
    if a ∈ gone then forInitial rest gone s
    else forInitial rest (gone ++ deleted (changesOf a s)) (body a s)

variable {body changesOf} {s : σ}

theorem forInitial_append (before after gone : List α) :
    forInitial body changesOf (before ++ after) gone s =
      forInitial body changesOf after (forInitial body changesOf before gone s).2
        (forInitial body changesOf before gone s).1 := by
  induction before generalizing gone s with
  | nil => rfl
  | cons a before ih =>
    rw [List.cons_append, forInitial, forInitial]
    split
    · exact ih gone
    · exact ih _

/-- What the loop finds in the next slot there was at the beginning. -/
theorem getElem?_slots {s : LiveSet α} {gone : List α} {done rest later : List (Option α)}
    {slot : Option α} (h : s.slots = without gone (done ++ slot :: rest) ++ later) :
    s.slots[done.length]? = some (slot.filter (· ∉ gone)) := by
  rw [h, without_append, List.append_assoc, List.getElem?_append_right (by simp [without])]
  simp [without]

/-- A slot that is empty by now is passed over. -/
theorem forInitial_skip {gone : List α} {slot : Option α} (rest : List (Option α))
    (hnone : slot.filter (· ∉ gone) = none) :
    forInitial body changesOf (slot :: rest).reduceOption gone s =
      forInitial body changesOf rest.reduceOption gone s := by
  cases slot with
  | none => rw [List.reduceOption_cons_of_none]
  | some a =>
    have ha : a ∈ gone := by simpa [Option.filter] using hnone
    rw [List.reduceOption_cons_of_some, forInitial, if_pos ha]

/-- **Both loops do the same** over the slots there are at the beginning. -/
theorem forOf_forInitial (hbody : ∀ a s, set (body a s) = (set s).changes (changesOf a s))
    {gone : List α} {done rest later : List (Option α)}
    (h : (set s).slots = without gone (done ++ rest) ++ later) :
    ∃ later', (set (forInitial body changesOf rest.reduceOption gone s).1).slots =
        without (forInitial body changesOf rest.reduceOption gone s).2 (done ++ rest) ++ later' ∧
      ∀ fuel, forOf set body (fuel + rest.length) done.length s =
        forOf set body fuel (done.length + rest.length)
          (forInitial body changesOf rest.reduceOption gone s).1 := by
  induction rest generalizing done gone s later with
  | nil => exact ⟨later, h, fun fuel => rfl⟩
  | cons slot rest ih =>
    have hslot := getElem?_slots h
    have hsplit : done ++ slot :: rest = (done ++ [slot]) ++ rest := by simp
    have hnext : (done ++ [slot]).length = done.length + 1 := by simp
    have hfuel : ∀ fuel, fuel + (slot :: rest).length = fuel + rest.length + 1 := fun fuel => rfl
    have hplace : done.length + (slot :: rest).length = done.length + 1 + rest.length := by
      rw [List.length_cons]
      omega
    cases hfilter : slot.filter (· ∉ gone) with
    | none =>
      rw [hfilter] at hslot
      rw [hsplit] at h ⊢
      rw [forInitial_skip rest hfilter]
      obtain ⟨later', hslots, hloop⟩ := ih h
      refine ⟨later', hslots, fun fuel => ?_⟩
      rw [hfuel, forOf_empty hslot, ← hnext, hloop, hplace, hnext]
    | some a =>
      obtain ⟨rfl, ha⟩ := Option.filter_eq_some_iff.mp hfilter
      rw [hfilter] at hslot
      have ha : a ∉ gone := by simpa using ha
      rw [List.reduceOption_cons_of_some, forInitial, if_neg ha]
      obtain ⟨later₁, hchanged⟩ := slots_changes h (changesOf a s)
      rw [← hbody, hsplit] at hchanged
      rw [hsplit]
      obtain ⟨later', hslots, hloop⟩ := ih hchanged
      refine ⟨later', hslots, fun fuel => ?_⟩
      rw [hfuel, forOf_turn hslot, ← hnext, hloop, hplace, hnext]

variable (set body changesOf)

/-- The loop over all elements of the beginning; the state at its end, and what was deleted. -/
def initialLoop (s : σ) : σ × List α := forInitial body changesOf (set s).toList [] s

/-- After the loop over the elements of the beginning, only such are in the set that have been there
all the time. -/
def Settled (s : σ) : Prop :=
  ∀ a ∈ (set (initialLoop set body changesOf s).1).toList,
    a ∈ (set s).toList ∧ a ∉ (initialLoop set body changesOf s).2

instance (s : σ) : Decidable (Settled set body changesOf s) :=
  inferInstanceAs (Decidable (∀ _ ∈ _, _ ∧ _))

variable {set body changesOf}

/-- The slots at the end of the loop over the initial elements: those of the beginning, and later
ones, which are empty exactly if the set is settled. The other loop has come to the later ones. -/
theorem forOf_initialLoop (hbody : ∀ a s, set (body a s) = (set s).changes (changesOf a s))
    (s : σ) :
    ∃ before later, (set (initialLoop set body changesOf s).1).slots = before ++ later ∧
      (Settled set body changesOf s ↔ later.reduceOption = []) ∧
      ∀ fuel, forOf set body (fuel + before.length) 0 s =
        forOf set body fuel before.length (initialLoop set body changesOf s).1 := by
  have hstart : (set s).slots = without [] ([] ++ (set s).slots) ++ [] := by
    rw [List.nil_append, List.append_nil, without_nil]
  obtain ⟨later, hslots, hloop⟩ := forOf_forInitial hbody hstart
  rw [List.nil_append] at hslots
  change (set (initialLoop set body changesOf s).1).slots =
    without (initialLoop set body changesOf s).2 _ ++ later at hslots
  refine ⟨_, later, hslots, ?_, fun fuel => ?_⟩
  · have hlist : (set (initialLoop set body changesOf s).1).toList =
        (set s).toList.filter (· ∉ (initialLoop set body changesOf s).2) ++
          later.reduceOption := by
      rw [toList, hslots, List.reduceOption_append, reduceOption_without]
      rfl
    have hnodup : (set (initialLoop set body changesOf s).1).toList.Nodup :=
      (set (initialLoop set body changesOf s).1).nodup
    rw [Settled]
    rw [hlist] at hnodup ⊢
    constructor
    · intro hsettled
      refine List.eq_nil_iff_forall_not_mem.mpr fun a ha => ?_
      have hboth := hsettled a (List.mem_append_right _ ha)
      refine List.disjoint_of_nodup_append hnodup (List.mem_filter.mpr ?_) ha
      simpa using hboth
    · intro hnil a ha
      rw [hnil, List.append_nil, List.mem_filter] at ha
      simpa using ha
  · have hlength : (without (initialLoop set body changesOf s).2 (set s).slots).length =
        (set s).slots.length := by simp [without]
    have hfuel := hloop fuel
    rw [List.length_nil, Nat.zero_add] at hfuel
    rw [hlength]
    exact hfuel

/-- Where the set is settled, the loop ends with the turn of the last initial element. -/
theorem forOf_of_settled (hbody : ∀ a s, set (body a s) = (set s).changes (changesOf a s))
    (h : Settled set body changesOf s) :
    ∃ fuel, forOf set body fuel 0 s = some (initialLoop set body changesOf s).1 := by
  obtain ⟨before, later, hslots, hiff, hloop⟩ := forOf_initialLoop hbody s
  obtain ⟨k, rfl⟩ := (List.reduceOption_eq_nil_iff later).mp (hiff.mp h)
  have hall : (set (initialLoop set body changesOf s).1).slots =
      before ++ (List.replicate k none ++ []) := by rw [hslots, List.append_nil]
  refine ⟨1 + k + before.length, ?_⟩
  rw [hloop, forOf_replicate k hall]
  exact forOf_end (List.getElem?_eq_none (by simp [hslots]))

/-- Where it is not, there is a further turn. -/
theorem forOf_of_not_settled (hbody : ∀ a s, set (body a s) = (set s).changes (changesOf a s))
    (h : ¬ Settled set body changesOf s) :
    ∃ a i k, ∀ fuel, forOf set body (fuel + k) 0 s =
      forOf set body fuel i (body a (initialLoop set body changesOf s).1) := by
  obtain ⟨before, later, hslots, hiff, hloop⟩ := forOf_initialLoop hbody s
  obtain ⟨k, a, rest, rfl⟩ := exists_first (mt hiff.mpr h)
  refine ⟨a, before.length + k + 1, 1 + k + before.length, fun fuel => ?_⟩
  rw [← Nat.add_assoc, ← Nat.add_assoc, hloop, forOf_replicate k hslots]
  refine forOf_turn ?_
  rw [hslots, List.getElem?_append_right (Nat.le_add_right _ _)]
  simp

/-- **Where every turn leaves a trace, the loop ends with the turn of the last initial element
exactly if the set is settled by then.** -/
theorem forOf_ends_iff (hbody : ∀ a s, set (body a s) = (set s).changes (changesOf a s))
    (turns : σ → ℕ) (hturns : ∀ a s, turns s < turns (body a s)) (s : σ) :
    (∃ fuel t, forOf set body fuel 0 s = some t ∧
        turns t = turns (initialLoop set body changesOf s).1) ↔
      Settled set body changesOf s := by
  refine ⟨?_, fun h => ?_⟩
  · rintro ⟨fuel, t, hend, heq⟩
    by_contra hunsettled
    obtain ⟨a, i, k, hmore⟩ := forOf_of_not_settled hbody hunsettled
    have hlong := forOf_mono hend k
    rw [hmore] at hlong
    have hgrown := forOf_invariant
      (I := fun t => turns (initialLoop set body changesOf s).1 < turns t)
      (fun b u hu => Nat.lt_trans hu (hturns b u)) (hturns a _) hlong
    exact Nat.ne_of_gt hgrown heq
  · obtain ⟨fuel, hend⟩ := forOf_of_settled hbody h
    exact ⟨fuel, _, hend, rfl⟩

end Loops

end LiveSet
