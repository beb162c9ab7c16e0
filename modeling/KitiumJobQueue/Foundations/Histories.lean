import Mathlib.Data.List.TakeWhile

/-!
# Histories

A history is a list of entries with the newest first. `Always P` says that `P` held of every entry
when it was made, seen with the entries before it; `since p` is the part of a history after its
newest entry meeting `p`, the whole of it where there is none. A statement about a run ("whenever
this happened, what had happened since that ...") is an `Always` of a `since`.
-/

namespace History

variable {α : Type*}

/-- `P` held of every entry when it was made. -/
def Always (P : α → List α → Prop) : List α → Prop
  | [] => True
  | a :: earlier => P a earlier ∧ Always P earlier

@[simp] theorem always_nil (P : α → List α → Prop) : Always P [] := trivial

@[simp] theorem always_cons {P : α → List α → Prop} {a : α} {earlier : List α} :
    Always P (a :: earlier) ↔ P a earlier ∧ Always P earlier := Iff.rfl

instance Always.decidable (P : α → List α → Prop) [∀ a l, Decidable (P a l)] :
    (l : List α) → Decidable (Always P l)
  | [] => .isTrue trivial
  | a :: l =>
    have := Always.decidable P l
    inferInstanceAs (Decidable (P a l ∧ Always P l))

/-- What held of every entry held of the earlier ones. -/
theorem Always.of_suffix {P : α → List α → Prop} {l l' : List α} (h : Always P l')
    (hl : l <:+ l') : Always P l := by
  obtain ⟨later, rfl⟩ := hl
  induction later with
  | nil => exact h
  | cons a later ih => exact ih h.2

/-- The entries after the newest one meeting `p`. -/
def since (p : α → Bool) (l : List α) : List α := l.takeWhile fun a => !p a

variable {p : α → Bool} {a : α} {l : List α}

@[simp] theorem since_nil : since p [] = [] := rfl

theorem since_cons_of_pos (h : p a = true) : since p (a :: l) = [] := by
  simp [since, h]

theorem since_cons_of_neg (h : p a = false) : since p (a :: l) = a :: since p l := by
  simp [since, h]

theorem since_sublist : (since p l).Sublist l := (List.takeWhile_prefix _).sublist

end History
