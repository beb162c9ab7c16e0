import Mathlib.Data.Nat.Notation
import Mathlib.Logic.Function.Basic

/-!
# Handles

A `Ledger` counts what was opened (connections, timers, files), each under its number, and lists
what was released. A program knows what it opened by the handles it holds: `held k` is the one in
slot `k`. `Accounted` says that everything still open is held in some slot; what is not can no
longer be released.

`accounted_put_iff`, `not_accounted_next`, `accounted_drop_iff` and `accounted_releaseAll_iff` say
what opening, opening without holding, letting go and releasing do to it, and `allReleased_iff` what
has to be released in the end.
-/

/-- What was opened so far, numbered from `0`, and what was released. -/
structure Ledger where
  opened : ℕ := 0
  released : List ℕ := []
  deriving DecidableEq

namespace Ledger

/-- One more was opened; its number is `l.opened`. -/
def next (l : Ledger) : Ledger := { l with opened := l.opened + 1 }

/-- One was released. -/
def release (l : Ledger) (h : ℕ) : Ledger := { l with released := h :: l.released }

/-- Several were released. -/
def releaseAll (l : Ledger) (hs : List ℕ) : Ledger := hs.foldl release l

/-- Nothing is open. -/
def AllReleased (l : Ledger) : Prop := ∀ h < l.opened, h ∈ l.released

instance (l : Ledger) : Decidable l.AllReleased :=
  inferInstanceAs (Decidable (∀ h < l.opened, h ∈ l.released))

@[simp] theorem opened_next (l : Ledger) : l.next.opened = l.opened + 1 := rfl

@[simp] theorem released_next (l : Ledger) : l.next.released = l.released := rfl

@[simp] theorem opened_release (l : Ledger) (h : ℕ) : (l.release h).opened = l.opened := rfl

@[simp] theorem mem_released_release {l : Ledger} {h x : ℕ} :
    x ∈ (l.release h).released ↔ x = h ∨ x ∈ l.released := List.mem_cons

theorem releaseAll_cons (l : Ledger) (h : ℕ) (hs : List ℕ) :
    l.releaseAll (h :: hs) = (l.release h).releaseAll hs := rfl

@[simp] theorem opened_releaseAll (l : Ledger) (hs : List ℕ) :
    (l.releaseAll hs).opened = l.opened := by
  induction hs generalizing l with
  | nil => rfl
  | cons h hs ih => exact ih (l.release h)

@[simp] theorem mem_released_releaseAll {l : Ledger} {hs : List ℕ} {x : ℕ} :
    x ∈ (l.releaseAll hs).released ↔ x ∈ hs ∨ x ∈ l.released := by
  induction hs generalizing l with
  | nil => simp [releaseAll]
  | cons h hs ih =>
    rw [releaseAll_cons, ih, mem_released_release, List.mem_cons, or_assoc, or_left_comm]

/-! ## What is held -/

variable {κ : Type*} {l : Ledger} {held : κ → Option ℕ}

/-- Everything that is open is held. -/
def Accounted (l : Ledger) (held : κ → Option ℕ) : Prop :=
  ∀ h < l.opened, h ∈ l.released ∨ ∃ k, held k = some h

/-- Nothing open is held in the slot. -/
def Free (l : Ledger) (held : κ → Option ℕ) (k : κ) : Prop := ∀ h ∈ held k, h ∈ l.released

instance (l : Ledger) (held : κ → Option ℕ) (k : κ) : Decidable (l.Free held k) :=
  inferInstanceAs (Decidable (∀ h ∈ held k, h ∈ l.released))

/-- What is held or was released had been opened, and nothing is held in two slots. -/
structure Fits (l : Ledger) (held : κ → Option ℕ) : Prop where
  lt_of_held : ∀ k h, held k = some h → h < l.opened
  lt_of_released : ∀ h ∈ l.released, h < l.opened
  slot_unique : ∀ k k' h, held k = some h → held k' = some h → k = k'

theorem accounted_empty : ({} : Ledger).Accounted (fun _ : κ => none) :=
  fun h hlt => absurd hlt (Nat.not_lt_zero h)

theorem fits_empty : ({} : Ledger).Fits (fun _ : κ => none) where
  lt_of_held _ _ h := absurd h (Option.some_ne_none _).symm
  lt_of_released _ h := absurd h List.not_mem_nil
  slot_unique _ _ _ h := absurd h (Option.some_ne_none _).symm

/-- What is opened next is not released yet. -/
theorem Fits.opened_notMem (hfits : l.Fits held) : l.opened ∉ l.released :=
  fun h => Nat.lt_irrefl _ (hfits.lt_of_released _ h)

theorem Fits.next (hfits : l.Fits held) : l.next.Fits held where
  lt_of_held k h hk := Nat.lt_succ_of_lt (hfits.lt_of_held k h hk)
  lt_of_released h hh := Nat.lt_succ_of_lt (hfits.lt_of_released h hh)
  slot_unique := hfits.slot_unique

/-- What is opened and not held is lost. -/
theorem not_accounted_next (hfits : l.Fits held) : ¬ l.next.Accounted held := by
  intro h
  rcases h l.opened (Nat.lt_succ_self _) with hreleased | ⟨k, hk⟩
  · exact hfits.opened_notMem hreleased
  · exact Nat.lt_irrefl _ (hfits.lt_of_held k _ hk)

/-! ## Opening into a slot -/

section Put

variable [DecidableEq κ]

/-- One more was opened, and goes into the slot. -/
def put (l : Ledger) (held : κ → Option ℕ) (k : κ) : κ → Option ℕ :=
  Function.update held k (some l.opened)

variable {k : κ}

theorem put_eq_some {k' : κ} {h : ℕ} :
    l.put held k k' = some h ↔ k' = k ∧ h = l.opened ∨ k' ≠ k ∧ held k' = some h := by
  rw [put, Function.update_apply]
  split
  · next heq => simp [heq, eq_comm]
  · next hne => simp [hne]

theorem Fits.put (hfits : l.Fits held) (k : κ) : l.next.Fits (l.put held k) where
  lt_of_held k' h hk' := by
    rcases put_eq_some.mp hk' with ⟨-, rfl⟩ | ⟨-, hk'⟩
    · exact Nat.lt_succ_self _
    · exact Nat.lt_succ_of_lt (hfits.lt_of_held k' h hk')
  lt_of_released := hfits.next.lt_of_released
  slot_unique k₁ k₂ h h₁ h₂ := by
    rcases put_eq_some.mp h₁ with ⟨hk₁, rfl⟩ | ⟨-, h₁⟩
    · rcases put_eq_some.mp h₂ with ⟨hk₂, -⟩ | ⟨-, h₂⟩
      · exact hk₁.trans hk₂.symm
      · exact absurd (hfits.lt_of_held k₂ _ h₂) (Nat.lt_irrefl _)
    · rcases put_eq_some.mp h₂ with ⟨-, rfl⟩ | ⟨-, h₂⟩
      · exact absurd (hfits.lt_of_held k₁ _ h₁) (Nat.lt_irrefl _)
      · exact hfits.slot_unique k₁ k₂ h h₁ h₂

/-- **Opening into a slot loses what was open in the slot, and nothing else.** -/
theorem accounted_put_iff (hfits : l.Fits held) :
    l.next.Accounted (l.put held k) ↔ l.Accounted held ∧ l.Free held k := by
  constructor
  · intro hacc
    have hslot : l.Free held k := by
      intro h hk
      have hlt := hfits.lt_of_held k h hk
      rcases hacc h (Nat.lt_succ_of_lt hlt) with hreleased | ⟨k', hk'⟩
      · exact hreleased
      · rcases put_eq_some.mp hk' with ⟨-, rfl⟩ | ⟨hne, hk'⟩
        · exact absurd hlt (Nat.lt_irrefl _)
        · exact absurd (hfits.slot_unique k' k h hk' hk) hne
    refine ⟨fun h hlt => ?_, hslot⟩
    rcases hacc h (Nat.lt_succ_of_lt hlt) with hreleased | ⟨k', hk'⟩
    · exact .inl hreleased
    · rcases put_eq_some.mp hk' with ⟨-, rfl⟩ | ⟨-, hk'⟩
      · exact absurd hlt (Nat.lt_irrefl _)
      · exact .inr ⟨k', hk'⟩
  · rintro ⟨hacc, hslot⟩ h hlt
    rcases Nat.lt_succ_iff_lt_or_eq.mp hlt with hlt | rfl
    · rcases hacc h hlt with hreleased | ⟨k', hk'⟩
      · exact .inl hreleased
      · by_cases heq : k' = k
        · exact .inl (hslot h (heq ▸ hk'))
        · exact .inr ⟨k', put_eq_some.mpr (.inr ⟨heq, hk'⟩)⟩
    · exact .inr ⟨k, put_eq_some.mpr (.inl ⟨rfl, rfl⟩)⟩

/-- The slot is not free any more; the others are as they were. -/
theorem free_put_iff (hfits : l.Fits held) {k' : κ} :
    l.next.Free (l.put held k) k' ↔ k' ≠ k ∧ l.Free held k' := by
  constructor
  · intro hfree
    refine ⟨?_, fun h hk' => ?_⟩
    · rintro rfl
      exact hfits.opened_notMem (hfree _ (put_eq_some.mpr (.inl ⟨rfl, rfl⟩)))
    · by_cases heq : k' = k
      · subst heq
        exact absurd (hfree _ (put_eq_some.mpr (.inl ⟨rfl, rfl⟩))) hfits.opened_notMem
      · exact hfree h (put_eq_some.mpr (.inr ⟨heq, hk'⟩))
  · rintro ⟨hne, hfree⟩ h hk'
    rcases put_eq_some.mp hk' with ⟨heq, -⟩ | ⟨-, hk'⟩
    · exact absurd heq hne
    · exact hfree h hk'

end Put

/-! ## Letting go -/

section Drop

variable [DecidableEq κ] {k : κ}

/-- What was held in the slot is held no more. -/
def drop (held : κ → Option ℕ) (k : κ) : κ → Option ℕ := Function.update held k none

theorem drop_eq_some {k' : κ} {h : ℕ} : drop held k k' = some h ↔ k' ≠ k ∧ held k' = some h := by
  rw [drop, Function.update_apply]
  split
  · next heq => simp [heq]
  · next hne => simp [hne]

theorem Fits.drop (hfits : l.Fits held) (k : κ) : l.Fits (drop held k) where
  lt_of_held k' h hk' := hfits.lt_of_held k' h (drop_eq_some.mp hk').2
  lt_of_released := hfits.lt_of_released
  slot_unique k₁ k₂ h h₁ h₂ :=
    hfits.slot_unique k₁ k₂ h (drop_eq_some.mp h₁).2 (drop_eq_some.mp h₂).2

/-- **Letting go of a slot loses what was open in it, and nothing else.** -/
theorem accounted_drop_iff (hfits : l.Fits held) :
    l.Accounted (drop held k) ↔ l.Accounted held ∧ l.Free held k := by
  constructor
  · intro hacc
    refine ⟨fun h hlt => ?_, fun h hk => ?_⟩
    · rcases hacc h hlt with hreleased | ⟨k', hk'⟩
      · exact .inl hreleased
      · exact .inr ⟨k', (drop_eq_some.mp hk').2⟩
    · rcases hacc h (hfits.lt_of_held k h hk) with hreleased | ⟨k', hk'⟩
      · exact hreleased
      · obtain ⟨hne, hk'⟩ := drop_eq_some.mp hk'
        exact absurd (hfits.slot_unique k' k h hk' hk) hne
  · rintro ⟨hacc, hslot⟩ h hlt
    rcases hacc h hlt with hreleased | ⟨k', hk'⟩
    · exact .inl hreleased
    · by_cases heq : k' = k
      · exact .inl (hslot h (heq ▸ hk'))
      · exact .inr ⟨k', drop_eq_some.mpr ⟨heq, hk'⟩⟩

theorem free_drop_self (l : Ledger) (held : κ → Option ℕ) (k : κ) : l.Free (drop held k) k :=
  fun _ hk => absurd rfl (drop_eq_some.mp hk).1

end Drop

/-! ## Releasing -/

theorem Fits.releaseAll (hfits : l.Fits held) {hs : List ℕ} (hhs : ∀ h ∈ hs, ∃ k, held k = some h) :
    (l.releaseAll hs).Fits held where
  lt_of_held k h hk := by
    rw [opened_releaseAll]
    exact hfits.lt_of_held k h hk
  lt_of_released h hh := by
    rw [opened_releaseAll]
    rcases mem_released_releaseAll.mp hh with hmem | hreleased
    · obtain ⟨k, hk⟩ := hhs h hmem
      exact hfits.lt_of_held k h hk
    · exact hfits.lt_of_released h hreleased
  slot_unique := hfits.slot_unique

/-- Releasing what is held loses nothing, and finds nothing that was lost. -/
theorem accounted_releaseAll_iff {hs : List ℕ} (hhs : ∀ h ∈ hs, ∃ k, held k = some h) :
    (l.releaseAll hs).Accounted held ↔ l.Accounted held := by
  unfold Accounted
  rw [opened_releaseAll]
  refine forall₂_congr fun h _ => ?_
  rw [mem_released_releaseAll]
  constructor
  · rintro ((hmem | hreleased) | hheld)
    · exact .inr (hhs h hmem)
    · exact .inl hreleased
    · exact .inr hheld
  · rintro (hreleased | hheld)
    · exact .inl (.inr hreleased)
    · exact .inr hheld

/-- **Nothing is open exactly if nothing was lost and what is held was released.** -/
theorem allReleased_iff (hfits : l.Fits held) :
    l.AllReleased ↔ l.Accounted held ∧ ∀ k, l.Free held k := by
  constructor
  · intro hall
    exact ⟨fun h hlt => .inl (hall h hlt), fun k h hk => hall h (hfits.lt_of_held k h hk)⟩
  · rintro ⟨hacc, hheld⟩ h hlt
    rcases hacc h hlt with hreleased | ⟨k, hk⟩
    · exact hreleased
    · exact hheld k h hk

end Ledger
