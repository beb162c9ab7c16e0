import Mathlib.Logic.Basic

/-!
# Optional properties of a record

A property declared optional may be absent, present with the value `undefined`, or present with a
value. Reading does not tell the first two apart (`getD` is the operator `??`), spreading a record
does: in `{ ...a, ...b }` a property present in `b` wins even when its value is `undefined`
(`override`).
-/

/-- An optional property of a record. -/
inductive OptionalField (α : Type) where
  | absent
  | undefined
  | value (a : α)
  deriving DecidableEq, Repr

namespace OptionalField

variable {α : Type}

/-- The value read from the property. -/
def toOption : OptionalField α → Option α
  | .value a => some a
  | .absent | .undefined => none

/-- `x ?? d` -/
def getD (x : OptionalField α) (d : α) : α := x.toOption.getD d

/-- The property in `{ ...x, ...y }`. -/
def override (x y : OptionalField α) : OptionalField α :=
  match y with
  | .absent => x
  | .undefined | .value _ => y

/-- What is read from the property after `{ ...x, ...y }`, `x` being read as `a`. -/
def laidOver (y : OptionalField α) (a : Option α) : Option α :=
  match y with
  | .absent => a
  | .undefined => none
  | .value b => some b

/-- The property after `if (y !== undefined) { x = y }`. -/
def assign (x y : OptionalField α) : OptionalField α :=
  match y with
  | .value _ => y
  | .absent | .undefined => x

/-- A property that is set only to a value that is there. -/
def ofOption : Option α → OptionalField α
  | some a => .value a
  | none => .absent

/-- A property of a record literal, given what its expression evaluates to. -/
def literal : Option α → OptionalField α
  | some a => .value a
  | none => .undefined

/-- The property of an optional record: `x?.p` -/
def field {ρ : Type} (x : OptionalField ρ) (p : ρ → OptionalField α) : OptionalField α :=
  match x with
  | .value r => p r
  | .absent | .undefined => .absent

@[simp] theorem toOption_ofOption (a : Option α) : (ofOption a).toOption = a := by cases a <;> rfl

@[simp] theorem toOption_literal (a : Option α) : (literal a).toOption = a := by cases a <;> rfl

@[simp] theorem toOption_value (a : α) : (value a).toOption = some a := rfl

@[simp] theorem override_value (x : OptionalField α) (a : α) : x.override (.value a) = .value a :=
  rfl

@[simp] theorem override_absent (x : OptionalField α) : x.override .absent = x := rfl

/-- A default under a property that is set only to a value that is there. -/
theorem toOption_override_ofOption (d : α) (a : Option α) :
    ((value d).override (ofOption a)).toOption = some (a.getD d) := by
  cases a <;> rfl

theorem override_override_self (x y : OptionalField α) :
    x.override (x.override y) = x.override y := by
  cases y with
  | absent => cases x <;> rfl
  | undefined => rfl
  | value a => rfl

/-- Filling in a default before a spread is the default overridden. -/
theorem override_value_getD (x : OptionalField α) (d : α) :
    (value (x.getD d)).override x = (value d).override x := by
  cases x <;> rfl

/-- Reading with a default what a default was filled into. -/
theorem getD_override_value_getD (x y : OptionalField α) (d : α) :
    ((value (x.getD d)).override y).getD d = (x.override y).getD d := by
  cases y <;> rfl

/-- Reading with a default what that default was spread under. -/
theorem getD_override_override (x y : OptionalField α) (d : α) :
    (((value d).override x).override y).getD d = (x.override y).getD d := by
  cases y with
  | absent => cases x <;> rfl
  | undefined => rfl
  | value a => rfl

/-- `x ?? y ?? d` -/
def firstOf (x y : OptionalField α) (d : α) : α := (x.toOption.or y.toOption).getD d

/-- A spread keeps the default that was filled in unless `undefined` is spread over it. -/
theorem toOption_value_getD_override_iff {x y : OptionalField α} {d : α} :
    ((value (y.getD d)).override x).toOption = some (x.firstOf y d) ↔ x ≠ .undefined := by
  cases x with
  | absent => simp [getD, firstOf, toOption]
  | undefined => simp [override, toOption]
  | value a => simp [firstOf]

/-- Of two spreads over a default the one that counts must not be of `undefined`. -/
theorem toOption_override_override_iff {x y : OptionalField α} {d : α} :
    (((value (y.getD d)).override y).override x).toOption = some (x.firstOf y d) ↔
      x ≠ .undefined ∧ (x = .absent → y ≠ .undefined) := by
  cases x with
  | undefined => simp [override, toOption]
  | value a => simp [firstOf]
  | absent =>
    rw [override_value_getD]
    cases y with
    | absent => simp [firstOf, toOption]
    | undefined => simp [override, toOption]
    | value a => simp [firstOf, toOption]

/-- A default that something is spread over does not matter. -/
theorem override_override_of_ne_absent (d : OptionalField α) {x y : OptionalField α}
    (h : x ≠ .absent ∨ y ≠ .absent) : (d.override x).override y = x.override y := by
  cases y with
  | absent =>
    cases x with
    | absent => exact absurd rfl (h.elim id id)
    | undefined => rfl
    | value a => rfl
  | undefined => rfl
  | value a => rfl

/-- A default that can be told from nothing matters exactly where nothing is spread over it. -/
theorem read_override_override_iff {β : Type} (read : OptionalField α → β) {d x y : OptionalField α}
    (hd : read d ≠ read .absent) :
    read ((d.override x).override y) = read (x.override y) ↔ x ≠ .absent ∨ y ≠ .absent := by
  constructor
  · intro hread
    refine or_iff_not_imp_left.mpr fun hx hy => ?_
    obtain rfl := not_not.mp hx
    obtain rfl := hy
    exact hd hread
  · intro hne
    rw [override_override_of_ne_absent d hne]

end OptionalField
