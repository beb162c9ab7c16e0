import KitiumJobQueue.Foundations.JavaScript
import Mathlib.Algebra.Order.Field.Rat
import Mathlib.Data.Int.Log
import Mathlib.Data.Rat.Floor

/-!
# Numbers that need not be numbers

A `Number` is a rational, one of the infinities, or `nan`, which every comparison denies. A check
that throws when a value is too small or too large therefore lets `nan` pass; `le_iff` is what is
left to know besides.

Arithmetic ends in a double. `nearest` is the one nearest to an exact result.
-/

namespace JavaScript

/-- A value of type `number`. -/
inductive Number
  | nan
  | negInfinity
  | num (q : ℚ)
  | posInfinity
  deriving DecidableEq

namespace Number

instance (n : ℕ) : OfNat Number n := ⟨.num n⟩

/-- `a < b` -/
def lt : Number → Number → Bool
  | .nan, _ | _, .nan | .posInfinity, _ | _, .negInfinity => false
  | .negInfinity, _ | _, .posInfinity => true
  | .num a, .num b => a < b

/-- `a <= b` -/
def le (a b : Number) : Bool := a ≠ .nan && b ≠ .nan && !b.lt a

variable {a b : Number}

theorem le_iff : a.le b = true ↔ a ≠ .nan ∧ b ≠ .nan ∧ b.lt a = false := by
  simp [le, and_assoc]

@[simp] theorem lt_nan (a : Number) : a.lt .nan = false := by cases a <;> rfl

@[simp] theorem nan_lt (b : Number) : Number.lt .nan b = false := by cases b <;> rfl

/-- What is not out of a bound is within it, unless it is no number. -/
theorem le_iff_of_not_lt (h : b.lt a = false) : a.le b = true ↔ a ≠ .nan ∧ b ≠ .nan := by
  rw [le_iff]
  simp [h]

theorem lt_iff_of_not_le (h : a.le b = false) (hb : b ≠ .nan) : b.lt a = true ↔ a ≠ .nan := by
  constructor
  · rintro hlt rfl
    simp at hlt
  · intro ha
    by_contra hlt
    rw [Bool.not_eq_true] at hlt
    rw [le_iff.mpr ⟨ha, hb, hlt⟩] at h
    exact Bool.false_ne_true h.symm

end Number

/-! ## Doubles -/

/-- The nearest integer, and of two equally near ones the even one. -/
def roundHalfEven (x : ℚ) : ℤ :=
  if 2 * Int.fract x < 1 ∨ 2 * Int.fract x = 1 ∧ Even ⌊x⌋ then ⌊x⌋ else ⌊x⌋ + 1

/-- How far the doubles about `x` are apart. -/
def ulp (x : ℚ) : ℚ := 2 ^ (max (Int.log 2 |x|) (-1022) - 52)

/-- The double nearest to a number that is not too large for one. -/
def nearest (x : ℚ) : ℚ := roundHalfEven (x / ulp x) * ulp x

/-! ## Texts -/

/-- `parseInt(s, 10)`: the integer of the longest numeric prefix. -/
def parseInt (s : String) : Number :=
  let text := s.toList.dropWhile isWhiteSpace
  let isNegative := text.head? = some '-'
  let unsigned := if text.head? ∈ [some '+', some '-'] then text.tail else text
  match unsigned.takeWhile Char.isDigit with
  | [] => .nan
  | digits =>
    let magnitude : ℚ := Nat.ofDigitChars 10 digits 0
    .num (if isNegative then -magnitude else magnitude)

end JavaScript
