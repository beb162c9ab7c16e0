import Mathlib.Algebra.Order.Field.Basic
import Mathlib.Data.Nat.Notation
import Mathlib.Order.Interval.Set.Defs
import Mathlib.Tactic.Linarith
import Mathlib.Tactic.Ring

/-!
# Delays that grow, with jitter and a cap

A sequence `f` says how long to wait before each attempt. To every delay a random part of it is
added, up to `j` times the delay (`jittered`), and the sum is cut off at `cap` (`delay`).

If each delay is at least `1 + j` times the one before (`Outgrows`), a later delay is never shorter
than an earlier one, whatever is drawn for the two. `outgrows_iff` says that nothing less will do.
-/

namespace Backoff

variable {K : Type*} [Field K] [LinearOrder K] [IsStrictOrderedRing K]

/-- The delay `x` with the part of it that the draw `r` makes of the jitter `j`. -/
def jittered (j r x : K) : K := x + r * x * j

/-- The growth from one delay to the next makes up for the jitter. -/
def Outgrows (j : K) (f : ℕ → K) : Prop := ∀ n, (1 + j) * f n ≤ f (n + 1)

/-- The jittered delay, cut off at `cap`. -/
def delay (cap j : K) (f : ℕ → K) (r : K) (n : ℕ) : K := min (jittered j r (f n)) cap

variable {cap j r s x : K} {f : ℕ → K} {a b : ℕ}

omit [LinearOrder K] [IsStrictOrderedRing K] in
theorem jittered_zero (r x : K) : jittered 0 r x = x := by
  rw [jittered, mul_zero, add_zero]

/-! ## One delay -/

theorem le_jittered (hj : 0 ≤ j) (hr : 0 ≤ r) (hx : 0 ≤ x) : x ≤ jittered j r x :=
  le_add_of_nonneg_right (mul_nonneg (mul_nonneg hr hx) hj)

theorem jittered_le (hj : 0 ≤ j) (hr : r ≤ 1) (hx : 0 ≤ x) : jittered j r x ≤ (1 + j) * x := by
  have hdrawn : r * x * j ≤ 1 * x * j :=
    mul_le_mul_of_nonneg_right (mul_le_mul_of_nonneg_right hr hx) hj
  calc jittered j r x ≤ x + 1 * x * j := add_le_add_right hdrawn x
    _ = (1 + j) * x := by ring

omit [IsStrictOrderedRing K] in
theorem delay_le_cap (r : K) (n : ℕ) : delay cap j f r n ≤ cap := min_le_right _ _

theorem delay_nonneg (hj : 0 ≤ j) (hr : 0 ≤ r) (hf : ∀ n, 0 ≤ f n) (hcap : 0 ≤ cap) (n : ℕ) :
    0 ≤ delay cap j f r n :=
  le_min ((hf n).trans (le_jittered hj hr (hf n))) hcap

theorem min_le_delay (hj : 0 ≤ j) (hr : 0 ≤ r) (hf : ∀ n, 0 ≤ f n) (n : ℕ) :
    min (f n) cap ≤ delay cap j f r n :=
  min_le_min_right cap (le_jittered hj hr (hf n))

theorem delay_le_min (hj : 0 ≤ j) (hr : r ≤ 1) (hf : ∀ n, 0 ≤ f n) (n : ℕ) :
    delay cap j f r n ≤ min ((1 + j) * f n) cap :=
  min_le_min_right cap (jittered_le hj hr (hf n))

/-! ## Two delays -/

/-- What holds from one delay to the next holds from any delay to a later one. -/
theorem Outgrows.le_of_lt (h : Outgrows j f) (hj : 0 ≤ j) (hf : ∀ n, 0 ≤ f n) (hab : a < b) :
    (1 + j) * f a ≤ f b := by
  induction b, hab using Nat.le_induction with
  | base => exact h a
  | succ b _ ih =>
    have hstep : f b ≤ (1 + j) * f b :=
      le_mul_of_one_le_left (hf b) (le_add_of_nonneg_right hj)
    exact (ih.trans hstep).trans (h b)

/-- Whatever is drawn for the two, a later delay is not the shorter one. -/
theorem Outgrows.jittered_le_jittered (h : Outgrows j f) (hj : 0 ≤ j) (hf : ∀ n, 0 ≤ f n)
    (hab : a < b) (hr : r ≤ 1) (hs : 0 ≤ s) : jittered j r (f a) ≤ jittered j s (f b) :=
  calc jittered j r (f a) ≤ (1 + j) * f a := jittered_le hj hr (hf a)
    _ ≤ f b := h.le_of_lt hj hf hab
    _ ≤ jittered j s (f b) := le_jittered hj hs (hf b)

theorem Outgrows.delay_le_delay (h : Outgrows j f) (hj : 0 ≤ j) (hf : ∀ n, 0 ≤ f n) (hab : a < b)
    (hr : r ≤ 1) (hs : 0 ≤ s) : delay cap j f r a ≤ delay cap j f s b :=
  min_le_min_right cap (h.jittered_le_jittered hj hf hab hr hs)

/-- If no draw delays the first of two longer than the second without jitter, all of the jitter
does not. -/
theorem mul_le_of_jittered_le {y : K} (h : ∀ r ∈ Set.Ico (0 : K) 1, jittered j r x ≤ y) :
    (1 + j) * x ≤ y := by
  have hzero : x ≤ y := by
    simpa only [jittered, zero_mul, add_zero] using h 0 ⟨le_rfl, zero_lt_one⟩
  by_contra hlt
  have hgap : y - x < x * j := by
    rw [not_le] at hlt
    linarith
  have hpos : 0 < x * j := (sub_nonneg.mpr hzero).trans_lt hgap
  -- a draw half way between the one that makes up for the difference and one
  have hhalf : (((y - x) / (x * j) + 1) / 2) * (x * j) = ((y - x) + x * j) / 2 := by
    rw [div_mul_eq_mul_div, add_mul, div_mul_cancel₀ _ hpos.ne', one_mul]
  have hratio : (y - x) / (x * j) < 1 := (div_lt_one hpos).mpr hgap
  have hratio' : 0 ≤ (y - x) / (x * j) := div_nonneg (sub_nonneg.mpr hzero) hpos.le
  have hdrawn := h (((y - x) / (x * j) + 1) / 2) ⟨by linarith, by linarith⟩
  rw [jittered, mul_assoc, hhalf] at hdrawn
  linarith

/-- **The delays grow whatever is drawn exactly if their growth makes up for the jitter.** -/
theorem outgrows_iff (hj : 0 ≤ j) (hf : ∀ n, 0 ≤ f n) :
    Outgrows j f ↔ ∀ a b, a < b → ∀ r ∈ Set.Ico (0 : K) 1, ∀ s ∈ Set.Ico (0 : K) 1,
      jittered j r (f a) ≤ jittered j s (f b) := by
  constructor
  · intro h a b hab r hr s hs
    exact h.jittered_le_jittered hj hf hab hr.2.le hs.1
  · intro h n
    refine mul_le_of_jittered_le fun r hr => ?_
    simpa only [jittered, zero_mul, add_zero] using
      h n (n + 1) (Nat.lt_succ_self n) r hr 0 ⟨le_rfl, zero_lt_one⟩

end Backoff
