import KitiumJobQueue.Bull.Queue
import KitiumJobQueue.Foundations.Backoff
import KitiumJobQueue.Foundations.JavaScript
import Mathlib.Tactic.NormNum

/-!
# The retry strategies

`ExponentialBackoffStrategy`, `LinearBackoffStrategy` and `ExponentialBackoffWithJitterStrategy`.
Numbers are rationals and arithmetic is exact; what `Math.random()` returns is an argument.

Each `calculateDelay` is a jittered and capped delay of the library (`calculateDelay_eq`), and the
doubling makes up for a jitter up to the bound that the constructor of the third class sets
(`outgrows_exponentialDelay_iff`). So delays never get shorter from one attempt to a later one
(`delays_ordered`).
-/

namespace KitiumJobQueue.Retry

open Bull JavaScript

/-! ## Configurations -/

/-- What a strategy reads of a `RetryConfig`. -/
structure RetryConfig where
  maxAttempts : OptionalField ℚ := .absent
  backoffDelay : OptionalField ℚ := .absent
  maxBackoffDelay : OptionalField ℚ := .absent

/-- What a strategy reads of a `BackoffConfig`; a caller that is not type checked may leave out the
delay as well. -/
structure BackoffConfig where
  delay : OptionalField ℚ := .absent
  maxDelay : OptionalField ℚ := .absent

/-- `config.delay ?? 1000` -/
def BackoffConfig.baseDelay (config : BackoffConfig) : ℚ := config.delay.getD 1000

/-- `config.maxDelay ?? 60000` -/
def BackoffConfig.cap (config : BackoffConfig) : ℚ := config.maxDelay.getD 60000

/-- What the three `shouldRetry` do. -/
def attemptsRemain (job : Job) (config : RetryConfig) : Bool :=
  job.attemptsMade < config.maxAttempts.getD 3

/-! ## Without jitter -/

/-- `baseDelay * 2**attempt` -/
def exponentialDelay (config : BackoffConfig) (attempt : ℕ) : ℚ := config.baseDelay * 2 ^ attempt

/-- `baseDelay * (1 + attempt)` -/
def linearDelay (config : BackoffConfig) (attempt : ℕ) : ℚ := config.baseDelay * (1 + attempt)

namespace ExponentialBackoffStrategy

/-- `ExponentialBackoffStrategy.shouldRetry` -/
def shouldRetry (job : Job) (config : RetryConfig) : Bool := attemptsRemain job config

/-- `ExponentialBackoffStrategy.calculateDelay` -/
def calculateDelay (attempt : ℕ) (config : BackoffConfig) : ℚ :=
  min (exponentialDelay config attempt) config.cap

end ExponentialBackoffStrategy

namespace LinearBackoffStrategy

/-- `LinearBackoffStrategy.shouldRetry` -/
def shouldRetry (job : Job) (config : RetryConfig) : Bool := attemptsRemain job config

/-- `LinearBackoffStrategy.calculateDelay` -/
def calculateDelay (attempt : ℕ) (config : BackoffConfig) : ℚ :=
  min (linearDelay config attempt) config.cap

end LinearBackoffStrategy

/-! ## With jitter -/

/-- `ExponentialBackoffWithJitterStrategy`, with what its constructor makes sure of. -/
structure ExponentialBackoffWithJitterStrategy where
  jitterPercentage : ℚ
  nonneg : 0 ≤ jitterPercentage
  le_one : jitterPercentage ≤ 1

namespace ExponentialBackoffWithJitterStrategy

/-- The error of the constructor. -/
def jitterOutOfRange (stack : String) : JsError where
  message := "Jitter percentage must be between 0 and 1"
  stack := some stack

/-- The constructor; the argument is `0.1` by default. -/
def new (stack : String) (argument : Option ℚ) :
    Except JsError ExponentialBackoffWithJitterStrategy :=
  let jitterPercentage := argument.getD (1 / 10)
  if h : jitterPercentage < 0 ∨ 1 < jitterPercentage then .error (jitterOutOfRange stack)
  else .ok ⟨jitterPercentage, not_lt.mp (not_or.mp h).1, not_lt.mp (not_or.mp h).2⟩

/-- `ExponentialBackoffWithJitterStrategy.shouldRetry` -/
def shouldRetry (_ : ExponentialBackoffWithJitterStrategy) (job : Job) (config : RetryConfig) :
    Bool :=
  attemptsRemain job config

/-- `ExponentialBackoffWithJitterStrategy.calculateDelay`; `random` is what `Math.random()`
returns. -/
def calculateDelay (strategy : ExponentialBackoffWithJitterStrategy) (random : ℚ) (attempt : ℕ)
    (config : BackoffConfig) : ℚ :=
  let jitter := random * exponentialDelay config attempt * strategy.jitterPercentage
  let delayWithJitter := exponentialDelay config attempt + jitter
  min delayWithJitter config.cap

/-- The constructor returns a strategy with its argument, if that is between zero and one. -/
theorem new_eq_ok_iff {stack : String} {argument : Option ℚ}
    {strategy : ExponentialBackoffWithJitterStrategy} :
    new stack argument = .ok strategy ↔ strategy.jitterPercentage = argument.getD (1 / 10) := by
  obtain ⟨jitterPercentage, hnonneg, hle⟩ := strategy
  unfold new
  dsimp only
  split
  · next h =>
    refine iff_of_false nofun fun heq => ?_
    rw [← heq] at h
    exact h.elim hnonneg.not_gt hle.not_gt
  · rw [Except.ok.injEq, mk.injEq, eq_comm]

end ExponentialBackoffWithJitterStrategy

/-! ## The interface -/

/-- The classes that implement `IJobRetryStrategy`. -/
inductive RetryStrategy
  | exponentialBackoff
  | linearBackoff
  | exponentialBackoffWithJitter (strategy : ExponentialBackoffWithJitterStrategy)

namespace RetryStrategy

/-- `IJobRetryStrategy.shouldRetry` -/
def shouldRetry : RetryStrategy → Job → RetryConfig → Bool
  | .exponentialBackoff => ExponentialBackoffStrategy.shouldRetry
  | .linearBackoff => LinearBackoffStrategy.shouldRetry
  | .exponentialBackoffWithJitter strategy => strategy.shouldRetry

/-- `IJobRetryStrategy.calculateDelay` -/
def calculateDelay : RetryStrategy → (random : ℚ) → ℕ → BackoffConfig → ℚ
  | .exponentialBackoff, _ => ExponentialBackoffStrategy.calculateDelay
  | .linearBackoff, _ => LinearBackoffStrategy.calculateDelay
  | .exponentialBackoffWithJitter strategy, random => strategy.calculateDelay random

/-- The jitter of a strategy. -/
def jitter : RetryStrategy → ℚ
  | .exponentialBackoff | .linearBackoff => 0
  | .exponentialBackoffWithJitter strategy => strategy.jitterPercentage

/-- The delay before jitter and cap. -/
def plainDelay : RetryStrategy → BackoffConfig → ℕ → ℚ
  | .exponentialBackoff | .exponentialBackoffWithJitter _ => exponentialDelay
  | .linearBackoff => linearDelay

theorem shouldRetry_eq (strategy : RetryStrategy) (job : Job) (config : RetryConfig) :
    strategy.shouldRetry job config = attemptsRemain job config := by
  cases strategy <;> rfl

/-- What is calculated is the delay of the library. -/
theorem calculateDelay_eq (strategy : RetryStrategy) (random : ℚ) (attempt : ℕ)
    (config : BackoffConfig) :
    strategy.calculateDelay random attempt config =
      Backoff.delay config.cap strategy.jitter (strategy.plainDelay config) random attempt := by
  cases strategy with
  | exponentialBackoff =>
    rw [Backoff.delay, jitter, Backoff.jittered_zero]
    rfl
  | linearBackoff =>
    rw [Backoff.delay, jitter, Backoff.jittered_zero]
    rfl
  | exponentialBackoffWithJitter strategy => rfl

theorem jitter_nonneg (strategy : RetryStrategy) : 0 ≤ strategy.jitter := by
  cases strategy with
  | exponentialBackoff => exact le_rfl
  | linearBackoff => exact le_rfl
  | exponentialBackoffWithJitter strategy => exact strategy.nonneg

end RetryStrategy

/-! ## Growth -/

section Growth

variable {config : BackoffConfig} {j : ℚ}

theorem exponentialDelay_nonneg (h : 0 ≤ config.baseDelay) (attempt : ℕ) :
    0 ≤ exponentialDelay config attempt := mul_nonneg h (pow_nonneg zero_le_two attempt)

theorem linearDelay_nonneg (h : 0 ≤ config.baseDelay) (attempt : ℕ) :
    0 ≤ linearDelay config attempt :=
  mul_nonneg h (add_nonneg zero_le_one attempt.cast_nonneg)

theorem exponentialDelay_succ (config : BackoffConfig) (attempt : ℕ) :
    exponentialDelay config (attempt + 1) = (1 + 1) * exponentialDelay config attempt := by
  rw [exponentialDelay, exponentialDelay, pow_succ]
  ring

/-- Doubling makes up for a jitter of the whole delay. -/
theorem outgrows_exponentialDelay (h : 0 ≤ config.baseDelay) (hj : j ≤ 1) :
    Backoff.Outgrows j (exponentialDelay config) := by
  intro attempt
  rw [exponentialDelay_succ]
  exact mul_le_mul_of_nonneg_right (add_le_add_right hj 1) (exponentialDelay_nonneg h attempt)

/-- It makes up for no more. -/
theorem outgrows_exponentialDelay_iff (h : 0 < config.baseDelay) :
    Backoff.Outgrows j (exponentialDelay config) ↔ j ≤ 1 := by
  refine ⟨fun houtgrows => ?_, outgrows_exponentialDelay h.le⟩
  have hfirst : (1 + j) * exponentialDelay config 0 ≤ (1 + 1) * exponentialDelay config 0 := by
    rw [← exponentialDelay_succ]
    exact houtgrows 0
  have hpos : 0 < exponentialDelay config 0 := mul_pos h (pow_pos zero_lt_two 0)
  exact le_of_add_le_add_left (le_of_mul_le_mul_right hfirst hpos)

/-- The bound that the constructor sets to the jitter is the last at which delays without a cap are
ordered whatever is drawn. -/
theorem jittered_exponentialDelay_le_iff (h : 0 < config.baseDelay) (hj : 0 ≤ j) :
    (∀ a b, a < b → ∀ r ∈ Set.Ico (0 : ℚ) 1, ∀ s ∈ Set.Ico (0 : ℚ) 1,
      Backoff.jittered j r (exponentialDelay config a) ≤
        Backoff.jittered j s (exponentialDelay config b)) ↔ j ≤ 1 :=
  (Backoff.outgrows_iff hj (exponentialDelay_nonneg h.le)).symm.trans
    (outgrows_exponentialDelay_iff h)

theorem outgrows_linearDelay (h : 0 ≤ config.baseDelay) :
    Backoff.Outgrows 0 (linearDelay config) := by
  intro attempt
  rw [add_zero, one_mul, linearDelay, linearDelay, Nat.cast_succ]
  exact mul_le_mul_of_nonneg_left (add_le_add_right (le_add_of_nonneg_right zero_le_one) 1) h

theorem RetryStrategy.plainDelay_nonneg (strategy : RetryStrategy) (h : 0 ≤ config.baseDelay)
    (attempt : ℕ) : 0 ≤ strategy.plainDelay config attempt := by
  cases strategy with
  | exponentialBackoff => exact exponentialDelay_nonneg h attempt
  | linearBackoff => exact linearDelay_nonneg h attempt
  | exponentialBackoffWithJitter strategy => exact exponentialDelay_nonneg h attempt

theorem RetryStrategy.outgrows_plainDelay (strategy : RetryStrategy) (h : 0 ≤ config.baseDelay) :
    Backoff.Outgrows strategy.jitter (strategy.plainDelay config) := by
  cases strategy with
  | exponentialBackoff => exact outgrows_exponentialDelay h zero_le_one
  | linearBackoff => exact outgrows_linearDelay h
  | exponentialBackoffWithJitter strategy => exact outgrows_exponentialDelay h strategy.le_one

namespace RetryStrategy

variable (strategy : RetryStrategy) {r s : ℚ} {a b : ℕ}

theorem calculateDelay_nonneg (h : 0 ≤ config.baseDelay) (hcap : 0 ≤ config.cap) (hr : 0 ≤ r)
    (attempt : ℕ) : 0 ≤ strategy.calculateDelay r attempt config := by
  rw [strategy.calculateDelay_eq]
  exact Backoff.delay_nonneg strategy.jitter_nonneg hr (strategy.plainDelay_nonneg h) hcap attempt

theorem calculateDelay_le_cap (r : ℚ) (attempt : ℕ) :
    strategy.calculateDelay r attempt config ≤ config.cap := by
  rw [strategy.calculateDelay_eq]
  exact Backoff.delay_le_cap r attempt

/-- A later attempt does not wait less than an earlier one. -/
theorem calculateDelay_le_of_lt (h : 0 ≤ config.baseDelay) (hab : a < b) (hr : r ≤ 1)
    (hs : 0 ≤ s) : strategy.calculateDelay r a config ≤ strategy.calculateDelay s b config := by
  rw [strategy.calculateDelay_eq, strategy.calculateDelay_eq]
  exact (strategy.outgrows_plainDelay h).delay_le_delay strategy.jitter_nonneg
    (strategy.plainDelay_nonneg h) hab hr hs

end RetryStrategy

end Growth

/-! ## The result -/

/-- **Delays never get shorter.** A strategy delays every attempt within the cap and no later one
less, whatever is drawn for the two; jitter lengthens a delay by its percentage at most. -/
theorem delays_ordered {config : BackoffConfig} (hdelay : 0 ≤ config.baseDelay)
    (hcap : 0 ≤ config.cap) {a b : ℕ} (hab : a < b) {r s : ℚ} (hr : r ∈ Set.Ico (0 : ℚ) 1)
    (hs : s ∈ Set.Ico (0 : ℚ) 1) :
    (∀ strategy : RetryStrategy,
      0 ≤ strategy.calculateDelay r a config ∧
        strategy.calculateDelay r a config ≤ strategy.calculateDelay s b config ∧
        strategy.calculateDelay s b config ≤ config.cap) ∧
      ∀ (strategy : ExponentialBackoffWithJitterStrategy) (attempt : ℕ),
        min (exponentialDelay config attempt) config.cap ≤
            strategy.calculateDelay r attempt config ∧
          strategy.calculateDelay r attempt config ≤
            min ((1 + strategy.jitterPercentage) * exponentialDelay config attempt) config.cap := by
  refine ⟨fun strategy => ?_, fun strategy attempt => ?_⟩
  · exact ⟨strategy.calculateDelay_nonneg hdelay hcap hr.1 a,
      strategy.calculateDelay_le_of_lt hdelay hab hr.2.le hs.1, strategy.calculateDelay_le_cap s b⟩
  · have hplain := exponentialDelay_nonneg hdelay
    exact ⟨Backoff.min_le_delay strategy.nonneg hr.1 hplain attempt,
      Backoff.delay_le_min strategy.nonneg hr.2.le hplain attempt⟩

/-- Half of the jitter is drawn for the first retry, and none for the second. -/
theorem delays_ordered_half :
    ∃ strategy, ExponentialBackoffWithJitterStrategy.new "" (some (1 / 2)) = .ok strategy ∧
      strategy.calculateDelay (1 / 2) 1 { delay := .value 100 } = 250 ∧
      strategy.calculateDelay 0 2 { delay := .value 100 } = 400 ∧
      strategy.calculateDelay (1 / 2) 1 { delay := .value 100 } ≤
        strategy.calculateDelay 0 2 { delay := .value 100 } := by
  let strategy : ExponentialBackoffWithJitterStrategy := ⟨1 / 2, by norm_num, by norm_num⟩
  refine ⟨strategy, ExponentialBackoffWithJitterStrategy.new_eq_ok_iff.mpr rfl, by decide +kernel,
    by decide +kernel, ?_⟩
  have hdelay : 0 ≤ ({ delay := .value 100 } : BackoffConfig).baseDelay := by decide +kernel
  have hcap : 0 ≤ ({ delay := .value 100 } : BackoffConfig).cap := by decide +kernel
  have hhalf : (1 / 2 : ℚ) ∈ Set.Ico (0 : ℚ) 1 := ⟨by norm_num, by norm_num⟩
  have hzero : (0 : ℚ) ∈ Set.Ico (0 : ℚ) 1 := ⟨le_rfl, zero_lt_one⟩
  have hordered := (delays_ordered hdelay hcap Nat.one_lt_two hhalf hzero).1
  exact (hordered (.exponentialBackoffWithJitter strategy)).2.1

end KitiumJobQueue.Retry
