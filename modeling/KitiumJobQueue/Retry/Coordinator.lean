import KitiumJobQueue.Bull.Lifecycle
import KitiumJobQueue.Retry.Strategies
import Mathlib.Algebra.Order.Floor.Semiring
import Mathlib.Data.Rat.Floor

/-!
# The retry coordinator

`JobRetryCoordinator`, which asks a strategy whether a failed job is retried and after which delay;
the delay is logged, the queue does the retry. A job that fails again and again is retried as often
as it has attempts left, and the delays only grow (`length_retryDelays`, `pairwise_retryDelays`).
-/

namespace KitiumJobQueue.Retry

open Bull

/-- `{ delay: config.backoffDelay, maxDelay: config.maxBackoffDelay }` -/
def RetryConfig.backoff (config : RetryConfig) : BackoffConfig where
  delay := .literal config.backoffDelay.toOption
  maxDelay := .literal config.maxBackoffDelay.toOption

/-- `JobRetryCoordinator` -/
structure JobRetryCoordinator where
  strategy : RetryStrategy

namespace JobRetryCoordinator

section

variable (coordinator : JobRetryCoordinator) (random : ℚ) (job : Job) (config : RetryConfig)

/-- `JobRetryCoordinator.getRetryDelay` -/
def getRetryDelay : ℚ := coordinator.strategy.calculateDelay random job.attemptsMade config.backoff

/-- `JobRetryCoordinator.handleFailure`: its answer, with the delay it logs for a retry. -/
def handleFailure : Bool × Option ℚ :=
  if coordinator.strategy.shouldRetry job config then
    (true, some (coordinator.strategy.calculateDelay random job.attemptsMade config.backoff))
  else (false, none)

/-- `JobRetryCoordinator.canRetry` -/
def canRetry (_ : JobRetryCoordinator) : Bool := job.attemptsMade < config.maxAttempts.getD 3

/-- `JobRetryCoordinator.getRemainingAttempts` -/
def getRemainingAttempts (_ : JobRetryCoordinator) : ℚ :=
  max 0 (config.maxAttempts.getD 3 - job.attemptsMade)

/-- The delays of the retries of a job at which `failures` attempts fail; `draws n` is what is drawn
after `n` attempts. -/
def retryDelays (draws : ℕ → ℚ) : (failures : ℕ) → Job → List ℚ
  | 0, _ => []
  | failures + 1, job =>
    match coordinator.handleFailure (draws job.attemptsMade) job config with
    | (true, some delay) => delay :: retryDelays draws failures (job.failedAttempt .delayed)
    | _ => []

/-- A job is retried exactly if it can be, after the delay that `getRetryDelay` calculates. -/
theorem handleFailure_eq : coordinator.handleFailure random job config =
    if coordinator.canRetry job config then
      (true, some (coordinator.getRetryDelay random job config))
    else (false, none) := by
  rw [handleFailure, RetryStrategy.shouldRetry_eq]
  rfl

/-- A job can be retried exactly if it has an attempt left. -/
theorem canRetry_iff :
    coordinator.canRetry job config = true ↔ 0 < coordinator.getRemainingAttempts job config := by
  rw [canRetry, decide_eq_true_iff, getRemainingAttempts, lt_max_iff, sub_pos]
  exact (or_iff_right (lt_irrefl 0)).symm

end

section Run

variable {coordinator : JobRetryCoordinator} {config : RetryConfig} {draws : ℕ → ℚ}

theorem retryDelays_succ (failures : ℕ) (job : Job) :
    coordinator.retryDelays config draws (failures + 1) job =
      if coordinator.canRetry job config then
        coordinator.getRetryDelay (draws job.attemptsMade) job config ::
          coordinator.retryDelays config draws failures (job.failedAttempt .delayed)
      else [] := by
  rw [retryDelays, handleFailure_eq]
  by_cases h : coordinator.canRetry job config
  · rw [if_pos h, if_pos h]
  · rw [if_neg h, if_neg h]

/-- Every delay is calculated for an attempt that the job has not made yet. -/
theorem exists_of_mem_retryDelays {failures : ℕ} {job : Job} {d : ℚ}
    (h : d ∈ coordinator.retryDelays config draws failures job) :
    ∃ attempt, job.attemptsMade ≤ attempt ∧
      d = coordinator.strategy.calculateDelay (draws attempt) attempt config.backoff := by
  induction failures generalizing job with
  | zero => exact absurd h List.not_mem_nil
  | succ failures ih =>
    rw [retryDelays_succ] at h
    split at h
    · rcases List.mem_cons.mp h with rfl | h
      · exact ⟨job.attemptsMade, le_rfl, rfl⟩
      · obtain ⟨attempt, hattempt, heq⟩ := ih h
        exact ⟨attempt, (Nat.le_succ _).trans hattempt, heq⟩
    · exact absurd h List.not_mem_nil

/-- **No delay is shorter than the one before.** -/
theorem pairwise_retryDelays (hdelay : 0 ≤ config.backoff.baseDelay)
    (hdraws : ∀ n, draws n ∈ Set.Ico (0 : ℚ) 1) (failures : ℕ) (job : Job) :
    (coordinator.retryDelays config draws failures job).Pairwise (· ≤ ·) := by
  induction failures generalizing job with
  | zero => exact .nil
  | succ failures ih =>
    rw [retryDelays_succ]
    split
    · refine List.pairwise_cons.mpr ⟨fun d hd => ?_, ih _⟩
      obtain ⟨attempt, hattempt, rfl⟩ := exists_of_mem_retryDelays hd
      exact coordinator.strategy.calculateDelay_le_of_lt hdelay hattempt
        (hdraws job.attemptsMade).2.le (hdraws attempt).1
    · exact .nil

theorem mem_Icc_of_mem_retryDelays (hdelay : 0 ≤ config.backoff.baseDelay)
    (hcap : 0 ≤ config.backoff.cap) (hdraws : ∀ n, draws n ∈ Set.Ico (0 : ℚ) 1) {failures : ℕ}
    {job : Job} {d : ℚ} (h : d ∈ coordinator.retryDelays config draws failures job) :
    d ∈ Set.Icc 0 config.backoff.cap := by
  obtain ⟨attempt, -, rfl⟩ := exists_of_mem_retryDelays h
  exact ⟨coordinator.strategy.calculateDelay_nonneg hdelay hcap (hdraws attempt).1 attempt,
    coordinator.strategy.calculateDelay_le_cap _ _⟩

/-- A job that keeps failing is retried as often as it has attempts left. -/
theorem length_retryDelays (failures : ℕ) (job : Job) :
    (coordinator.retryDelays config draws failures job).length =
      min failures ⌈coordinator.getRemainingAttempts job config⌉₊ := by
  have hceil (job : Job) : ⌈coordinator.getRemainingAttempts job config⌉₊ =
      ⌈config.maxAttempts.getD 3⌉₊ - job.attemptsMade := by
    rw [getRemainingAttempts, Nat.ceil_mono.map_max, Nat.ceil_zero, Nat.ceil_sub_natCast]
    exact Nat.zero_max _
  induction failures generalizing job with
  | zero => rw [Nat.zero_min]; rfl
  | succ failures ih =>
    rw [retryDelays_succ, hceil]
    split
    · next h =>
      have hlt : job.attemptsMade < ⌈config.maxAttempts.getD 3⌉₊ :=
        Nat.lt_ceil.mpr (of_decide_eq_true h)
      rw [List.length_cons, ih, hceil]
      change min failures (⌈config.maxAttempts.getD 3⌉₊ - (job.attemptsMade + 1)) + 1 = _
      omega
    · next h =>
      have hle : ⌈config.maxAttempts.getD 3⌉₊ ≤ job.attemptsMade :=
        Nat.ceil_le.mpr (not_lt.mp fun hlt => h (decide_eq_true hlt))
      rw [List.length_nil]
      omega

end Run

end JobRetryCoordinator

end KitiumJobQueue.Retry
