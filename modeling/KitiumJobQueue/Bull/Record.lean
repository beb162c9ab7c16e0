import KitiumJobQueue.Bull.Lifecycle
import KitiumJobQueue.Foundations.Systems
import Mathlib.Algebra.Order.Ring.Rat

/-!
# The record of a job

A BullMQ job as it is loaded: besides what `Job` has, the record tells when the job was last taken
by a worker and when it was finished, why it failed, how long it is delayed and how far it is. The
steps of `JobRecord.step` are the life of one job; each says which of these fields it writes.

Left open is the failure reason of a job that does not stay failed: whether an attempt that is tried
again leaves its reason in the record (`recorded`), and whether completing clears it (`cleared`).
-/

namespace KitiumJobQueue.Bull

/-- A loaded job. -/
structure JobRecord extends Job where
  processedOn : Option ℕ := none
  finishedOn : Option ℕ := none
  failedReason : Option String := none
  delay : ℚ := 0
  progress : Json := .num 0

/-- What happens to a job. -/
inductive LifeEvent
  /-- Its delay has passed. -/
  | promote
  /-- A worker takes it. -/
  | start (now : ℕ)
  | updateProgress (progress : Json)
  /-- An attempt fails that is not the last one. -/
  | failAttempt (backoff : ℚ) (reason : String) (recorded : Bool)
  | complete (now : ℕ) (cleared : Bool)
  | failForGood (now : ℕ) (reason : String)
  /-- A failed job is put back by hand. -/
  | retry

namespace JobRecord

/-- A job that has just been added. -/
def added (id name : String) (data : Json) (opts : JobsOptions) (now : ℕ) : JobRecord where
  id := id
  name := name
  data := data
  opts := opts
  attemptsMade := 0
  timestamp := now
  state := Queue.initialState opts
  delay := if opts.delay.getD 0 < 0 then 0 else opts.delay.getD 0

/-- The job is ready to be run. -/
def ready (j : JobRecord) : JobRecord := { j with state := Queue.readyState j.toJob, delay := 0 }

/-- The job waits for its next attempt. -/
def again (j : JobRecord) (backoff : ℚ) : JobRecord :=
  if 0 < backoff then { j with state := .delayed, delay := backoff } else j.ready

/-- One step in the life of a job. -/
def step (j : JobRecord) : LifeEvent → Option JobRecord
  | .promote => if j.state = .delayed then some j.ready else none
  | .start now =>
    if j.state = .waiting ∨ j.state = .prioritized then
      some { j with state := .active, processedOn := some now }
    else none
  | .updateProgress progress => some { j with progress := progress }
  | .failAttempt backoff reason recorded =>
    if j.state = .active ∧ j.hasNextAttempt then
      let j := { j with
        attemptsMade := j.attemptsMade + 1
        failedReason := if recorded then some reason else j.failedReason }
      some (j.again backoff)
    else none
  | .complete now cleared =>
    if j.state = .active then
      some { j with
        state := .completed
        finishedOn := some now
        failedReason := if cleared then none else j.failedReason }
    else none
  | .failForGood now reason =>
    if j.state = .active then
      some { j with
        state := .failed
        attemptsMade := j.attemptsMade + 1
        finishedOn := some now
        failedReason := some reason }
    else none
  | .retry =>
    if j.state = .failed then
      some { j.ready with processedOn := none, finishedOn := none, failedReason := none }
    else none

/-- The life of a job. -/
def life : System JobRecord LifeEvent := ⟨step⟩

/-! ## What the fields say about the state -/

/-- The fields fit the state: only a finished job has the time of its end, and the delay is not zero
exactly while the job waits for it. -/
def Fits (j : JobRecord) : Prop :=
  match j.state with
  | .waiting | .prioritized => j.finishedOn = none ∧ j.delay = 0
  | .delayed => j.finishedOn = none ∧ j.delay ≠ 0
  | .active => j.finishedOn = none ∧ j.delay = 0 ∧ j.processedOn.isSome
  | .completed => j.finishedOn.isSome
  | .failed => j.finishedOn.isSome ∧ j.failedReason.isSome
  | .paused | .waitingChildren => False

theorem fits_ready {j : JobRecord} (h : j.finishedOn = none) : j.ready.Fits := by
  unfold Fits ready Queue.readyState
  dsimp only
  split_ifs
  · exact ⟨h, rfl⟩
  · exact ⟨h, rfl⟩

theorem fits_again {j : JobRecord} (h : j.finishedOn = none) (backoff : ℚ) :
    (j.again backoff).Fits := by
  unfold again
  split
  · next hb => exact ⟨h, hb.ne'⟩
  · exact fits_ready h

theorem fits_added (id name : String) (data : Json) (opts : JobsOptions) (now : ℕ) :
    (added id name data opts now).Fits := by
  unfold Fits added Queue.initialState
  dsimp only
  by_cases hdelay : 0 < opts.delay.getD 0
  · rw [if_pos hdelay, if_neg hdelay.not_gt]
    exact ⟨rfl, hdelay.ne'⟩
  · have hzero : (if opts.delay.getD 0 < 0 then 0 else opts.delay.getD 0) = 0 := by
      split
      · rfl
      · next hneg => exact le_antisymm (not_lt.mp hdelay) (not_lt.mp hneg)
    rw [if_neg hdelay, hzero]
    split_ifs
    · exact ⟨rfl, rfl⟩
    · exact ⟨rfl, rfl⟩

theorem Fits.step {j j' : JobRecord} {e : LifeEvent} (h : j.Fits) (hstep : j.step e = some j') :
    j'.Fits := by
  cases e with
  | promote =>
    obtain ⟨hst, hj⟩ := Option.ite_none_right_eq_some.mp hstep
    obtain rfl := Option.some.inj hj
    rw [Fits, hst] at h
    exact fits_ready h.1
  | start now =>
    obtain ⟨hst, hj⟩ := Option.ite_none_right_eq_some.mp hstep
    obtain rfl := Option.some.inj hj
    have h : j.finishedOn = none ∧ j.delay = 0 := by
      rcases hst with hst | hst <;> rwa [Fits, hst] at h
    exact ⟨h.1, h.2, rfl⟩
  | updateProgress progress =>
    obtain rfl := Option.some.inj hstep
    exact h
  | failAttempt backoff reason recorded =>
    obtain ⟨⟨hst, -⟩, hj⟩ := Option.ite_none_right_eq_some.mp hstep
    obtain rfl := Option.some.inj hj
    rw [Fits, hst] at h
    apply fits_again
    exact h.1
  | complete now cleared =>
    obtain ⟨-, hj⟩ := Option.ite_none_right_eq_some.mp hstep
    obtain rfl := Option.some.inj hj
    exact Option.isSome_some
  | failForGood now reason =>
    obtain ⟨-, hj⟩ := Option.ite_none_right_eq_some.mp hstep
    obtain rfl := Option.some.inj hj
    exact ⟨rfl, rfl⟩
  | retry =>
    obtain ⟨-, hj⟩ := Option.ite_none_right_eq_some.mp hstep
    obtain rfl := Option.some.inj hj
    exact fits_ready (j := { j with processedOn := none, finishedOn := none, failedReason := none })
      rfl

/-- Through the whole life of a job the fields fit the state. -/
theorem fits_of_run {id name : String} {data : Json} {opts : JobsOptions} {now : ℕ}
    {events : List LifeEvent} {j : JobRecord}
    (h : life.runFrom (added id name data opts now) events = some j) : j.Fits :=
  System.invariant (fun _ _ _ hfits hstep => hfits.step hstep) (fits_added id name data opts now) h

end JobRecord

end KitiumJobQueue.Bull
