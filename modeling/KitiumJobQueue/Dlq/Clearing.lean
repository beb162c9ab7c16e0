import KitiumJobQueue.Bull.Lifecycle
import KitiumJobQueue.Dlq.Replay
import KitiumJobQueue.Foundations.Interference

/-!
# Clearing the dead letter queue

`DLQManager.clearDLQ` counts the failed jobs of the primary queue and cleans as many of them, and
returns the number it has counted. For BullMQ the limit `0` means no limit, and `getDLQCount`
answers `0` where its call is rejected. Other clients may act before each of the two calls.

`clearDLQ` never rejects and takes away failed jobs only. `counted_iff` tells when its number is
that of the jobs that go: a count that is rejected empties the dead letter queue unreported.
-/

namespace KitiumJobQueue.Bull.Queue

variable {q : Queue} {rule : CleanRule} {st st' : JobState}

/-- The number of jobs in a state. -/
def countIn (q : Queue) (st : JobState) : ℕ := (q.inState st).length

/-! ## What `clean` takes away -/

theorem countIn_cleanOne (hq : q.ids.Nodup) :
    (q.cleanOne rule st).countIn st = q.countIn st - 1 := by
  unfold cleanOne
  cases hpick : rule.pick (q.inState st) with
  | none =>
    have hnil : q.inState st = [] := by
      by_contra hne
      obtain ⟨j, hj⟩ := rule.pick_of_ne_nil hne
      cases hpick.symm.trans hj
    simp only [countIn, hnil, List.length_nil]
  | some j =>
    obtain ⟨hj, hst⟩ := mem_inState.mp (rule.pick_mem hpick)
    have hperm := (jobs_perm hq hj).filter (·.state = st)
    rw [List.filter_cons_of_pos (by simpa using hst)] at hperm
    have hlength := hperm.length_eq
    rw [List.length_cons] at hlength
    exact (Nat.sub_eq_of_eq_add hlength).symm

theorem inState_cleanOne_of_ne (hq : q.ids.Nodup) (hne : st' ≠ st) :
    (q.cleanOne rule st).inState st' = q.inState st' := by
  unfold cleanOne
  cases hpick : rule.pick (q.inState st) with
  | none => rfl
  | some j =>
    obtain ⟨hj, hst⟩ := mem_inState.mp (rule.pick_mem hpick)
    exact inState_remove_of_state_ne hq hj (hst ▸ hne.symm)

/-- One removal after another, by induction on their number. -/
theorem iterate_cleanOne (hq : q.ids.Nodup) (k : ℕ) :
    ((fun q => cleanOne q rule st)^[k] q).countIn st = q.countIn st - k ∧
      ∀ st' ≠ st, ((fun q => cleanOne q rule st)^[k] q).inState st' = q.inState st' := by
  induction k generalizing q with
  | zero => exact ⟨rfl, fun _ _ => rfl⟩
  | succ k ih =>
    obtain ⟨hcount, hothers⟩ := ih (narrows_cleanOne hq rule st).nodup
    rw [Function.iterate_succ_apply]
    refine ⟨?_, fun st' hne => (hothers st' hne).trans (inState_cleanOne_of_ne hq hne)⟩
    rw [hcount, countIn_cleanOne hq, Nat.sub_sub, Nat.add_comm]

/-- As many jobs go as the limit says, or all of them if it says `0`. -/
theorem countIn_clean (hq : q.ids.Nodup) (rule : CleanRule) (limit : ℕ) (st : JobState) :
    (q.clean rule limit st).countIn st =
      if limit = 0 then 0 else q.countIn st - limit := by
  unfold clean
  rw [(iterate_cleanOne hq _).1]
  split
  · exact Nat.sub_self _
  · rfl

theorem inState_clean_of_ne (hq : q.ids.Nodup) (limit : ℕ) (hne : st' ≠ st) :
    (q.clean rule limit st).inState st' = q.inState st' :=
  (iterate_cleanOne hq _).2 st' hne

end KitiumJobQueue.Bull.Queue

namespace KitiumJobQueue.Dlq

open Effects Bull

section Methods

variable {ε : Type} (dlqConfig : Option DLQConfig) (rule : CleanRule) (others : ℕ → Queue → Queue)
  (answers : ℕ → Answer ε)

/-- `BullMQQueueClient.getCountByState` -/
def getCountByState (state : JobState) : Async ε (Remote Queue) ℕ :=
  callAmid others answers fun q => (q.getJobCountByTypes [state], q)

/-- `BullMQQueueClient.clean` with no grace period, amid other clients. -/
def cleanAmid (limit : ℕ) (state : JobState) : Async ε (Remote Queue) Unit :=
  callAmid others answers fun q => ((), q.clean rule limit state)

/-- `DLQManager.getDLQCount` -/
def getDLQCount : Async ε (Remote Queue) ℕ :=
  if isEnabled dlqConfig then
    tryCatch (getCountByState others answers .failed) fun _ => pure 0
  else pure 0

/-- `DLQManager.clearDLQ` -/
def clearDLQ : Async ε (Remote Queue) ℕ :=
  if isEnabled dlqConfig then
    tryCatch
      (do
        let count ← getDLQCount dlqConfig others answers
        cleanAmid rule others answers count .failed
        pure count)
      fun _ => pure 0
  else pure 0

end Methods

/-! ## The number that is counted -/

section

variable {ε : Type} {dlqConfig : Option DLQConfig} {rule : CleanRule} {others : ℕ → Queue → Queue}
  {answers : ℕ → Answer ε} {q : Queue} {n : ℕ}

theorem getJobCountByTypes_failed (q : Queue) :
    q.getJobCountByTypes [.failed] = q.countIn .failed := by
  rw [Queue.getJobCountByTypes, Queue.sanitizeJobTypes_of_ne_waiting (by decide),
    List.flatMap_singleton]
  rfl

/-- What `getDLQCount` answers of a queue when its call is number `n`. -/
def counted (answers : ℕ → Answer ε) (n : ℕ) (q : Queue) : ℕ :=
  if (answers n).IsAnswered then q.countIn .failed else 0

/-- A rejected count is taken for none. -/
theorem run_getDLQCount (henabled : isEnabled dlqConfig = true) :
    (getDLQCount dlqConfig others answers).run ⟨q, n⟩ =
      (.ok (counted answers n (others n q)), ⟨others n q, n + 1⟩) := by
  rw [getDLQCount, if_pos henabled, getCountByState, counted]
  rcases run_reading others answers q n fun q => q.getJobCountByTypes [.failed] with
    ⟨hanswer, hrun⟩ | ⟨hanswer, e, hrun⟩
  · rw [Async.run_tryCatch_of_ok hrun, if_pos hanswer, getJobCountByTypes_failed]
  · rw [Async.run_tryCatch_of_error hrun, if_neg hanswer]
    rfl

/-! ## Whether it is the number of the jobs that go -/

/-- With `counted` jobs counted, the number that is returned is right for a queue of `failed` failed
jobs, when the removal is answered so: as many go as were counted, and all of them for `0`. -/
def CountsRight (counted failed : ℕ) : Answer ε → Prop
  | .answered => counted ≤ failed ∧ (counted = 0 → failed = 0)
  | .rejected _ applied => applied = true → failed = 0

/-- What is left of the failed jobs. -/
def left (counted failed : ℕ) : ℕ := if counted = 0 then 0 else failed - counted

theorem left_eq_iff (counted failed : ℕ) :
    counted + left counted failed = failed ↔ counted ≤ failed ∧ (counted = 0 → failed = 0) := by
  unfold left
  split <;> omega

theorem left_eq_failed_iff (counted failed : ℕ) : left counted failed = failed ↔ failed = 0 := by
  unfold left
  split <;> omega

/-- **`clearDLQ` always resolves and takes nothing but failed jobs away. The number it returns is
theirs exactly if** no more were counted than are there at the removal, and not `0` while some are
there; and if the removal is rejected, which makes the number `0`, exactly if none goes. After a
count that is rejected, a removal that is answered takes all of them, and `0` is returned. -/
theorem counted_iff (henabled : isEnabled dlqConfig = true)
    (hothers : ∀ n q, q.ids.Nodup → (others n q).ids.Nodup) (hq : q.ids.Nodup) :
    ∃ count s, (clearDLQ dlqConfig rule others answers).run ⟨q, n⟩ = (.ok count, s) ∧
      (∀ st ≠ .failed, s.server.inState st = (seen others q n 2).inState st) ∧
      (count + s.server.countIn .failed = (seen others q n 2).countIn .failed ↔
        CountsRight (counted answers n (others n q)) ((seen others q n 2).countIn .failed)
          (answers (n + 1))) ∧
      (¬ (answers n).IsAnswered → (answers (n + 1)).IsAnswered →
        count = 0 ∧ s.server.countIn .failed = 0) := by
  have hnodup : (seen others q n 2).ids.Nodup := hothers _ _ (hothers _ _ hq)
  have hrun : (getDLQCount dlqConfig others answers).run ⟨q, n⟩ = _ := run_getDLQCount henabled
  rw [clearDLQ, if_pos henabled]
  generalize hcount : counted answers n (others n q) = count at hrun ⊢
  have hkept : ∀ st ≠ .failed,
      ((seen others q n 2).clean rule count .failed).inState st = (seen others q n 2).inState st :=
    fun st hne => Queue.inState_clean_of_ne hnodup count hne
  have hleft : ((seen others q n 2).clean rule count .failed).countIn .failed =
      left count ((seen others q n 2).countIn .failed) := Queue.countIn_clean hnodup rule count _
  have hzero (hrejected : ¬ (answers n).IsAnswered) : count = 0 :=
    hcount.symm.trans (if_neg hrejected)
  cases hanswer : answers (n + 1) with
  | answered =>
    refine ⟨count, ⟨(seen others q n 2).clean rule count .failed, n + 2⟩, ?_, hkept, ?_,
      fun hrejected _ => ⟨hzero hrejected, ?_⟩⟩
    · refine Async.run_tryCatch_of_ok ((Async.run_bind_of_ok hrun).trans ?_)
      exact Async.run_bind_of_ok (run_callAmid_of_answered (hanswer ▸ trivial))
    · rw [hleft]
      exact left_eq_iff _ _
    · rw [hleft, left, if_pos (hzero hrejected)]
  | rejected e applied =>
    refine ⟨0, ⟨if applied then (seen others q n 2).clean rule count .failed
      else seen others q n 2, n + 2⟩, ?_, ?_, ?_, fun _ hanswered => hanswered.elim⟩
    · exact Async.run_tryCatch_of_error ((Async.run_bind_of_ok hrun).trans
        (Async.run_bind_of_error (run_callAmid_of_rejected hanswer)))
    · cases applied with
      | true => exact hkept
      | false => exact fun _ _ => rfl
    · rw [Nat.zero_add]
      cases applied with
      | true => exact (hleft ▸ left_eq_failed_iff _ _).trans ⟨fun h _ => h, fun h => h rfl⟩
      | false => exact iff_of_true rfl fun h => absurd h Bool.false_ne_true

end

/-! ## A count that fails -/

/-- The first call is rejected. -/
def firstRejected : ℕ → Answer String
  | 0 => .rejected "ECONNRESET" false
  | _ + 1 => .answered

/-- **Both failed jobs go, and none is reported.** -/
theorem not_counted_of_rejected :
    (failedQueue 2).countIn .failed = 2 ∧
      ∃ s, (clearDLQ (some { enabled := true }) .oldest (fun _ => id) firstRejected).run
          ⟨failedQueue 2, 0⟩ = (.ok 0, s) ∧ s.server.countIn .failed = 0 := by
  obtain ⟨count, s, hrun, -, -, hall⟩ := @counted_iff String (some { enabled := true }) .oldest
    (fun _ => id) firstRejected (failedQueue 2) 0 rfl
    (fun _ _ h => h) (primary_failedQueue 2).wellFormed.nodup
  obtain ⟨rfl, hnone⟩ := hall id trivial
  exact ⟨by decide, s, hrun, hnone⟩

end KitiumJobQueue.Dlq
