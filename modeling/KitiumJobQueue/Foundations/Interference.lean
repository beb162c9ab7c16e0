import KitiumJobQueue.Foundations.Effects

/-!
# Calls amid other clients

A service that others use as well may have changed when a call reaches it. `callAmid` takes what the
others do before each call as a function of its number. A method that only reads is answered of the
service as the others have left it (`seen`), and where there are no others the call is a plain one
(`callAmid_id`).
-/

namespace Effects

variable {ε σ α : Type}

/-- A call that reaches the service as `others` have left it. -/
def callAmid (others : ℕ → σ → σ) (answers : ℕ → Answer ε) (op : σ → α × σ) :
    Async ε (Remote σ) α where
  run r := (call answers op).run ⟨others r.calls r.server, r.calls⟩

/-- The service as the `i`-th call from number `n` on meets it, if only the others change it. -/
def seen (others : ℕ → σ → σ) (s : σ) (n : ℕ) : ℕ → σ
  | 0 => s
  | i + 1 => others (n + i) (seen others s n i)

variable {others : ℕ → σ → σ} {answers : ℕ → Answer ε} {op : σ → α × σ} {s : σ} {n : ℕ}

theorem callAmid_id (answers : ℕ → Answer ε) (op : σ → α × σ) :
    callAmid (fun _ => id) answers op = call answers op := rfl

@[simp] theorem seen_id (s : σ) (n i : ℕ) : seen (fun _ => id) s n i = s := by
  induction i with
  | zero => rfl
  | succ i ih => exact ih

/-- What comes after the first call. -/
theorem seen_succ (others : ℕ → σ → σ) (s : σ) (n i : ℕ) :
    seen others (others n s) (n + 1) i = seen others s n (i + 1) := by
  induction i with
  | zero => rfl
  | succ i ih =>
    show others (n + 1 + i) (seen others (others n s) (n + 1) i) = _
    rw [ih, Nat.add_assoc, Nat.add_comm 1 i]
    rfl

theorem run_callAmid_of_answered (h : (answers n).IsAnswered) :
    (callAmid others answers op).run ⟨s, n⟩ =
      (.ok (op (others n s)).1, ⟨(op (others n s)).2, n + 1⟩) :=
  run_call_of_answered (r := ⟨others n s, n⟩) h.eq

theorem run_callAmid_of_rejected {e : ε} {applied : Bool} (h : answers n = .rejected e applied) :
    (callAmid others answers op).run ⟨s, n⟩ =
      (.error e, ⟨if applied then (op (others n s)).2 else others n s, n + 1⟩) :=
  run_call_of_rejected (r := ⟨others n s, n⟩) h

/-- A call that only reads leaves the service as the others have left it. -/
theorem run_reading (others : ℕ → σ → σ) (answers : ℕ → Answer ε) (s : σ) (n : ℕ)
    (read : σ → α) :
    (answers n).IsAnswered ∧ (callAmid others answers fun s => (read s, s)).run ⟨s, n⟩ =
        (.ok (read (others n s)), ⟨others n s, n + 1⟩) ∨
      ¬ (answers n).IsAnswered ∧ ∃ e, (callAmid others answers fun s => (read s, s)).run ⟨s, n⟩ =
        (.error e, ⟨others n s, n + 1⟩) := by
  cases hanswer : answers n with
  | answered => exact .inl ⟨trivial, run_callAmid_of_answered (hanswer ▸ trivial)⟩
  | rejected e applied =>
    refine .inr ⟨id, e, ?_⟩
    rw [run_callAmid_of_rejected hanswer]
    exact congrArg (fun server => (_, Remote.mk server _)) (ite_self _)

end Effects
