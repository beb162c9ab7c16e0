import KitiumJobQueue.Foundations.Effects

/-!
# Loops without a bound

`Loops body s r s'` says that the loop which runs `body` again and again, begun at `s`, ends with
`r` at `s'`. A round that gives `none` is followed by another; one that gives a value leaves the
loop with it, and one that rejects leaves it too. Nothing limits the number of rounds: that a loop
ends is that there is such an `r` (`exists_loops`), which a measure shows that every further round
lowers. `Loops.credit` bounds what the rounds use up together.
-/

namespace Effects.Async

variable {ε σ α : Type}

/-- The loop that runs `body`, begun at `s`, ends with `r` at `s'`. -/
inductive Loops (body : Async ε σ (Option α)) : σ → Except ε α → σ → Prop
  | leave {s s' : σ} {a : α} (h : body.run s = (.ok (some a), s')) : Loops body s (.ok a) s'
  | fail {s s' : σ} {e : ε} (h : body.run s = (.error e, s')) : Loops body s (.error e) s'
  | again {s s₁ s' : σ} {r : Except ε α} (h : body.run s = (.ok none, s₁))
      (rest : Loops body s₁ r s') : Loops body s r s'

variable {body : Async ε σ (Option α)} {s s₁ s' : σ} {r : Except ε α}

theorem loops_iff_of_leave {a : α} (h : body.run s = (.ok (some a), s₁)) :
    Loops body s r s' ↔ r = .ok a ∧ s' = s₁ := by
  constructor
  · intro hloop
    cases hloop with
    | leave h' => cases h.symm.trans h'; exact ⟨rfl, rfl⟩
    | fail h' => cases h.symm.trans h'
    | again h' => cases h.symm.trans h'
  · rintro ⟨rfl, rfl⟩
    exact .leave h

theorem loops_iff_of_fail {e : ε} (h : body.run s = (.error e, s₁)) :
    Loops body s r s' ↔ r = .error e ∧ s' = s₁ := by
  constructor
  · intro hloop
    cases hloop with
    | leave h' => cases h.symm.trans h'
    | fail h' => cases h.symm.trans h'; exact ⟨rfl, rfl⟩
    | again h' => cases h.symm.trans h'
  · rintro ⟨rfl, rfl⟩
    exact .fail h

theorem loops_iff_of_again (h : body.run s = (.ok none, s₁)) :
    Loops body s r s' ↔ Loops body s₁ r s' := by
  constructor
  · intro hloop
    cases hloop with
    | leave h' => cases h.symm.trans h'
    | fail h' => cases h.symm.trans h'
    | again h' rest => cases h.symm.trans h'; exact rest
  · exact .again h

/-- A loop ends in one way. -/
theorem Loops.unique {r' : Except ε α} {s'' : σ} (h : Loops body s r s')
    (h' : Loops body s r' s'') : r' = r ∧ s'' = s' := by
  induction h with
  | leave h => exact (loops_iff_of_leave h).mp h'
  | fail h => exact (loops_iff_of_fail h).mp h'
  | again h _ ih => exact ih ((loops_iff_of_again h).mp h')

/-- **Termination.** A loop ends if every round that is followed by another lowers a measure. -/
theorem exists_loops (μ : σ → ℕ)
    (hμ : ∀ s s₁, body.run s = (.ok none, s₁) → μ s₁ < μ s) (s : σ) :
    ∃ r s', Loops body s r s' := by
  induction hn : μ s using Nat.strongRecOn generalizing s with
  | _ n ih =>
    cases hrun : body.run s with
    | mk r s₁ =>
      cases r with
      | error e => exact ⟨.error e, s₁, .fail hrun⟩
      | ok a =>
        cases a with
        | some a => exact ⟨.ok a, s₁, .leave hrun⟩
        | none =>
          obtain ⟨r, s', hloop⟩ := ih (μ s₁) (hn ▸ hμ s s₁ hrun) s₁ rfl
          exact ⟨r, s', .again hrun hloop⟩

/-- What a round is to establish: the invariant where another round follows, and what is wanted of
the loop where it ends. -/
def Round (P : σ → Prop) (Q : Except ε α → σ → Prop) : Except ε (Option α) × σ → Prop
  | (.ok none, s) => P s
  | (.ok (some a), s) => Q (.ok a) s
  | (.error e, s) => Q (.error e) s

/-- **The rule for loops.** A loop establishes what each of its rounds does. -/
theorem Loops.rule {P : σ → Prop} {Q : Except ε α → σ → Prop}
    (hbody : ∀ s, P s → Round P Q (body.run s)) (h : Loops body s r s') (hs : P s) : Q r s' := by
  induction h with
  | @leave s s' a h =>
    have hround := hbody s hs
    rwa [h] at hround
  | @fail s s' e h =>
    have hround := hbody s hs
    rwa [h] at hround
  | @again s s₁ s' r h _ ih =>
    have hround := hbody s hs
    rw [h] at hround
    exact ih hround

/-- What every round preserves holds in the end. -/
theorem Loops.preserves {I : σ → Prop} (hI : Preserves I body) (h : Loops body s r s') (hs : I s) :
    I s' := by
  refine Loops.rule (P := I) (Q := fun _ s' => I s') (fun s hs => ?_) h hs
  have hround := hI s hs
  unfold Round
  split
  all_goals simp_all

/-- **What the rounds use up.** What no round raises that is followed by another, and no round at
all by more than `c`, is raised by no more than `c` in the end. -/
theorem Loops.credit {μ : σ → ℕ} {c : ℕ}
    (hagain : ∀ s s₁, body.run s = (.ok none, s₁) → μ s₁ ≤ μ s)
    (hround : ∀ s, μ (body.run s).2 ≤ μ s + c) (h : Loops body s r s') : μ s' ≤ μ s + c := by
  induction h with
  | @leave s s' a h =>
    have hlast := hround s
    rwa [h] at hlast
  | @fail s s' e h =>
    have hlast := hround s
    rwa [h] at hlast
  | again h _ ih => exact Nat.le_trans ih (Nat.add_le_add_right (hagain _ _ h) c)

end Effects.Async
