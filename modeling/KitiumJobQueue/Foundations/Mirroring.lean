import KitiumJobQueue.Foundations.Coroutines

/-!
# Methods that mirror computations

A program may be translated twice: as coroutines, any number of which overlap, and as computations
that run from their beginning to their end. `Mirrors serve T T' m m'` connects a method to a
computation: started in states that match by `T`, the method on its own ends as the computation
does, with the same value or the same error, in states that match by `T'`. There is a rule for each
construct.

So a pool of methods can do what the computations do, one call after another
(`exists_run_of_mirrors`), and what is shown of the pool holds of them, too.
-/

namespace Effects

variable {ε σ S S' V L C : Type} {R : C → Type} {α β : Type}

/-- On its own, the method ends as the computation does, matching states leading to such states. -/
def Mirrors (serve : Serve ε S V R) (T T' : Solo ε σ S V R → S' → Prop) (m : Coroutine ε σ R α)
    (m' : Async ε S' α) : Prop :=
  ∀ w s, T w s →
    ((m.alone serve).run w).1 = (m'.run s).1 ∧ T' ((m.alone serve).run w).2 (m'.run s).2

namespace Mirrors

variable {serve : Serve ε S V R} {T T₁ T' : Solo ε σ S V R → S' → Prop}

theorem pure (a : α) : Mirrors serve T T (pure a) (pure a) := fun _ _ h => ⟨rfl, h⟩

theorem mono {m : Coroutine ε σ R α} {m' : Async ε S' α} (hm : Mirrors serve T T₁ m m')
    (hT : ∀ w s, T₁ w s → T' w s) : Mirrors serve T T' m m' :=
  fun w s h => ⟨(hm w s h).1, hT _ _ (hm w s h).2⟩

/-- What is read need not be the same, if what is done with it mirrors. -/
theorem read_bind {γ : Type} {f : σ → β} {f' : S' → γ} {k : β → Coroutine ε σ R α}
    {k' : γ → Async ε S' α}
    (hk : ∀ w s, T w s → (((k (f w.memory)).alone serve).run w).1 = ((k' (f' s)).run s).1 ∧
      T' (((k (f w.memory)).alone serve).run w).2 ((k' (f' s)).run s).2) :
    Mirrors serve T T' (.read f >>= k) (.read f' >>= k') :=
  fun w s h => hk w s h

theorem modify {f : σ → σ} {f' : S' → S'}
    (hf : ∀ w s, T w s → T' { w with memory := f w.memory } (f' s)) :
    Mirrors serve T T' (.modify f) (.modify f') :=
  fun w s h => ⟨rfl, hf w s h⟩

/-- A command mirrors a computation that does what the service does on it. -/
theorem await {c : C} {m' : Async ε S' (R c)}
    (hc : ∀ w s, T w s → (w.send serve c).1 = (m'.run s).1 ∧ T' (w.send serve c).2 (m'.run s).2) :
    Mirrors serve T T' (.await c) m' := by
  intro w s h
  rw [Coroutine.run_alone_await]
  exact hc w s h

/-- A rejection passes the rest by, where the states match as they do at its end. -/
theorem bind {m : Coroutine ε σ R β} {m' : Async ε S' β} {f : β → Coroutine ε σ R α}
    {f' : β → Async ε S' α} (hm : Mirrors serve T T₁ m m')
    (hf : ∀ b, Mirrors serve T₁ T' (f b) (f' b)) (hT : ∀ w s, T₁ w s → T' w s) :
    Mirrors serve T T' (m >>= f) (m' >>= f') := by
  intro w s h
  obtain ⟨hresult, hstate⟩ := hm w s h
  rw [Coroutine.alone_bind, Async.run_bind, Async.run_bind]
  rcases hrun : (m.alone serve).run w with ⟨r, w₁⟩
  rcases hrun' : m'.run s with ⟨r', s₁⟩
  rw [hrun, hrun'] at hresult hstate
  obtain rfl : r = r' := hresult
  cases r with
  | ok b => exact hf b w₁ s₁ hstate
  | error e => exact ⟨rfl, hT w₁ s₁ hstate⟩

theorem bind_pure {m : Coroutine ε σ R β} {m' : Async ε S' β} (hm : Mirrors serve T T' m m')
    (f : β → α) :
    Mirrors serve T T' (m >>= fun b => Pure.pure (f b)) (m' >>= fun b => Pure.pure (f b)) :=
  hm.bind (fun b => .pure (f b)) fun _ _ h => h

theorem handle {m : Coroutine ε σ R α} {m' : Async ε S' α} {handler : ε → Coroutine ε σ R α}
    {handler' : ε → Async ε S' α} (hm : Mirrors serve T T' m m')
    (hh : ∀ e, Mirrors serve T' T' (handler e) (handler' e)) :
    Mirrors serve T T' (tryCatch m handler) (tryCatch m' handler') := by
  intro w s h
  obtain ⟨hresult, hstate⟩ := hm w s h
  rw [Coroutine.alone_tryCatch, Async.run_tryCatch, Async.run_tryCatch]
  rcases hrun : (m.alone serve).run w with ⟨r, w₁⟩
  rcases hrun' : m'.run s with ⟨r', s₁⟩
  rw [hrun, hrun'] at hresult hstate
  obtain rfl : r = r' := hresult
  cases r with
  | ok b => exact ⟨rfl, hstate⟩
  | error e => exact hh e w₁ s₁ hstate

end Mirrors

/-! ## Runs -/

/-- **A call that no other overlaps.** From a pool that matches the state, the method can be called
and run on its own, and settles as the computation ends. -/
theorem exists_run_of_mirrors {serve : Serve ε S V R} {code : L → Coroutine ε σ R α} {l : L}
    {T T' : Solo ε σ S V R → S' → Prop} {m' : Async ε S' α} (hm : Mirrors serve T T' (code l) m')
    (p : Pool ε σ S R L α) {choices : ℕ → V} {s : S'} (hT : T ⟨p.toShared, choices, []⟩ s) :
    ∃ es w, (Pool.system serve code).runFrom p (.spawn l :: es) =
        some ⟨w.toShared, p.threads ++ [⟨l, w.heard, .settled (m'.run s).1⟩]⟩ ∧
      T' w (m'.run s).2 := by
  obtain ⟨es, hrun⟩ := Pool.exists_run_alone serve code p l choices
  obtain ⟨hended, hT'⟩ := hm _ s hT
  exact ⟨es, _, hended ▸ hrun, hT'⟩

end Effects
