import KitiumJobQueue.Foundations.SharedInvariants

/-!
# Methods among more commands

A method that sends some commands to a service may overlap with methods that send it others as
well. `Coroutine.lift` takes its commands for the first of two kinds. What the method ensures does
not change by that (`Ensures.lift`), so it can be shown where only its own commands are known.
-/

namespace Effects

variable {ε σ S V C D : Type} {R : C → Type} {T : D → Type} {α : Type}

/-- The method, its commands being the first of two kinds. -/
def Coroutine.lift : Coroutine ε σ R α → Coroutine ε σ (Sum.elim R T) α
  | .resolve a => .resolve a
  | .reject e => .reject e
  | .look k => .look fun s => (k s).lift
  | .alter f m => .alter f m.lift
  | .call c k => .call (.inl c) fun r => (k r).lift

/-- A service for two kinds of commands. -/
def Serve.sum (serve : Serve ε S V R) (serve' : Serve ε S V T) : Serve ε S V (Sum.elim R T)
  | v, .inl c, s => serve v c s
  | v, .inr d, s => serve' v d s

variable {serve : Serve ε S V R} {serve' : Serve ε S V T} {I : Shared σ S → Prop}
  {U : S → S → Prop} {Q : α → Prop}

/-- What a method ensures it ensures among more commands. -/
theorem Ensures.lift {m : Coroutine ε σ R α} (hm : Ensures serve I U Q m) :
    Ensures (serve.sum serve') I U Q m.lift := by
  suffices h : ∀ h h' w₀ w,
      Meets serve (.keeping I U fun _ => True) (resolvingIn I (fun _ => True) Q) m h w₀ w →
      Meets (serve.sum serve') (.keeping I U fun _ => True) (resolvingIn I (fun _ => True) Q)
        (m.lift (T := T)) h' w₀ w from
    fun h' w₀ w hw hserver _ => h [] h' w₀ w (hm [] w₀ w hw hserver (List.forall_mem_nil _))
  -- the rules do not look at the transcript, so it may be another one
  clear hm
  induction m with
  | resolve a => exact fun _ _ _ _ hmeets => ⟨⟨hmeets.1.1, fun _ _ => trivial⟩, hmeets.2⟩
  | reject e => exact fun _ _ _ _ hmeets => ⟨⟨hmeets.1.1, fun _ _ => trivial⟩, hmeets.2⟩
  | look k ih => exact fun h h' w₀ w hmeets => ih w.memory h h' w₀ w hmeets
  | alter f m ih => exact fun h h' w₀ w hmeets => ih h h' w₀ ⟨f w.memory, w.server⟩ hmeets
  | call c k ih =>
    refine fun h h' w₀ w hmeets =>
      ⟨fun hw => ⟨(hmeets.1 hw).1, fun _ _ => trivial⟩, fun w₁ hw₁ v hv => ?_⟩
    obtain ⟨hguarantee, hrest⟩ := hmeets.2 w₁ hw₁ v hv
    exact ⟨fun hw => ⟨(hguarantee hw).1, fun _ _ => trivial⟩,
      fun w₂ hw₂ hr => ih _ _ _ w₂ w₂ (hrest w₂ hw₂ hr)⟩

end Effects
