import KitiumJobQueue.Foundations.SharedInvariants
import Mathlib.Data.Set.Basic

/-!
# Facts that last

Besides an invariant of the shared state, the methods of a pool may count on facts about the service
that, once true, stay true whoever acts. `Secures serve I F K Q G m` reads: started where `I` holds
and the facts `K` are known, and disturbed by nothing that breaks `I` or undoes a fact, the method
does neither itself, and resolves only with values meeting `Q`, the facts `G` then being true. What
is known is carried through every construct, also into the handler of an error.

What follows for all runs of a pool is `secures_of_run`, and `secured_of_called` for one call that
knows more where it is made.
-/

namespace Effects

variable {ε σ S V L C φ : Type} {R : C → Type} {α β : Type}

/-- What was true of the service is still true. -/
def Lasts (F : φ → S → Prop) (s s' : S) : Prop := ∀ x, F x s → F x s'

theorem Lasts.refl {F : φ → S → Prop} (s : S) : Lasts F s s := fun _ => id

theorem Lasts.trans {F : φ → S → Prop} {s₁ s₂ s₃ : S} (h : Lasts F s₁ s₂) (h' : Lasts F s₂ s₃) :
    Lasts F s₁ s₃ :=
  fun x hx => h' x (h x hx)

/-- The facts are true. -/
def Known (F : φ → S → Prop) (K : Set φ) (s : S) : Prop := ∀ x ∈ K, F x s

theorem Known.last {F : φ → S → Prop} {K : Set φ} {s s' : S} (h : Known F K s)
    (hlasts : Lasts F s s') : Known F K s' :=
  fun x hx => hlasts x (h x hx)

theorem known_union {F : φ → S → Prop} {K K' : Set φ} {s : S} :
    Known F (K ∪ K') s ↔ Known F K s ∧ Known F K' s :=
  ⟨fun h => ⟨fun x hx => h x (.inl hx), fun x hx => h x (.inr hx)⟩,
    fun h x hx => hx.elim (h.1 x) (h.2 x)⟩

/-- The state keeps the invariant, and no fact is undone. -/
def Persists (I : Shared σ S → Prop) (F : φ → S → Prop) (w w' : Shared σ S) : Prop :=
  I w → I w' ∧ Lasts F w.server w'.server

/-- Relying on an invariant and on what is known, and keeping both. -/
def Rules.persisting (I : Shared σ S → Prop) (F : φ → S → Prop) : Rules ε σ S V R where
  rely _ w w' := Persists I F w w'
  executes _ _ _ _ := True
  resumes _ _ := True
  guarantee _ w w' := Persists I F w w'
  rely_refl _ w hw := ⟨hw, .refl w.server⟩
  rely_trans h h' hw := ⟨(h' (h hw).1).1, (h hw).2.trans (h' (h hw).1).2⟩

/-- A method that ends in a state meeting `I`, its last step having left the service alone, where
the facts `K` are known, and resolves only with values meeting `Q` where their facts are. -/
def resolvingWhere (I : Shared σ S → Prop) (F : φ → S → Prop) (K : Set φ) (Q : α → Prop)
    (G : α → Set φ) : Post ε σ S R α :=
  fun _ w₀ w r => (I w ∧ w.server = w₀.server ∧ Known F K w.server) ∧
    ∀ a, r = .ok a → Q a ∧ Known F (G a) w.server

/-- While the others keep `I` and undo no fact, the method does the same, and where it knows `K` the
values it resolves with meet `Q` and come with the facts `G`. -/
def Secures (serve : Serve ε S V R) (I : Shared σ S → Prop) (F : φ → S → Prop) (K : Set φ)
    (Q : α → Prop) (G : α → Set φ) (m : Coroutine ε σ R α) : Prop :=
  ∀ h w₀ w, I w → w.server = w₀.server → Known F K w.server →
    Meets serve (.persisting I F) (resolvingWhere I F K Q G) m h w₀ w

namespace Secures

variable {serve : Serve ε S V R} {I : Shared σ S → Prop} {F : φ → S → Prop} {K : Set φ}
  {Q : α → Prop} {G : α → Set φ}

theorem pure {a : α} (ha : Q a) (hG : G a ⊆ K) :
    Secures serve I F K Q G (pure a : Coroutine ε σ R α) := by
  refine fun _ _ w hw hserver hK => ⟨⟨hw, hserver, hK⟩, fun b hb => ?_⟩
  obtain rfl := Except.ok.inj hb
  exact ⟨ha, fun x hx => hK x (hG hx)⟩

theorem throw (e : ε) : Secures serve I F K Q G (throw e : Coroutine ε σ R α) :=
  fun _ _ _ hw hserver hK => ⟨⟨hw, hserver, hK⟩, fun _ h => by cases h⟩

/-- What is read is known to come from a state meeting the invariant. -/
theorem read_bind {f : σ → β} {k : β → Coroutine ε σ R α}
    (hk : ∀ w, I w → Secures serve I F K Q G (k (f w.memory))) :
    Secures serve I F K Q G (.read f >>= k) :=
  fun h w₀ w hw hserver hK => hk w hw h w₀ w hw hserver hK

/-- A method that settles at once, having changed the memory. -/
theorem act {f : σ → Except ε α × σ}
    (hf : ∀ m s, I ⟨m, s⟩ → I ⟨(f m).2, s⟩ ∧ ∀ a, (f m).1 = .ok a → Q a ∧ G a ⊆ K) :
    Secures serve I F K Q G (.act f : Coroutine ε σ R α) := by
  intro h w₀ w hw hserver hK
  obtain ⟨hI, hvalue⟩ := hf w.memory w.server hw
  refine meets_act.mpr ⟨⟨hI, hserver, hK⟩, fun a ha => ?_⟩
  exact ⟨(hvalue a ha).1, fun x hx => hK x ((hvalue a ha).2 hx)⟩

/-- A command that keeps the invariant and undoes nothing where `K` is known, whose answers meet `Q`
and come with their facts. -/
theorem await {c : C} {Q : R c → Prop} {G : R c → Set φ}
    (hc : ∀ v m s, I ⟨m, s⟩ → Known F K s →
      (I ⟨m, (serve v c s).2⟩ ∧ Lasts F s (serve v c s).2) ∧
        ∀ r, (serve v c s).1 = .ok r → Q r ∧ Known F (G r) (serve v c s).2) :
    Secures serve I F K Q G (.await c : Coroutine ε σ R (R c)) := by
  intro h w₀ w hw hserver hK
  have hbegin : Persists I F w₀ w := fun _ => ⟨hw, hserver ▸ .refl w.server⟩
  refine meets_await.mpr ⟨hbegin, fun w₁ hrely v _ => ?_⟩
  obtain ⟨hw₁, hlasts⟩ := hrely hw
  have hK₁ : Known F K w₁.server := hK.last hlasts
  obtain ⟨hkept, hanswer⟩ := hc v w₁.memory w₁.server hw₁ hK₁
  refine ⟨fun _ => hkept, fun w₂ hrely' _ => ?_⟩
  obtain ⟨hw₂, hlasts'⟩ := hrely' hkept.1
  refine ⟨⟨hw₂, rfl, (hK₁.last hkept.2).last hlasts'⟩, fun r hr => ?_⟩
  obtain ⟨hQ, hG⟩ := hanswer r hr
  exact ⟨hQ, hG.last hlasts'⟩

theorem bind {P : β → Prop} {H : β → Set φ} {m : Coroutine ε σ R β} {f : β → Coroutine ε σ R α}
    (hm : Secures serve I F K P H m) (hf : ∀ b, P b → Secures serve I F (K ∪ H b) Q G (f b)) :
    Secures serve I F K Q G (m >>= f) := by
  intro h w₀ w hw hserver hK
  refine meets_bind.mpr ((hm h w₀ w hw hserver hK).mono fun h w₀ w r hr => ?_)
  cases r with
  | ok b =>
    obtain ⟨⟨hw, hserver, hK⟩, hvalue⟩ := hr
    obtain ⟨hP, hH⟩ := hvalue b rfl
    refine (hf b hP h w₀ w hw hserver (known_union.mpr ⟨hK, hH⟩)).mono fun _ _ _ _ hr => ?_
    exact ⟨⟨hr.1.1, hr.1.2.1, (known_union.mp hr.1.2.2).1⟩, hr.2⟩
  | error e => exact ⟨hr.1, fun _ h => by cases h⟩

theorem handle {m : Coroutine ε σ R α} {handler : ε → Coroutine ε σ R α}
    (hm : Secures serve I F K Q G m) (hh : ∀ e, Secures serve I F K Q G (handler e)) :
    Secures serve I F K Q G (tryCatch m handler) := by
  intro h w₀ w hw hserver hK
  refine meets_tryCatch.mpr ((hm h w₀ w hw hserver hK).mono fun h w₀ w r hr => ?_)
  cases r with
  | ok a => exact hr
  | error e => exact hh e h w₀ w hr.1.1 hr.1.2.1 hr.1.2.2

theorem mono {Q' : α → Prop} {G' : α → Set φ} {m : Coroutine ε σ R α}
    (hm : Secures serve I F K Q G m) (hQ : ∀ a, Q a → Q' a) (hG : ∀ a, Q a → G' a ⊆ G a) :
    Secures serve I F K Q' G' m :=
  fun h w₀ w hw hserver hK => (hm h w₀ w hw hserver hK).mono fun _ _ _ _ hr =>
    ⟨hr.1, fun a ha => ⟨hQ a (hr.2 a ha).1, fun x hx => (hr.2 a ha).2 x (hG a (hr.2 a ha).1 hx)⟩⟩

/-- What was known before is known at the end. -/
theorem known {m : Coroutine ε σ R α} (hm : Secures serve I F K Q G m) :
    Secures serve I F K Q (fun a => K ∪ G a) m :=
  fun h w₀ w hw hserver hK => (hm h w₀ w hw hserver hK).mono fun _ _ _ _ hr =>
    ⟨hr.1, fun a ha => ⟨(hr.2 a ha).1, known_union.mpr ⟨hr.1.2.2, (hr.2 a ha).2⟩⟩⟩

end Secures

/-! ## Runs -/

section

variable {serve : Serve ε S V R} {code : L → Coroutine ε σ R α} {I : Shared σ S → Prop}
  {F : φ → S → Prop} {P : L → Prop} {Q : L → α → Prop} {G : L → α → Set φ}

/-- Methods that secure what is theirs fit together. -/
theorem agreement_of_secures (hcode : ∀ l, P l → Secures serve I F ∅ (Q l) (G l) (code l)) :
    Agreement serve code (fun _ => .persisting I F)
      (fun l _ w r => ∀ a, r = .ok a → I w → Q l a ∧ Known F (G l a) w.server)
      (fun _ e => True ∧ ∀ l, e = .spawn l → P l) I where
  spawn := fun {p l} hC hp => by
    have hnothing : Known F ∅ p.toShared.server := fun _ hx => hx.elim
    refine (hcode l (hC.2 l rfl) [] p.toShared p.toShared hp rfl hnothing).mono ?_
    intro _ w₀ w r hr
    refine ⟨fun _ => ⟨hr.1.1, hr.1.2.1 ▸ .refl w.server⟩, fun w' hrely a ha _ => ?_⟩
    obtain ⟨hQ, hG⟩ := hr.2 a ha
    exact ⟨hQ, hG.last (hrely hr.1.1).2⟩
  executes := fun _ _ _ => trivial
  resumes := fun _ _ _ => trivial
  relied := fun _ _ _ _ hg _ _ _ _ => hg
  keeps := fun hw hg => (hg hw).1

variable {m : σ} {s : S} {es : List (PoolEvent L V)} {p : Pool ε σ S R L α}

/-- **The rule of lasting facts.** In a run that calls only methods meeting `P`, the invariant holds
throughout, what was true at the start is still true, and whatever a method has resolved with is as
promised, its facts being true from then on. -/
theorem secures_of_run (hcode : ∀ l, P l → Secures serve I F ∅ (Q l) (G l) (code l))
    (hI : I ⟨m, s⟩) (hes : ∀ l, .spawn l ∈ es → P l)
    (h : (Pool.system serve code).runFrom ⟨⟨m, s⟩, []⟩ es = some p) :
    I p.toShared ∧ Lasts F s p.server ∧
      ∀ t ∈ p.threads, ∀ a, t.stage = .settled (.ok a) →
        Q t.label a ∧ Known F (G t.label a) p.server := by
  have hA := agreement_of_secures hcode
  obtain ⟨hfollowed, hlasts⟩ := System.invariant_of_stepsMeet
    (I := fun p : Pool ε σ S R L α => Agreement.Followed serve (fun _ => .persisting I F)
      (fun l _ w r => ∀ a, r = .ok a → I w → Q l a ∧ Known F (G l a) w.server) I p ∧
      Lasts F s p.server)
    (fun p e p' hp hC hstep => by
      obtain ⟨t, -, hg, -⟩ := hA.actor_step hp.1 hC hstep
      exact ⟨hA.followed_step hp.1 hC hstep, hp.2.trans (hg hp.1.1).2⟩)
    ⟨Agreement.followed_nil hI, .refl s⟩ (stepsMeet_of_spawns hes) h
  refine ⟨hfollowed.1, hlasts, fun t ht a ha => ?_⟩
  obtain ⟨i, hi⟩ := List.getElem?_of_mem ht
  obtain ⟨l, heard, stage⟩ := t
  obtain rfl : stage = .settled (.ok a) := ha
  exact hfollowed.post_of_settled hi a rfl hfollowed.1

/-- **One call among others.** Where a method secures more in the state it is called in than its
label promises, that is so once it has resolved. -/
theorem secured_of_called (hcode : ∀ l, P l → Secures serve I F ∅ (Q l) (G l) (code l))
    (hI : I ⟨m, s⟩) {l : L} {Q' : α → Prop} {G' : α → Set φ} {es' : List (PoolEvent L V)}
    {p' : Pool ε σ S R L α} (hes : ∀ l', .spawn l' ∈ es ++ .spawn l :: es' → P l')
    (h : (Pool.system serve code).runFrom ⟨⟨m, s⟩, []⟩ es = some p)
    (h' : (Pool.system serve code).runFrom p (.spawn l :: es') = some p')
    (hl : Meets serve (.persisting I F) (resolvingWhere I F ∅ Q' G') (code l) [] p.toShared
      p.toShared) :
    ∃ t, p'.threads[p.threads.length]? = some t ∧ t.label = l ∧
      ∀ a, t.stage = .settled (.ok a) → Q' a ∧ Known F (G' a) p'.server := by
  have hA := agreement_of_secures hcode
  have hfollowed := hA.invariant (Agreement.followed_nil hI)
    (stepsMeet_of_spawns fun l' hl' => hes l' (List.mem_append_left _ hl')) h
  have hcalls : (Pool.system serve code).StepsMeet (fun _ e => True ∧ ∀ l, e = .spawn l → P l) p
      (.spawn l :: es') :=
    stepsMeet_of_spawns fun l' hl' => hes l' (List.mem_append_right es hl')
  obtain ⟨t, ht, hlabel, hf⟩ := hA.follows_of_called
    (fun _ w r => ∀ a, r = .ok a → Q' a ∧ Known F (G' a) w.server) hfollowed
    (hl.mono fun _ w₀ w r hr => ⟨fun _ => ⟨hr.1.1, hr.1.2.1 ▸ .refl w.server⟩,
      fun w' hrely a ha => ⟨(hr.2 a ha).1, (hr.2 a ha).2.last (hrely hr.1.1).2⟩⟩) hcalls h'
  refine ⟨t, ht, hlabel, fun a ha => ?_⟩
  obtain ⟨l', heard, stage⟩ := t
  obtain rfl : stage = .settled (.ok a) := ha
  exact hf p'.toShared (fun hw => ⟨hw, .refl _⟩) a rfl

end

end Effects
