import KitiumJobQueue.Foundations.RelyGuarantee

/-!
# Invariants that overlapping methods share

The common case of rely and guarantee: all methods of a pool rely on one invariant of the shared
state, and each keeps it at every one of its steps. `Ensures serve I U Q m` then reads like a
triple: started where `I` holds, and disturbed by nothing that breaks it, the method never breaks it
itself, changes the service only as `U` says, and resolves only with values meeting `Q`. In
`Respects` the commands that the method sends, with their answers, meet some `N` as well. There is a
rule for each construct.

What follows for all runs of a pool is `ensures_of_run`, `changes_of_run` says what a step of such a
run may do to the service and `changed_of_run` what a stretch of it may do, and `heard_of_run` what
the methods have sent.
-/

namespace Effects

variable {ε σ S V L C : Type} {R : C → Type} {α β : Type}

/-- Relying on an invariant, keeping it, changing the service only by `U`, and sending and hearing
only what meets `N`. -/
def Rules.keeping (I : Shared σ S → Prop) (U : S → S → Prop)
    (N : (Σ c, Except ε (R c)) → Prop) : Rules ε σ S V R where
  rely _ w w' := I w → I w'
  executes _ _ _ _ := True
  resumes _ _ := True
  guarantee h w w' := I w → (I w' ∧ (w'.server = w.server ∨ U w.server w'.server)) ∧ ∀ x ∈ h, N x
  rely_refl _ _ := id
  rely_trans h h' hw := h' (h hw)

/-- A method that ends in a state meeting `I`, its last step having left the service alone, and
resolves only with values meeting `Q`. -/
def resolvingIn (I : Shared σ S → Prop) (N : (Σ c, Except ε (R c)) → Prop) (Q : α → Prop) :
    Post ε σ S R α :=
  fun h w₀ w r => ((I w ∧ w.server = w₀.server) ∧ ∀ x ∈ h, N x) ∧ ∀ a, r = .ok a → Q a

/-- While the others keep `I`, the method keeps it as well and changes the service only by `U`, what
it sends and hears meets `N`, and the values it resolves with meet `Q`. -/
def Respects (serve : Serve ε S V R) (I : Shared σ S → Prop) (U : S → S → Prop)
    (N : (Σ c, Except ε (R c)) → Prop) (Q : α → Prop) (m : Coroutine ε σ R α) : Prop :=
  ∀ h w₀ w, I w → w.server = w₀.server → (∀ x ∈ h, N x) →
    Meets serve (.keeping I U N) (resolvingIn I N Q) m h w₀ w

/-- While the others keep `I`, the method keeps it as well and changes the service only by `U`, and
the values it resolves with meet `Q`. -/
abbrev Ensures (serve : Serve ε S V R) (I : Shared σ S → Prop) (U : S → S → Prop) (Q : α → Prop)
    (m : Coroutine ε σ R α) : Prop :=
  Respects serve I U (fun _ => True) Q m

/-- A command that may be rejected is carried out or not. -/
theorem snd_run_perform (a : Answer ε) (op : S → β × S) (s : S) :
    ((perform a op).run s).2 = s ∨ ((perform a op).run s).2 = (op s).2 := by
  cases a with
  | answered => exact .inr rfl
  | rejected e applied =>
    cases applied with
    | false => exact .inl rfl
    | true => exact .inr rfl

/-- Its answer, if there is one, is that of the service. -/
theorem fst_run_perform {a : Answer ε} {op : S → β × S} {s : S} {b : β}
    (h : ((perform a op).run s).1 = .ok b) : b = (op s).1 := by
  cases a with
  | answered => exact (Except.ok.inj h).symm
  | rejected e applied => cases h

/-- Read the memory, change it and settle, with no wait in between. -/
def Coroutine.act (f : σ → Except ε α × σ) : Coroutine ε σ R α :=
  .look fun s => .alter (fun _ => (f s).2) <|
    match (f s).1 with
    | .ok a => .resolve a
    | .error e => .reject e

theorem meets_act {serve : Serve ε S V R} {rules : Rules ε σ S V R} {post : Post ε σ S R α}
    {f : σ → Except ε α × σ} {h : Transcript ε R} {w₀ w : Shared σ S} :
    Meets serve rules post (.act f) h w₀ w ↔
      post h w₀ ⟨(f w.memory).2, w.server⟩ (f w.memory).1 := by
  rcases hf : f w.memory with ⟨r, m⟩
  rw [Coroutine.act, Meets, Meets, hf]
  cases r with
  | ok a => exact Iff.rfl
  | error e => exact Iff.rfl

theorem Coroutine.advance_act_bind_pure (f : σ → Except ε β × σ) (g : β → α) (s : σ) :
    (act f >>= fun b => pure (g b) : Coroutine ε σ R α).advance s =
      (.settled ((f s).1.map g), (f s).2) := by
  show ((match (f s).1 with
    | .ok b => .resolve b
    | .error e => .reject e : Coroutine ε σ R β).andThen fun b => .resolve (g b)).advance
      (f s).2 = _
  rcases f s with ⟨_ | _, _⟩ <;> rfl

/-- What the environment chooses about a command that may fail: whether it does, and its time. -/
structure Choice (ε : Type) where
  answer : Answer ε := .answered
  now : ℕ := 0

namespace Respects

variable {serve : Serve ε S V R} {I : Shared σ S → Prop} {U : S → S → Prop}
  {N : (Σ c, Except ε (R c)) → Prop} {Q : α → Prop}

theorem pure {a : α} (ha : Q a) : Respects serve I U N Q (pure a : Coroutine ε σ R α) :=
  fun _ _ _ hw hserver hh => ⟨⟨⟨hw, hserver⟩, hh⟩, fun _ h => Except.ok.inj h ▸ ha⟩

theorem throw (e : ε) : Respects serve I U N Q (throw e : Coroutine ε σ R α) :=
  fun _ _ _ hw hserver hh => ⟨⟨⟨hw, hserver⟩, hh⟩, fun _ h => by cases h⟩

theorem modify {Q : Unit → Prop} {f : σ → σ} (hf : ∀ m s, I ⟨m, s⟩ → I ⟨f m, s⟩) (hQ : Q ()) :
    Respects serve I U N Q (.modify f : Coroutine ε σ R Unit) :=
  fun _ _ w hw hserver hh => ⟨⟨⟨hf w.memory w.server hw, hserver⟩, hh⟩, fun _ _ => hQ⟩

theorem act {f : σ → Except ε α × σ}
    (hf : ∀ m s, I ⟨m, s⟩ → I ⟨(f m).2, s⟩ ∧ ∀ a, (f m).1 = .ok a → Q a) :
    Respects serve I U N Q (.act f : Coroutine ε σ R α) := by
  intro h w₀ w hw hserver hh
  obtain ⟨hI, hQ⟩ := hf w.memory w.server hw
  exact meets_act.mpr ⟨⟨⟨hI, hserver⟩, hh⟩, hQ⟩

/-- What is read is known to come from a state meeting the invariant. -/
theorem read_bind {f : σ → β} {k : β → Coroutine ε σ R α}
    (hk : ∀ w, I w → Respects serve I U N Q (k (f w.memory))) :
    Respects serve I U N Q (.read f >>= k) :=
  fun h w₀ w hw hserver hh => hk w hw h w₀ w hw hserver hh

/-- A command that keeps the invariant and changes the service by `U`, whose answers meet `Q`, and
which may be sent and answered so. -/
theorem ask {c : C} {Q : R c → Prop}
    (hc : ∀ v m s, I ⟨m, s⟩ →
      (I ⟨m, (serve v c s).2⟩ ∧ ((serve v c s).2 = s ∨ U s (serve v c s).2)) ∧
        ∀ r, (serve v c s).1 = .ok r → Q r)
    (hN : ∀ v m s, I ⟨m, s⟩ → N ⟨c, (serve v c s).1⟩) :
    Respects serve I U N Q (.await c : Coroutine ε σ R (R c)) := by
  intro h w₀ w hw hserver hh
  refine meets_await.mpr ⟨fun _ => ⟨⟨hw, .inl hserver⟩, hh⟩, fun w₁ hrely v _ => ?_⟩
  obtain ⟨hkept, hQ⟩ := hc v w₁.memory w₁.server (hrely hw)
  have hh' : ∀ x ∈ (⟨c, (serve v c w₁.server).1⟩ :: h : Transcript ε R), N x :=
    List.forall_mem_cons.mpr ⟨hN v w₁.memory w₁.server (hrely hw), hh⟩
  exact ⟨fun _ => ⟨hkept, hh'⟩, fun w₂ hrely' _ => ⟨⟨⟨hrely' hkept.1, rfl⟩, hh'⟩, hQ⟩⟩

theorem bind {P : β → Prop} {m : Coroutine ε σ R β} {f : β → Coroutine ε σ R α}
    (hm : Respects serve I U N P m) (hf : ∀ b, P b → Respects serve I U N Q (f b)) :
    Respects serve I U N Q (m >>= f) := by
  intro h w₀ w hw hserver hh
  refine meets_bind.mpr ((hm h w₀ w hw hserver hh).mono fun h w₀ w r hr => ?_)
  cases r with
  | ok b => exact hf b (hr.2 b rfl) h w₀ w hr.1.1.1 hr.1.1.2 hr.1.2
  | error e => exact ⟨hr.1, fun _ h => by cases h⟩

theorem handle {m : Coroutine ε σ R α} {handler : ε → Coroutine ε σ R α}
    (hm : Respects serve I U N Q m) (hh : ∀ e, Respects serve I U N Q (handler e)) :
    Respects serve I U N Q (tryCatch m handler) := by
  intro h w₀ w hw hserver hheard
  refine meets_tryCatch.mpr ((hm h w₀ w hw hserver hheard).mono fun h w₀ w r hr => ?_)
  cases r with
  | ok a => exact hr
  | error e => exact hh e h w₀ w hr.1.1.1 hr.1.1.2 hr.1.2

theorem mono {Q' : α → Prop} {m : Coroutine ε σ R α} (hm : Respects serve I U N Q m)
    (hQ : ∀ a, Q a → Q' a) : Respects serve I U N Q' m :=
  fun h w₀ w hw hserver hh =>
    (hm h w₀ w hw hserver hh).mono fun _ _ _ _ hr => ⟨hr.1, fun a ha => hQ a (hr.2 a ha)⟩

/-- A loop whose rounds ensure nothing but the invariant. -/
theorem forEach {γ : Type} {body : γ → Coroutine ε σ R Unit} {l : List γ}
    (hbody : ∀ x ∈ l, Respects serve I U N (fun _ => True) (body x)) :
    Respects serve I U N (fun _ => True) (Coroutine.forEach body l) := by
  induction l with
  | nil => exact .pure trivial
  | cons x l ih =>
    obtain ⟨hx, hl⟩ := List.forall_mem_cons.mp hbody
    exact .bind hx fun _ _ => ih hl

end Respects

namespace Ensures

variable {serve : Serve ε S V R} {I : Shared σ S → Prop} {U : S → S → Prop}

/-- A command that keeps the invariant and changes the service by `U`, whose answers meet `Q`. -/
theorem await {c : C} {Q : R c → Prop}
    (hc : ∀ v m s, I ⟨m, s⟩ →
      (I ⟨m, (serve v c s).2⟩ ∧ ((serve v c s).2 = s ∨ U s (serve v c s).2)) ∧
        ∀ r, (serve v c s).1 = .ok r → Q r) :
    Ensures serve I U Q (.await c : Coroutine ε σ R (R c)) :=
  .ask hc fun _ _ _ _ => trivial

/-- A command that may be rejected: what it does, if it is carried out, keeps the invariant and is a
change by `U`, and its answer, if there is one, meets `Q`. -/
theorem perform {c : C} {Q : R c → Prop} {answer : V → Answer ε} {op : V → S → R c × S}
    (hserve : ∀ v s, serve v c s = (Effects.perform (answer v) (op v)).run s)
    (hop : ∀ v m s, I ⟨m, s⟩ → I ⟨m, (op v s).2⟩ ∧ ((op v s).2 = s ∨ U s (op v s).2))
    (hQ : ∀ v m s, I ⟨m, s⟩ → Q (op v s).1) :
    Ensures serve I U Q (.await c : Coroutine ε σ R (R c)) := by
  refine .await fun v m s hs => ?_
  rw [hserve]
  refine ⟨?_, fun r hr => fst_run_perform hr ▸ hQ v m s hs⟩
  rcases snd_run_perform (answer v) (op v) s with h | h
  · exact h.symm ▸ ⟨hs, .inl rfl⟩
  · exact h.symm ▸ hop v m s hs

/-- A command that only reads. -/
theorem reading {c : C} {Q : R c → Prop} {answer : V → Answer ε} (read : V → S → R c)
    (hserve : ∀ v s, serve v c s = (Effects.perform (answer v) fun s => (read v s, s)).run s)
    (hQ : ∀ v m s, I ⟨m, s⟩ → Q (read v s)) :
    Ensures serve I U Q (.await c : Coroutine ε σ R (R c)) :=
  .perform hserve (fun _ _ _ hs => ⟨hs, .inl rfl⟩) hQ

end Ensures

/-! ## Methods under way -/

section

variable {serve : Serve ε S V R} {code : L → Coroutine ε σ R α} {p p' : Pool ε σ S R L α}
  {es : List (PoolEvent L V)} {e : PoolEvent L V} {l : L}

/-- The method is under way in the pool, or is called in one of the events. -/
def Pool.Acts (p : Pool ε σ S R L α) (es : List (PoolEvent L V)) (l : L) : Prop :=
  .spawn l ∈ es ∨ ∃ t ∈ p.threads, t.label = l ∧ ∀ r, t.stage ≠ .settled r

end

/-! ## Runs -/

section

variable {serve : Serve ε S V R} {code : L → Coroutine ε σ R α} {I : Shared σ S → Prop}
  {U : L → S → S → Prop} {N : L → (Σ c, Except ε (R c)) → Prop} {P : L → Prop} {Q : L → α → Prop}

/-- Methods that ensure what is theirs fit together. -/
theorem agreement_of_respects (hcode : ∀ l, P l → Respects serve I (U l) (N l) (Q l) (code l)) :
    Agreement serve code (fun l => .keeping I (U l) (N l))
      (fun l h _ r => (∀ x ∈ h, N l x) ∧ ∀ a, r = .ok a → Q l a)
      (fun _ e => True ∧ ∀ l, e = .spawn l → P l) I where
  spawn := fun {p l} hC hp => (hcode l (hC.2 l rfl) [] p.toShared p.toShared hp rfl
    (List.forall_mem_nil _)).mono fun _ _ _ _ hr =>
      ⟨fun _ => ⟨⟨hr.1.1.1, .inl hr.1.1.2⟩, hr.1.2⟩, fun _ _ => ⟨hr.1.2, hr.2⟩⟩
  executes := fun _ _ _ => trivial
  resumes := fun _ _ _ => trivial
  relied := fun _ _ _ _ hg _ _ _ _ hw => (hg hw).1.1
  keeps := fun hw hg => (hg hw).1.1

variable {m : σ} {s : S} {es : List (PoolEvent L V)} {p p' : Pool ε σ S R L α}

theorem stepsMeet_of_spawns (hes : ∀ l, .spawn l ∈ es → P l) :
    (Pool.system serve code).StepsMeet (fun _ e => True ∧ ∀ l, e = .spawn l → P l) p es :=
  (System.stepsMeet_of_forall (fun _ _ => trivial) p es).and_forall
    fun _ he l hl => hes l (hl ▸ he)

/-- The methods of a run are those it calls. -/
theorem labels_of_run (hes : ∀ l, .spawn l ∈ es → P l)
    (h : (Pool.system serve code).runFrom ⟨⟨m, s⟩, []⟩ es = some p) :
    ∀ t ∈ p.threads, P t.label := by
  refine System.invariant_of_stepsMeet (I := fun p : Pool ε σ S R L α => ∀ t ∈ p.threads, P t.label)
    (fun p e p' hp hC hstep t ht => ?_) (List.forall_mem_nil _) (stepsMeet_of_spawns hes) h
  rcases Pool.mem_threads_of_step hstep ht with ht | ⟨l, he, -, rfl⟩ |
    ⟨i, v, l, heard, c, k, -, hi, -, rfl⟩ | ⟨i, l, heard, c, r, k, -, hi, -, rfl⟩
  · exact hp t ht
  · exact hC.2 l he
  · exact hp ⟨l, heard, .waiting c k⟩ (List.mem_of_getElem? hi)
  · exact hp ⟨l, heard, .ready c r k⟩ (List.mem_of_getElem? hi)

section

variable (hcode : ∀ l, P l → Respects serve I (U l) (N l) (Q l) (code l)) (hI : I ⟨m, s⟩)
include hcode hI

theorem followed_of_run (hes : ∀ l, .spawn l ∈ es → P l)
    (h : (Pool.system serve code).runFrom ⟨⟨m, s⟩, []⟩ es = some p) :
    Agreement.Followed serve (fun l => .keeping I (U l) (N l))
      (fun l h _ r => (∀ x ∈ h, N l x) ∧ ∀ a, r = .ok a → Q l a) I p :=
  (agreement_of_respects hcode).invariant (Agreement.followed_nil hI) (stepsMeet_of_spawns hes) h

/-- **The rule of the shared invariant.** In a run that calls only methods meeting `P`, each of
which ensures its own `Q` under the invariant, the invariant holds throughout, and whatever a method
has resolved with is as ensured. -/
theorem ensures_of_run (hes : ∀ l, .spawn l ∈ es → P l)
    (h : (Pool.system serve code).runFrom ⟨⟨m, s⟩, []⟩ es = some p) :
    I p.toShared ∧ ∀ t ∈ p.threads, ∀ a, t.stage = .settled (.ok a) → Q t.label a := by
  have hfollowed := followed_of_run hcode hI hes h
  refine ⟨hfollowed.1, fun t ht a ha => ?_⟩
  obtain ⟨i, hi⟩ := List.getElem?_of_mem ht
  obtain ⟨l, heard, stage⟩ := t
  obtain rfl : stage = .settled (.ok a) := ha
  exact (hfollowed.post_of_settled hi).2 a rfl

/-- **The rule of changes.** A step of such a run leaves the service alone, or changes it as the
method does that makes the step. -/
theorem changes_of_run {e : PoolEvent L V} (hes : ∀ l, .spawn l ∈ es ++ [e] → P l)
    (h : (Pool.system serve code).runFrom ⟨⟨m, s⟩, []⟩ es = some p)
    (hstep : (Pool.system serve code).step p e = some p') :
    p'.server = p.server ∨ ∃ t ∈ p'.threads, U t.label p.server p'.server := by
  have hA := agreement_of_respects hcode
  obtain ⟨t, ht, hg⟩ := hA.guarantee (Agreement.followed_nil hI) (stepsMeet_of_spawns hes) h hstep
  have hfollowed := followed_of_run hcode hI (fun l hl => hes l (List.mem_append_left _ hl)) h
  rcases (hg hfollowed.1).1.2 with hsame | hchange
  · exact .inl hsame
  · exact .inr ⟨t, List.mem_of_getElem? ht, hchange⟩

/-- **The rule of what is sent.** Whatever a method of such a run has sent and heard meets what is
known of its commands. -/
theorem heard_of_run (hes : ∀ l, .spawn l ∈ es → P l)
    (h : (Pool.system serve code).runFrom ⟨⟨m, s⟩, []⟩ es = some p) :
    ∀ t ∈ p.threads, ∀ x ∈ t.heard, N t.label x := by
  have hA := agreement_of_respects hcode
  refine (System.invariant_of_stepsMeet (I := fun p : Pool ε σ S R L α =>
      Agreement.Followed serve (fun l => .keeping I (U l) (N l))
        (fun l h _ r => (∀ x ∈ h, N l x) ∧ ∀ a, r = .ok a → Q l a) I p ∧
      ∀ t ∈ p.threads, ∀ x ∈ t.heard, N t.label x)
    (fun p e p' hp hC hstep => ⟨hA.followed_step hp.1 hC hstep, fun t ht => ?_⟩)
    ⟨Agreement.followed_nil hI, List.forall_mem_nil _⟩ (stepsMeet_of_spawns hes) h).2
  obtain ⟨actor, hactor, hg, -⟩ := hA.actor_step hp.1 hC hstep
  obtain ⟨j, hj⟩ := List.getElem?_of_mem ht
  by_cases hne : j = e.actor p
  · obtain rfl := Option.some.inj (hj.symm.trans (hne ▸ hactor))
    exact (hg hp.1.1).2
  · rw [Agreement.getElem?_of_step hstep hne] at hj
    exact hp.2 t (List.mem_of_getElem? hj)

end

end

end Effects
