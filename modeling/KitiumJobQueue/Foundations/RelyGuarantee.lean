import KitiumJobQueue.Foundations.Coroutines

/-!
# Rely and guarantee for overlapping methods

A proof about one method of a pool, made without looking at the others. `Rules` says what a method
may rely on while it waits, what it is told about its own steps when it makes them, and what it
guarantees about each of them. `Meets` follows a method through all its answers and says that it
keeps its guarantee and settles in the postcondition; it is a recursion over the coroutine, with a
rule for each construct (`meets_bind`, `meets_tryCatch`, `meets_forEach`).

`Agreement` collects what makes the methods of a pool fit together: a step that keeps its method's
guarantee is one the others rely on. `Agreement.invariant` is the soundness of the method: in every
run every method meets its rules, and `Agreement.guarantee` says that every step keeps the guarantee
of the method making it.
-/

namespace Effects

variable {ε σ S V L C : Type} {R : C → Type} {α β : Type}

/-- What a method relies on and guarantees. -/
structure Rules (ε σ S V : Type) {C : Type} (R : C → Type) where
  /-- What the others may do while the method waits for a command, or after it has settled. -/
  rely : Option C → Shared σ S → Shared σ S → Prop
  /-- What is known when its command is carried out. -/
  executes : Transcript ε R → C → V → Shared σ S → Prop
  /-- What is known when it gets its answer. -/
  resumes : Transcript ε R → Shared σ S → Prop
  /-- What each of its steps does. -/
  guarantee : Transcript ε R → Shared σ S → Shared σ S → Prop
  rely_refl : ∀ c w, rely c w w
  rely_trans : ∀ {c w₁ w₂ w₃}, rely c w₁ w₂ → rely c w₂ w₃ → rely c w₁ w₃

/-- What is claimed of a method when it settles: `w₀` is where its last step began, `w` where it
ended. -/
abbrev Post (ε σ S : Type) {C : Type} (R : C → Type) (α : Type) : Type :=
  Transcript ε R → Shared σ S → Shared σ S → Except ε α → Prop

section

variable (serve : Serve ε S V R) (rules : Rules ε σ S V R)

/-- What follows the carrying out of a command `c` in `w`, where the environment chose `v`. -/
def Answered (c : C) (cont : Except ε (R c) → Transcript ε R → Shared σ S → Prop)
    (h : Transcript ε R) (w : Shared σ S) (v : V) : Prop :=
  let answer := serve v c w.server
  let w' : Shared σ S := ⟨w.memory, answer.2⟩
  rules.guarantee (⟨c, answer.1⟩ :: h) w w' ∧
    ∀ w'', rules.rely (some c) w' w'' → rules.resumes (⟨c, answer.1⟩ :: h) w'' →
      cont answer.1 (⟨c, answer.1⟩ :: h) w''

/-- The method keeps its guarantee and settles in `post`. The step it is in began in `w₀` and has
come to `w`. -/
def Meets (post : Post ε σ S R α) :
    Coroutine ε σ R α → Transcript ε R → Shared σ S → Shared σ S → Prop
  | .resolve a, h, w₀, w => post h w₀ w (.ok a)
  | .reject e, h, w₀, w => post h w₀ w (.error e)
  | .look k, h, w₀, w => Meets post (k w.memory) h w₀ w
  | .alter f m, h, w₀, w => Meets post m h w₀ ⟨f w.memory, w.server⟩
  | .call c k, h, w₀, w =>
    rules.guarantee h w₀ w ∧
      ∀ w₁, rules.rely (some c) w w₁ → ∀ v, rules.executes h c v w₁ →
        Answered serve rules c (fun r h' w₂ => Meets post (k r) h' w₂ w₂) h w₁ v

end

variable {serve : Serve ε S V R} {rules : Rules ε σ S V R}

theorem Answered.mono {c : C} {cont cont' : Except ε (R c) → Transcript ε R → Shared σ S → Prop}
    {h : Transcript ε R} {w : Shared σ S} {v : V} (hc : ∀ r h' w', cont r h' w' → cont' r h' w')
    (ha : Answered serve rules c cont h w v) : Answered serve rules c cont' h w v :=
  ⟨ha.1, fun w' hw' hr => hc _ _ _ (ha.2 w' hw' hr)⟩

theorem Meets.mono {post post' : Post ε σ S R α} (hp : ∀ h w₀ w r, post h w₀ w r → post' h w₀ w r)
    {m : Coroutine ε σ R α} {h : Transcript ε R} {w₀ w : Shared σ S}
    (hm : Meets serve rules post m h w₀ w) : Meets serve rules post' m h w₀ w := by
  induction m generalizing h w₀ w with
  | resolve a => exact hp _ _ _ _ hm
  | reject e => exact hp _ _ _ _ hm
  | look k ih => exact ih _ hm
  | alter f m ih => exact ih hm
  | call c k ih =>
    exact ⟨hm.1, fun w₁ hw v hv => (hm.2 w₁ hw v hv).mono fun r h' w' hm' => ih r hm'⟩

/-- The transcript only grows. -/
theorem Meets.suffix {post : Post ε σ S R α} {m : Coroutine ε σ R α} {h : Transcript ε R}
    {w₀ w : Shared σ S} (hm : Meets serve rules post m h w₀ w) :
    Meets serve rules (fun h' w₀ w r => h <:+ h' ∧ post h' w₀ w r) m h w₀ w := by
  induction m generalizing h w₀ w with
  | resolve a => exact ⟨List.suffix_rfl, hm⟩
  | reject e => exact ⟨List.suffix_rfl, hm⟩
  | look k ih => exact ih _ hm
  | alter f m ih => exact ih hm
  | call c k ih =>
    refine ⟨hm.1, fun w₁ hw v hv => ⟨(hm.2 w₁ hw v hv).1, fun w' hw' hr => ?_⟩⟩
    exact (ih _ ((hm.2 w₁ hw v hv).2 w' hw' hr)).mono fun h' _ _ _ hp =>
      ⟨(List.suffix_cons _ h).trans hp.1, hp.2⟩

section

variable {post : Post ε σ S R α} {h : Transcript ε R} {w₀ w : Shared σ S}

@[simp] theorem meets_pure {a : α} :
    Meets serve rules post (pure a) h w₀ w ↔ post h w₀ w (.ok a) := Iff.rfl

@[simp] theorem meets_throw {e : ε} :
    Meets serve rules post (throw e) h w₀ w ↔ post h w₀ w (.error e) := Iff.rfl

@[simp] theorem meets_read_bind {f : σ → β} {k : β → Coroutine ε σ R α} :
    Meets serve rules post (.read f >>= k) h w₀ w ↔
      Meets serve rules post (k (f w.memory)) h w₀ w := Iff.rfl

@[simp] theorem meets_modify {post : Post ε σ S R Unit} {f : σ → σ} :
    Meets serve rules post (.modify f) h w₀ w ↔
      post h w₀ ⟨f w.memory, w.server⟩ (.ok ()) := Iff.rfl

/-- A method that waits for the answer to a command. -/
theorem meets_await {c : C} {post : Post ε σ S R (R c)} :
    Meets serve rules post (.await c) h w₀ w ↔
      rules.guarantee h w₀ w ∧
        ∀ w₁, rules.rely (some c) w w₁ → ∀ v, rules.executes h c v w₁ →
          Answered serve rules c (fun r h w₂ => post h w₂ w₂ r) h w₁ v := by
  refine and_congr_right fun _ => forall_congr' fun w₁ => imp_congr_right fun _ =>
    forall_congr' fun v => imp_congr_right fun _ => ⟨Answered.mono ?_, Answered.mono ?_⟩
  · intro r h w hr
    cases r <;> exact hr
  · intro r h w hr
    cases r <;> exact hr

end

/-- What is left of a method after a command may be replaced by what meets the same. -/
theorem meets_call_congr {c : C} {post : Post ε σ S R α} {post' : Post ε σ S R β}
    {k : Except ε (R c) → Coroutine ε σ R α} {k' : Except ε (R c) → Coroutine ε σ R β}
    {h : Transcript ε R} {w₀ w : Shared σ S}
    (hk : ∀ r h w, Meets serve rules post (k r) h w w ↔ Meets serve rules post' (k' r) h w w) :
    Meets serve rules post (.call c k) h w₀ w ↔ Meets serve rules post' (.call c k') h w₀ w := by
  refine and_congr_right fun _ => forall_congr' fun w₁ => imp_congr_right fun _ =>
    forall_congr' fun v => imp_congr_right fun _ => ?_
  exact ⟨Answered.mono fun r h w => (hk r h w).mp, Answered.mono fun r h w => (hk r h w).mpr⟩

/-- A method that goes on with `f` where `m` resolves. -/
theorem meets_bind {post : Post ε σ S R β} {m : Coroutine ε σ R α} {f : α → Coroutine ε σ R β}
    {h : Transcript ε R} {w₀ w : Shared σ S} :
    Meets serve rules post (m >>= f) h w₀ w ↔
      Meets serve rules (fun h w₀ w r => match r with
        | .ok a => Meets serve rules post (f a) h w₀ w
        | .error e => post h w₀ w (.error e)) m h w₀ w := by
  induction m generalizing h w₀ w with
  | resolve a => exact Iff.rfl
  | reject e => exact Iff.rfl
  | look k ih => exact ih _
  | alter g m ih => exact ih
  | call c k ih => exact meets_call_congr fun r h' w' => ih r

/-- A method whose rejection is handled. -/
theorem meets_tryCatch {post : Post ε σ S R α} {m : Coroutine ε σ R α}
    {handler : ε → Coroutine ε σ R α} {h : Transcript ε R} {w₀ w : Shared σ S} :
    Meets serve rules post (tryCatch m handler) h w₀ w ↔
      Meets serve rules (fun h w₀ w r => match r with
        | .ok a => post h w₀ w (.ok a)
        | .error e => Meets serve rules post (handler e) h w₀ w) m h w₀ w := by
  induction m generalizing h w₀ w with
  | resolve a => exact Iff.rfl
  | reject e => exact Iff.rfl
  | look k ih => exact ih _
  | alter g m ih => exact ih
  | call c k ih => exact meets_call_congr fun r h' w' => ih r

/-- A loop, by an invariant of the elements that are left. -/
theorem meets_forEach {γ : Type} {body : γ → Coroutine ε σ R Unit} {post : Post ε σ S R Unit}
    (J : List γ → Transcript ε R → Shared σ S → Shared σ S → Prop)
    (hnil : ∀ h w₀ w, J [] h w₀ w → post h w₀ w (.ok ()))
    (hcons : ∀ x l h w₀ w, J (x :: l) h w₀ w →
      Meets serve rules (fun h w₀ w r => match r with
        | .ok _ => J l h w₀ w
        | .error e => post h w₀ w (.error e)) (body x) h w₀ w)
    {l : List γ} {h : Transcript ε R} {w₀ w : Shared σ S} (hJ : J l h w₀ w) :
    Meets serve rules post (Coroutine.forEach body l) h w₀ w := by
  induction l generalizing h w₀ w with
  | nil => exact hnil h w₀ w hJ
  | cons x l ih =>
    refine meets_bind.mpr ((hcons x l h w₀ w hJ).mono fun h w₀ w r hr => ?_)
    cases r with
    | ok _ => exact ih hr
    | error e => exact hr

/-! ## Soundness -/

/-- The end of a method: its last step keeps the guarantee, and the postcondition holds whatever the
others do from then on. -/
def settling (rules : Rules ε σ S V R) (post : Transcript ε R → Shared σ S → Except ε α → Prop) :
    Post ε σ S R α :=
  fun h w₀ w r => rules.guarantee h w₀ w ∧ ∀ w', rules.rely none w w' → post h w' r

/-- The method goes on as its rules say. -/
def Thread.Follows (serve : Serve ε S V R) (rules : Rules ε σ S V R)
    (post : Transcript ε R → Shared σ S → Except ε α → Prop) (t : Thread ε σ R L α)
    (w : Shared σ S) : Prop :=
  match t.stage with
  | .waiting c k => ∀ w₁, rules.rely (some c) w w₁ → ∀ v, rules.executes t.heard c v w₁ →
      Answered serve rules c
        (fun r h w₂ => Meets serve rules (settling rules post) (k r) h w₂ w₂) t.heard w₁ v
  | .ready c r k => ∀ w₁, rules.rely (some c) w w₁ → rules.resumes t.heard w₁ →
      Meets serve rules (settling rules post) (k r) t.heard w₁ w₁
  | .settled r => ∀ w₁, rules.rely none w w₁ → post t.heard w₁ r

section

variable {post : Transcript ε R → Shared σ S → Except ε α → Prop}

/-- What the others do is what the method relies on. -/
theorem Thread.Follows.rely {t : Thread ε σ R L α} {w w' : Shared σ S}
    (ht : t.Follows serve rules post w) (hw : rules.rely t.stage.command? w w') :
    t.Follows serve rules post w' := by
  unfold Follows at ht ⊢
  cases hs : t.stage with
  | waiting c k =>
    rw [hs] at ht hw
    exact fun w₁ hw₁ => ht w₁ (rules.rely_trans hw hw₁)
  | ready c r k =>
    rw [hs] at ht hw
    exact fun w₁ hw₁ => ht w₁ (rules.rely_trans hw hw₁)
  | settled r =>
    rw [hs] at ht hw
    exact fun w₁ hw₁ => ht w₁ (rules.rely_trans hw hw₁)

/-- A step of a method up to its next call. -/
theorem follows_advance {m : Coroutine ε σ R α} {l : L} {h : Transcript ε R} {w₀ w : Shared σ S}
    (hm : Meets serve rules (settling rules post) m h w₀ w) :
    rules.guarantee h w₀ ⟨(m.advance w.memory).2, w.server⟩ ∧
      (⟨l, h, (m.advance w.memory).1⟩ : Thread ε σ R L α).Follows serve rules post
        ⟨(m.advance w.memory).2, w.server⟩ := by
  induction m generalizing h w₀ w with
  | resolve a => exact hm
  | reject e => exact hm
  | look k ih => exact ih _ hm
  | alter f m ih => exact ih hm
  | call c k ih => exact hm

end

/-- The thread an event is about. -/
def PoolEvent.actor (p : Pool ε σ S R L α) : PoolEvent L V → ℕ
  | .spawn _ => p.threads.length
  | .exec i _ | .resume i => i

/-- The rules of the methods of a pool fit together, in the steps that meet `C` and the states that
meet `I`. -/
structure Agreement (serve : Serve ε S V R) (code : L → Coroutine ε σ R α)
    (rules : L → Rules ε σ S V R) (post : L → Transcript ε R → Shared σ S → Except ε α → Prop)
    (C : Pool ε σ S R L α → PoolEvent L V → Prop) (I : Shared σ S → Prop) : Prop where
  spawn : ∀ {p l}, C p (.spawn l) → I p.toShared →
    Meets serve (rules l) (settling (rules l) (post l)) (code l) [] p.toShared p.toShared
  executes : ∀ {p i v l h c k}, C p (.exec i v) → I p.toShared →
    p.threads[i]? = some ⟨l, h, .waiting c k⟩ → (rules l).executes h c v p.toShared
  resumes : ∀ {p i l h c r k}, C p (.resume i) → I p.toShared →
    p.threads[i]? = some ⟨l, h, .ready c r k⟩ → (rules l).resumes h p.toShared
  relied : ∀ {p e p' t}, C p e → I p.toShared → (Pool.system serve code).step p e = some p' →
    p'.threads[e.actor p]? = some t → (rules t.label).guarantee t.heard p.toShared p'.toShared →
    ∀ {j t'}, j ≠ e.actor p → p.threads[j]? = some t' →
      (rules t'.label).rely t'.stage.command? p.toShared p'.toShared
  keeps : ∀ {l h w w'}, I w → (rules l).guarantee h w w' → I w'

namespace Agreement

variable {code : L → Coroutine ε σ R α} {rules : L → Rules ε σ S V R}
  {post : L → Transcript ε R → Shared σ S → Except ε α → Prop}
  {C : Pool ε σ S R L α → PoolEvent L V → Prop} {I : Shared σ S → Prop}

/-- Every method of the pool goes on as its rules say. -/
def Followed (serve : Serve ε S V R) (rules : L → Rules ε σ S V R)
    (post : L → Transcript ε R → Shared σ S → Except ε α → Prop) (I : Shared σ S → Prop)
    (p : Pool ε σ S R L α) : Prop :=
  I p.toShared ∧
    ∀ (i : ℕ) (t : Thread ε σ R L α), p.threads[i]? = some t →
      t.Follows serve (rules t.label) (post t.label) p.toShared

/-- The method that makes a step keeps its guarantee and goes on as its rules say. -/
theorem actor_step (hA : Agreement serve code rules post C I) {p p' : Pool ε σ S R L α}
    {e : PoolEvent L V} (hp : Followed serve rules post I p) (hC : C p e)
    (h : (Pool.system serve code).step p e = some p') :
    ∃ t, p'.threads[e.actor p]? = some t ∧
      (rules t.label).guarantee t.heard p.toShared p'.toShared ∧
      t.Follows serve (rules t.label) (post t.label) p'.toShared := by
  cases e with
  | spawn l =>
    obtain rfl := Option.some.inj h
    obtain ⟨hg, hf⟩ := follows_advance (l := l) (hA.spawn hC hp.1)
    exact ⟨⟨l, [], ((code l).advance p.memory).1⟩, by simp [Pool.spawn, PoolEvent.actor], hg, hf⟩
  | exec i v =>
    obtain ⟨l, heard, c, k, hi, rfl⟩ := Pool.exec_eq_some h
    have hlt : i < p.threads.length := (List.getElem?_eq_some_iff.mp hi).1
    have hf := hp.2 i _ hi p.toShared ((rules l).rely_refl _ _) v (hA.executes hC hp.1 hi)
    exact ⟨⟨l, ⟨c, (serve v c p.server).1⟩ :: heard, .ready c (serve v c p.server).1 k⟩,
      by simp [PoolEvent.actor, hlt], hf.1, hf.2⟩
  | resume i =>
    obtain ⟨l, heard, c, r, k, hi, rfl⟩ := Pool.resume_eq_some h
    have hlt : i < p.threads.length := (List.getElem?_eq_some_iff.mp hi).1
    have hf := hp.2 i _ hi p.toShared ((rules l).rely_refl _ _) (hA.resumes hC hp.1 hi)
    obtain ⟨hg, hf⟩ := follows_advance (l := l) hf
    exact ⟨⟨l, heard, ((k r).advance p.memory).1⟩, by simp [PoolEvent.actor, hlt], hg, hf⟩

/-- A step leaves the other methods where they are. -/
theorem getElem?_of_step {p p' : Pool ε σ S R L α} {e : PoolEvent L V}
    (h : (Pool.system serve code).step p e = some p') {j : ℕ} (hj : j ≠ e.actor p) :
    p'.threads[j]? = p.threads[j]? := by
  cases e with
  | spawn l =>
    obtain rfl := Option.some.inj h
    simp only [PoolEvent.actor] at hj
    rcases Nat.lt_or_gt_of_ne hj with hlt | hgt
    · simp [Pool.spawn, List.getElem?_append_left hlt]
    · have hnone : p.threads[j]? = none := List.getElem?_eq_none (by omega)
      rw [hnone, Pool.spawn, List.getElem?_eq_none]
      simp only [List.length_append, List.length_singleton]
      omega
  | exec i v =>
    obtain ⟨l, heard, c, k, -, rfl⟩ := Pool.exec_eq_some h
    simp only [PoolEvent.actor] at hj
    simp [Ne.symm hj]
  | resume i =>
    obtain ⟨l, heard, c, r, k, -, rfl⟩ := Pool.resume_eq_some h
    simp only [PoolEvent.actor] at hj
    simp [Ne.symm hj]

/-- What a step adds to the transcripts: nothing, or the command that was carried out in it. -/
theorem heard_of_step {p p' : Pool ε σ S R L α} {e : PoolEvent L V}
    (h : (Pool.system serve code).step p e = some p') {j : ℕ} {t' : Thread ε σ R L α}
    (hj : p'.threads[j]? = some t') :
    t'.heard = [] ∨ (∃ t, p.threads[j]? = some t ∧ t'.heard = t.heard) ∨
      ∃ t v c, p.threads[j]? = some t ∧ t'.heard = ⟨c, (serve v c p.server).1⟩ :: t.heard ∧
        p'.server = (serve v c p.server).2 := by
  by_cases hactor : j = e.actor p
  · subst hactor
    cases e with
    | spawn l =>
      obtain rfl := Option.some.inj h
      left
      simp only [Pool.spawn, PoolEvent.actor, List.getElem?_concat_length] at hj
      rw [← Option.some.inj hj]
    | exec i v =>
      obtain ⟨l, heard, c, k, hi, rfl⟩ := Pool.exec_eq_some h
      rw [PoolEvent.actor, List.getElem?_set_self (List.getElem?_eq_some_iff.mp hi).1] at hj
      rw [← Option.some.inj hj]
      exact .inr (.inr ⟨_, v, c, hi, rfl, rfl⟩)
    | resume i =>
      obtain ⟨l, heard, c, r, k, hi, rfl⟩ := Pool.resume_eq_some h
      rw [PoolEvent.actor, List.getElem?_set_self (List.getElem?_eq_some_iff.mp hi).1] at hj
      rw [← Option.some.inj hj]
      exact .inr (.inl ⟨_, hi, rfl⟩)
  · exact .inr (.inl ⟨t', (getElem?_of_step h hactor).symm.trans hj, rfl⟩)

/-- A step keeps every method within its rules. -/
theorem followed_step (hA : Agreement serve code rules post C I) {p p' : Pool ε σ S R L α}
    {e : PoolEvent L V} (hp : Followed serve rules post I p) (hC : C p e)
    (h : (Pool.system serve code).step p e = some p') : Followed serve rules post I p' := by
  obtain ⟨t, ht, hg, hf⟩ := hA.actor_step hp hC h
  refine ⟨hA.keeps hp.1 hg, fun j t' hj => ?_⟩
  by_cases hactor : j = e.actor p
  · subst hactor
    obtain rfl := Option.some.inj (ht.symm.trans hj)
    exact hf
  · rw [getElem?_of_step h hactor] at hj
    exact (hp.2 j t' hj).rely (hA.relied hC hp.1 h ht hg hactor hj)

/-- **Soundness.** In a run whose steps meet `C` every method goes on as its rules say. -/
theorem invariant (hA : Agreement serve code rules post C I) {p p' : Pool ε σ S R L α}
    {es : List (PoolEvent L V)} (hp : Followed serve rules post I p)
    (hC : (Pool.system serve code).StepsMeet C p es)
    (h : (Pool.system serve code).runFrom p es = some p') : Followed serve rules post I p' :=
  System.invariant_of_stepsMeet (fun _ _ _ hp hC hs => hA.followed_step hp hC hs) hp hC h

/-- **Every step of a run keeps the guarantee of the method that makes it.** -/
theorem guarantee (hA : Agreement serve code rules post C I) {p p' p'' : Pool ε σ S R L α}
    {es : List (PoolEvent L V)} {e : PoolEvent L V} (hp : Followed serve rules post I p)
    (hC : (Pool.system serve code).StepsMeet C p (es ++ [e]))
    (h : (Pool.system serve code).runFrom p es = some p')
    (hstep : (Pool.system serve code).step p' e = some p'') :
    ∃ t, p''.threads[e.actor p']? = some t ∧
      (rules t.label).guarantee t.heard p'.toShared p''.toShared := by
  obtain ⟨hes, he⟩ := System.meets_last hC h
  obtain ⟨t, ht, hg, -⟩ := hA.actor_step (hA.invariant hp hes h) he hstep
  exact ⟨t, ht, hg⟩

/-- **One method may do better than its label promises.** What its code meets where it is called is
what its thread goes on by, whatever follows. -/
theorem follows_of_called (hA : Agreement serve code rules post C I) {l : L}
    (post' : Transcript ε R → Shared σ S → Except ε α → Prop) {p p' : Pool ε σ S R L α}
    {es : List (PoolEvent L V)} (hp : Followed serve rules post I p)
    (hm : Meets serve (rules l) (settling (rules l) post') (code l) [] p.toShared p.toShared)
    (hC : (Pool.system serve code).StepsMeet C p (.spawn l :: es))
    (h : (Pool.system serve code).runFrom p (.spawn l :: es) = some p') :
    ∃ t, p'.threads[p.threads.length]? = some t ∧ t.label = l ∧
      t.Follows serve (rules l) post' p'.toShared := by
  obtain ⟨p₁, hspawn, hrun⟩ := System.runFrom_cons_eq_some.mp h
  let J (q : Pool ε σ S R L α) : Prop := Followed serve rules post I q ∧
    ∃ t, q.threads[p.threads.length]? = some t ∧ t.label = l ∧
      t.Follows serve (rules l) post' q.toShared
  have hstep (q : Pool ε σ S R L α) (e : PoolEvent L V) (q' : Pool ε σ S R L α) (hJ : J q)
      (hCe : C q e) (hs : (Pool.system serve code).step q e = some q') : J q' := by
    obtain ⟨hq, t, ht, hl, hf⟩ := hJ
    refine ⟨hA.followed_step hq hCe hs, ?_⟩
    by_cases hactor : p.threads.length = e.actor q
    · have hlt : p.threads.length < q.threads.length := (List.getElem?_eq_some_iff.mp ht).1
      cases e with
      | spawn l' => exact absurd hactor (Nat.ne_of_lt hlt)
      | exec i v =>
        obtain rfl : p.threads.length = i := hactor
        obtain ⟨l', heard, c, k, hi, rfl⟩ := Pool.exec_eq_some hs
        obtain rfl := Option.some.inj (ht.symm.trans hi)
        obtain rfl : l' = l := hl
        have hf := hf q.toShared ((rules l').rely_refl _ _) v (hA.executes hCe hq.1 hi)
        exact ⟨_, List.getElem?_set_self hlt, rfl, hf.2⟩
      | resume i =>
        obtain rfl : p.threads.length = i := hactor
        obtain ⟨l', heard, c, r, k, hi, rfl⟩ := Pool.resume_eq_some hs
        obtain rfl := Option.some.inj (ht.symm.trans hi)
        obtain rfl : l' = l := hl
        have hf := hf q.toShared ((rules l').rely_refl _ _) (hA.resumes hCe hq.1 hi)
        exact ⟨_, List.getElem?_set_self hlt, rfl, (follows_advance (l := l') hf).2⟩
    · obtain ⟨t', ht', hg, -⟩ := hA.actor_step hq hCe hs
      have hrely := hA.relied hCe hq.1 hs ht' hg hactor ht
      exact ⟨t, (getElem?_of_step hs hactor).trans ht, hl, hf.rely (hl ▸ hrely)⟩
  have hfirst : J p₁ := by
    obtain rfl := Option.some.inj hspawn
    refine ⟨hA.followed_step hp hC.1 hspawn, ⟨l, [], ((code l).advance p.memory).1⟩, ?_, rfl, ?_⟩
    · simp [Pool.spawn]
    · exact (follows_advance hm).2
  exact (System.invariant_of_stepsMeet hstep hfirst (hC.2 p₁ hspawn) hrun).2

/-- A pool in which no method was called yet. -/
theorem followed_nil {m : σ} {s : S} (hI : I ⟨m, s⟩) :
    Followed serve rules post I (⟨⟨m, s⟩, []⟩ : Pool ε σ S R L α) :=
  ⟨hI, fun i t ht => by simp at ht⟩

/-- What a settled method has promised holds from then on. -/
theorem Followed.post_of_settled {p : Pool ε σ S R L α} (hp : Followed serve rules post I p) {i : ℕ}
    {l : L} {heard : Transcript ε R} {r : Except ε α}
    (hi : p.threads[i]? = some ⟨l, heard, .settled r⟩) : post l heard p.toShared r :=
  hp.2 i _ hi p.toShared ((rules l).rely_refl _ _)

end Agreement

/-! ## One method among others -/

/-- Relying on nothing and keeping the transcript to `Q`. -/
def Rules.noting (Q : Transcript ε R → Prop) : Rules ε σ S V R where
  rely _ _ _ := True
  executes _ _ _ _ := True
  resumes _ _ := True
  guarantee h _ _ := Q h
  rely_refl _ _ := trivial
  rely_trans _ _ := trivial

/-- A method of which nothing is asked. -/
theorem meets_noting_true {post : Post ε σ S R α} (hp : ∀ h w₀ w r, post h w₀ w r)
    (m : Coroutine ε σ R α) (h : Transcript ε R) (w₀ w : Shared σ S) :
    Meets serve (.noting fun _ => True) post m h w₀ w := by
  induction m generalizing h w₀ w with
  | resolve a => exact hp _ _ _ _
  | reject e => exact hp _ _ _ _
  | look k ih => exact ih _ _ _ _
  | alter f m ih => exact ih _ _ _
  | call c k ih => exact ⟨trivial, fun _ _ _ _ => ⟨trivial, fun _ _ _ => ih _ _ _ _⟩⟩

/-- **What one method notes, whatever the others do.** From its call on the transcript of the method
meets `Q`, and `post` once the method has settled. -/
theorem heard_of_called {code : L → Coroutine ε σ R α} {Q : Transcript ε R → Prop}
    {post : Transcript ε R → Except ε α → Prop} {l : L}
    (hm : ∀ w, Meets serve (.noting Q) (fun h _ _ r => Q h ∧ post h r) (code l) [] w w)
    {p p' : Pool ε σ S R L α} {es : List (PoolEvent L V)}
    (h : (Pool.system serve code).runFrom p (.spawn l :: es) = some p') :
    ∃ t, p'.threads[p.threads.length]? = some t ∧ Q t.heard ∧
      ∀ r, t.stage = .settled r → post t.heard r := by
  obtain ⟨p₁, hspawn, hrun⟩ := System.runFrom_cons_eq_some.mp h
  obtain rfl := Option.some.inj hspawn
  let I (q : Pool ε σ S R L α) : Prop := ∃ t, q.threads[p.threads.length]? = some t ∧ Q t.heard ∧
    t.Follows serve (.noting Q) (fun h _ r => post h r) q.toShared
  have hstep (q : Pool ε σ S R L α) (e : PoolEvent L V) (q' : Pool ε σ S R L α) (hI : I q)
      (hs : (Pool.system serve code).step q e = some q') : I q' := by
    obtain ⟨t, ht, hQ, hf⟩ := hI
    by_cases hactor : p.threads.length = e.actor q
    · have hlt : p.threads.length < q.threads.length := (List.getElem?_eq_some_iff.mp ht).1
      cases e with
      | spawn l' => exact absurd hactor (Nat.ne_of_lt hlt)
      | exec i v =>
        obtain rfl : p.threads.length = i := hactor
        obtain ⟨l', heard, c, k, hi, rfl⟩ := Pool.exec_eq_some hs
        obtain rfl := Option.some.inj (ht.symm.trans hi)
        have hanswered := hf q.toShared trivial v trivial
        exact ⟨_, List.getElem?_set_self hlt, hanswered.1, hanswered.2⟩
      | resume i =>
        obtain rfl : p.threads.length = i := hactor
        obtain ⟨l', heard, c, r, k, hi, rfl⟩ := Pool.resume_eq_some hs
        obtain rfl := Option.some.inj (ht.symm.trans hi)
        exact ⟨_, List.getElem?_set_self hlt, hQ,
          (follows_advance (l := l') (hf q.toShared trivial trivial)).2⟩
    · exact ⟨t, (Agreement.getElem?_of_step hs hactor).trans ht, hQ, hf.rely trivial⟩
  obtain ⟨hQ, hf⟩ := follows_advance (l := l) ((hm p.toShared).mono fun h w₀ w r hr =>
    (⟨hr.1, fun _ _ => hr.2⟩ : settling (.noting Q) (fun h _ r => post h r) h w₀ w r))
  obtain ⟨t, ht, hQ, hf⟩ := System.invariant hstep
    ⟨⟨l, [], ((code l).advance p.memory).1⟩, by simp [Pool.spawn], hQ, hf⟩ hrun
  refine ⟨t, ht, hQ, fun r hr => ?_⟩
  obtain ⟨l', heard, stage⟩ := t
  obtain rfl : stage = .settled r := hr
  exact hf p'.toShared trivial

/-- The same of all methods of a pool, each of which notes something of its own. -/
theorem noted_of_run {code : L → Coroutine ε σ R α} (Q : L → Transcript ε R → Prop)
    (post : L → Transcript ε R → Except ε α → Prop)
    (hm : ∀ l w, Meets serve (.noting (Q l)) (fun h _ _ r => Q l h ∧ post l h r) (code l) [] w w)
    {m : σ} {s : S} {es : List (PoolEvent L V)} {p : Pool ε σ S R L α}
    (h : (Pool.system serve code).runFrom ⟨⟨m, s⟩, []⟩ es = some p) :
    ∀ t ∈ p.threads, Q t.label t.heard ∧ ∀ r, t.stage = .settled r → post t.label t.heard r := by
  let I (q : Pool ε σ S R L α) : Prop := ∀ t ∈ q.threads, Q t.label t.heard ∧
    t.Follows serve (.noting (Q t.label)) (fun h _ r => post t.label h r) q.toShared
  have hstep (q : Pool ε σ S R L α) (e : PoolEvent L V) (q' : Pool ε σ S R L α) (hI : I q)
      (hs : (Pool.system serve code).step q e = some q') : I q' := by
    intro t ht
    obtain hold | ⟨l, -, -, rfl⟩ | ⟨i, v, l, heard, c, k, -, hi, -, rfl⟩ |
      ⟨i, l, heard, c, r, k, -, hi, -, rfl⟩ := Pool.mem_threads_of_step hs ht
    · exact ⟨(hI t hold).1, (hI t hold).2.rely trivial⟩
    · obtain ⟨hQ, hf⟩ := follows_advance (l := l) ((hm l q.toShared).mono fun h w₀ w r hr =>
        (⟨hr.1, fun _ _ => hr.2⟩ : settling (.noting (Q l)) (fun h _ r => post l h r) h w₀ w r))
      exact ⟨hQ, hf.rely trivial⟩
    · obtain ⟨-, hf⟩ := hI _ (List.mem_of_getElem? hi)
      obtain ⟨hQ, hcont⟩ := hf q.toShared trivial v trivial
      exact ⟨hQ, fun w₁ _ _ => hcont w₁ trivial trivial⟩
    · obtain ⟨hQ, hf⟩ := hI _ (List.mem_of_getElem? hi)
      obtain ⟨-, hf⟩ := follows_advance (l := l) (hf q.toShared trivial trivial)
      exact ⟨hQ, hf.rely trivial⟩
  intro t ht
  obtain ⟨hQ, hf⟩ := System.invariant hstep (fun _ ht => absurd ht List.not_mem_nil) h t ht
  refine ⟨hQ, fun r hr => ?_⟩
  obtain ⟨l, heard, stage⟩ := t
  obtain rfl : stage = .settled r := hr
  exact hf p.toShared trivial

/-! ## Transcripts -/

/-- Relying on nothing and guaranteeing nothing. -/
def Rules.free : Rules ε σ S V R where
  rely _ _ _ := True
  executes _ _ _ _ := True
  resumes _ _ := True
  guarantee _ _ _ := True
  rely_refl _ _ := trivial
  rely_trans _ _ := trivial

/-- Given a transcript meeting `J`, the method keeps its guarantee and leaves one meeting `J`. -/
def Maintains (serve : Serve ε S V R) (rules : Rules ε σ S V R) (J : Transcript ε R → Prop)
    (m : Coroutine ε σ R α) : Prop :=
  ∀ h w₀ w, J h → Meets serve rules (fun h _ _ _ => J h) m h w₀ w

namespace Maintains

variable {J : Transcript ε R → Prop}

theorem pure (a : α) : Maintains serve rules J (pure a : Coroutine ε σ R α) :=
  fun _ _ _ hJ => hJ

theorem throw (e : ε) : Maintains serve rules J (throw e : Coroutine ε σ R α) :=
  fun _ _ _ hJ => hJ

theorem modify (f : σ → σ) : Maintains serve rules J (.modify f : Coroutine ε σ R Unit) :=
  fun _ _ _ hJ => hJ

theorem read_bind {f : σ → β} {k : β → Coroutine ε σ R α}
    (hk : ∀ b, Maintains serve rules J (k b)) : Maintains serve rules J (.read f >>= k) :=
  fun h w₀ w hJ => hk (f w.memory) h w₀ w hJ

/-- A command that makes no difference to `J`, where the guarantee is about the transcript. -/
theorem await {c : C} (hg : ∀ h w w', J h → rules.guarantee h w w')
    (hc : ∀ h v s, J h → J (⟨c, (serve v c s).1⟩ :: h)) :
    Maintains serve rules J (.await c : Coroutine ε σ R (R c)) := by
  intro h w₀ w hJ
  refine meets_await.mpr ⟨hg _ _ _ hJ, fun w₁ _ v _ => ?_⟩
  have hJ' := hc h v w₁.server hJ
  exact ⟨hg _ _ _ hJ', fun _ _ _ => hJ'⟩

theorem bind {m : Coroutine ε σ R α} {f : α → Coroutine ε σ R β}
    (hm : Maintains serve rules J m) (hf : ∀ a, Maintains serve rules J (f a)) :
    Maintains serve rules J (m >>= f) := by
  intro h w₀ w hJ
  refine meets_bind.mpr ((hm h w₀ w hJ).mono fun h w₀ w r hr => ?_)
  cases r with
  | ok a => exact hf a h w₀ w hr
  | error e => exact hr

theorem handle {m : Coroutine ε σ R α} {handler : ε → Coroutine ε σ R α}
    (hm : Maintains serve rules J m) (hh : ∀ e, Maintains serve rules J (handler e)) :
    Maintains serve rules J (tryCatch m handler) := by
  intro h w₀ w hJ
  refine meets_tryCatch.mpr ((hm h w₀ w hJ).mono fun h w₀ w r hr => ?_)
  cases r with
  | ok a => exact hr
  | error e => exact hh e h w₀ w hr

theorem forEach {γ : Type} {body : γ → Coroutine ε σ R Unit} {l : List γ}
    (hbody : ∀ x ∈ l, Maintains serve rules J (body x)) :
    Maintains serve rules J (Coroutine.forEach body l) := by
  induction l with
  | nil => exact pure ()
  | cons x l ih =>
    exact (hbody x List.mem_cons_self).bind fun _ =>
      ih fun y hy => hbody y (List.mem_cons_of_mem x hy)

end Maintains

/-- Whatever its answers are and whatever the others do, the method leaves a transcript meeting `Q`
if it was given one. -/
abbrev Transcribes (serve : Serve ε S V R) (Q : Transcript ε R → Prop) (m : Coroutine ε σ R α) :
    Prop :=
  Maintains serve .free Q m

/-- **The transcript of a settled method** meets what every method keeps. -/
theorem Transcribes.of_settled {Q : Transcript ε R → Prop} {code : L → Coroutine ε σ R α}
    (hcode : ∀ l, Transcribes serve Q (code l)) (hnil : Q []) {m : σ} {s : S}
    {es : List (PoolEvent L V)} {p : Pool ε σ S R L α}
    (h : (Pool.system serve code).runFrom ⟨⟨m, s⟩, []⟩ es = some p) {t : Thread ε σ R L α}
    (ht : t ∈ p.threads) {r : Except ε α} (hr : t.stage = .settled r) : Q t.heard := by
  have hA : Agreement serve code (fun _ => .free) (fun _ h _ _ => Q h) (fun _ _ => True)
      fun _ => True :=
    { spawn := fun {p l} _ _ => (hcode l [] _ _ hnil).mono fun _ _ _ _ hQ =>
        ⟨trivial, fun _ _ => hQ⟩
      executes := fun _ _ _ => trivial
      resumes := fun _ _ _ => trivial
      relied := fun _ _ _ _ _ _ _ _ _ => trivial
      keeps := fun _ _ => trivial }
  have hfollowed := hA.invariant (Agreement.followed_nil trivial)
    (System.stepsMeet_of_forall (fun _ _ => trivial) _ es) h
  obtain ⟨i, hi⟩ := List.getElem?_of_mem ht
  obtain ⟨l, heard, stage⟩ := t
  obtain rfl : stage = .settled r := hr
  exact hfollowed.post_of_settled hi

end Effects
