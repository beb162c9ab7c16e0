import KitiumJobQueue.Foundations.Effects
import KitiumJobQueue.Foundations.Lists
import KitiumJobQueue.Foundations.Systems

/-!
# Asynchronous methods that overlap

A `Coroutine` is the body of an asynchronous method: it reads and changes the memory of its object,
and at a `call` it waits for the answer of a service. Between two calls it runs without
interruption; while it waits, other methods of the object run. `Effects.Async` is for methods that
run one after another, `Coroutine` for those that may be interleaved.

A `Pool` is an object, a service and the methods in progress. An event starts a method, lets the
service carry out a command that was sent, or hands an answer to the method waiting for it, so a run
of the pool is an interleaving at the points of waiting. How a command turns out is part of the
event.

`Coroutine.alone` runs a method while no other runs, as an `Effects.Async`; `Pool.exists_run_alone`
says that this is one of the runs of a pool.
-/

namespace Effects

/-! ## Methods -/

/-- The body of an asynchronous method over a memory `σ`, the command `c` being answered by an
`R c`. -/
inductive Coroutine (ε σ : Type) {C : Type} (R : C → Type) (α : Type) : Type
  | resolve (a : α)
  | reject (e : ε)
  | look (k : σ → Coroutine ε σ R α)
  | alter (f : σ → σ) (m : Coroutine ε σ R α)
  | call (c : C) (k : Except ε (R c) → Coroutine ε σ R α)

variable {ε σ S V L C : Type} {R : C → Type} {α β : Type}

namespace Coroutine

/-- Wait for `m` and go on with `f`; a rejection of `m` is passed on. -/
def andThen : Coroutine ε σ R α → (α → Coroutine ε σ R β) → Coroutine ε σ R β
  | .resolve a, f => f a
  | .reject e, _ => .reject e
  | .look k, f => .look fun s => (k s).andThen f
  | .alter g m, f => .alter g (m.andThen f)
  | .call c k, f => .call c fun r => (k r).andThen f

/-- Run `m`; if it rejects, go on with the handler. -/
def orElse : Coroutine ε σ R α → (ε → Coroutine ε σ R α) → Coroutine ε σ R α
  | .resolve a, _ => .resolve a
  | .reject e, h => h e
  | .look k, h => .look fun s => (k s).orElse h
  | .alter g m, h => .alter g (m.orElse h)
  | .call c k, h => .call c fun r => (k r).orElse h

instance : Monad (Coroutine ε σ R) where
  pure := .resolve
  bind := andThen

instance : MonadExcept ε (Coroutine ε σ R) where
  throw := .reject
  tryCatch := orElse

theorem bind_assoc {γ : Type} (m : Coroutine ε σ R α) (f : α → Coroutine ε σ R β)
    (g : β → Coroutine ε σ R γ) : m >>= f >>= g = m >>= fun a => f a >>= g := by
  induction m with
  | resolve a => rfl
  | reject e => rfl
  | look k ih => exact congrArg Coroutine.look (funext ih)
  | alter h m ih => exact congrArg (Coroutine.alter h) ih
  | call c k ih => exact congrArg (Coroutine.call c) (funext ih)

/-- Read the memory. -/
def read (f : σ → α) : Coroutine ε σ R α := .look fun s => .resolve (f s)

/-- Change the memory. -/
def modify (f : σ → σ) : Coroutine ε σ R Unit := .alter f (.resolve ())

/-- Send a command and wait for its answer; an error is thrown. -/
def await (c : C) : Coroutine ε σ R (R c) :=
  .call c fun
    | .ok r => .resolve r
    | .error e => .reject e

/-- `for x of l do body x` -/
def forEach {γ : Type} (body : γ → Coroutine ε σ R Unit) : List γ → Coroutine ε σ R Unit
  | [] => pure ()
  | x :: l => do
    body x
    forEach body l

end Coroutine

/-! ## What a method may ask for -/

/-- As long as the memory meets `J`, the method sends only commands meeting `P`, and keeps `J`. -/
def Coroutine.Confined (J : σ → Prop) (P : C → Prop) : Coroutine ε σ R α → Prop
  | .resolve _ => True
  | .reject _ => True
  | .look k => ∀ s, J s → (k s).Confined J P
  | .alter f m => (∀ s, J s → J (f s)) ∧ m.Confined J P
  | .call c k => P c ∧ ∀ r, (k r).Confined J P

namespace Coroutine.Confined

variable {J : σ → Prop} {P : C → Prop}

theorem pure (a : α) : (pure a : Coroutine ε σ R α).Confined J P := trivial

theorem throw (e : ε) : (throw e : Coroutine ε σ R α).Confined J P := trivial

theorem modify {f : σ → σ} (hf : ∀ s, J s → J (f s)) :
    (Coroutine.modify f : Coroutine ε σ R Unit).Confined J P := ⟨hf, trivial⟩

theorem await {c : C} (hc : P c) : (Coroutine.await c : Coroutine ε σ R (R c)).Confined J P := by
  refine ⟨hc, fun r => ?_⟩
  cases r <;> trivial

theorem bind {m : Coroutine ε σ R α} {f : α → Coroutine ε σ R β} (hm : m.Confined J P)
    (hf : ∀ a, (f a).Confined J P) : (m >>= f).Confined J P := by
  induction m with
  | resolve a => exact hf a
  | reject e => trivial
  | look k ih => exact fun s hs => ih s (hm s hs)
  | alter g m ih => exact ⟨hm.1, ih hm.2⟩
  | call c k ih => exact ⟨hm.1, fun r => ih r (hm.2 r)⟩

/-- What is read is known to come from a memory meeting `J`. -/
theorem read_bind {f : σ → α} {k : α → Coroutine ε σ R β}
    (hk : ∀ s, J s → (k (f s)).Confined J P) : (Coroutine.read f >>= k).Confined J P :=
  fun s hs => hk s hs

theorem handle {m : Coroutine ε σ R α} {h : ε → Coroutine ε σ R α} (hm : m.Confined J P)
    (hh : ∀ e, (h e).Confined J P) : (tryCatch m h).Confined J P := by
  induction m with
  | resolve a => trivial
  | reject e => exact hh e
  | look k ih => exact fun s hs => ih s (hm s hs)
  | alter g m ih => exact ⟨hm.1, ih hm.2⟩
  | call c k ih => exact ⟨hm.1, fun r => ih r (hm.2 r)⟩

theorem forEach {γ : Type} {body : γ → Coroutine ε σ R Unit} {l : List γ}
    (hbody : ∀ x ∈ l, (body x).Confined J P) : (Coroutine.forEach body l).Confined J P := by
  induction l with
  | nil => trivial
  | cons x l ih =>
    exact (hbody x List.mem_cons_self).bind fun _ =>
      ih fun y hy => hbody y (List.mem_cons_of_mem x hy)

theorem of_true {J : σ → Prop} (hJ : ∀ s, J s) (m : Coroutine ε σ R α) :
    m.Confined J fun _ => True := by
  induction m with
  | resolve a => trivial
  | reject e => trivial
  | look k ih => exact fun s _ => ih s
  | alter f m ih => exact ⟨fun s _ => hJ (f s), ih⟩
  | call c k ih => exact ⟨trivial, ih⟩

end Coroutine.Confined

/-! ## Pools -/

/-- The memory of the object and the state of the service. -/
structure Shared (σ S : Type) where
  memory : σ
  server : S

/-- Where a method is: it waits for a command to be carried out, its answer is on the way, or it has
settled. -/
inductive Stage (ε σ : Type) {C : Type} (R : C → Type) (α : Type) : Type
  | waiting (c : C) (k : Except ε (R c) → Coroutine ε σ R α)
  | ready (c : C) (r : Except ε (R c)) (k : Except ε (R c) → Coroutine ε σ R α)
  | settled (r : Except ε α)

/-- The command a method waits for. -/
def Stage.command? : Stage ε σ R α → Option C
  | .waiting c _ | .ready c _ _ => some c
  | .settled _ => none

instance (stage : Stage ε σ R α) : Decidable (∃ r, stage = .settled r) :=
  match stage with
  | .settled r => .isTrue ⟨r, rfl⟩
  | .waiting _ _ | .ready _ _ _ => .isFalse fun ⟨_, h⟩ => nomatch h

/-- The rest of a method is confined. -/
def Stage.Confined (J : σ → Prop) (P : C → Prop) : Stage ε σ R α → Prop
  | .waiting c k => P c ∧ ∀ r, (k r).Confined J P
  | .ready _ _ k => ∀ r, (k r).Confined J P
  | .settled _ => True

/-- Run a method up to its next call. -/
def Coroutine.advance : Coroutine ε σ R α → σ → Stage ε σ R α × σ
  | .resolve a, s => (.settled (.ok a), s)
  | .reject e, s => (.settled (.error e), s)
  | .look k, s => (k s).advance s
  | .alter f m, s => m.advance (f s)
  | .call c k, s => (.waiting c k, s)

@[simp] theorem Coroutine.advance_read_bind (f : σ → β) (k : β → Coroutine ε σ R α) (s : σ) :
    (Coroutine.read f >>= k : Coroutine ε σ R α).advance s = (k (f s)).advance s := rfl

/-- The commands of a method that were carried out, with their answers, newest first. -/
abbrev Transcript (ε : Type) {C : Type} (R : C → Type) : Type := List (Σ c, Except ε (R c))

/-- A method in progress or settled, `label` saying which call of which method it is. -/
structure Thread (ε σ : Type) {C : Type} (R : C → Type) (L α : Type) where
  label : L
  heard : Transcript ε R
  stage : Stage ε σ R α

/-- An object, a service, and the methods called so far. -/
structure Pool (ε σ S : Type) {C : Type} (R : C → Type) (L α : Type) extends Shared σ S where
  threads : List (Thread ε σ R L α) := []

/-- What happens in a pool: a method is called, the service carries out the command of a method, or
a method gets its answer. `V` is what the environment chooses about a command. -/
inductive PoolEvent (L V : Type)
  | spawn (label : L)
  | exec (thread : ℕ) (choice : V)
  | resume (thread : ℕ)
  deriving DecidableEq

/-- What a service does on a command. -/
abbrev Serve (ε S V : Type) {C : Type} (R : C → Type) : Type :=
  V → (c : C) → S → Except ε (R c) × S

namespace Pool

variable (serve : Serve ε S V R) (code : L → Coroutine ε σ R α)

/-- Start a method: it runs up to its first call. -/
def spawn (p : Pool ε σ S R L α) (l : L) : Pool ε σ S R L α where
  memory := ((code l).advance p.memory).2
  server := p.server
  threads := p.threads ++ [⟨l, [], ((code l).advance p.memory).1⟩]

/-- Carry out the command of a waiting method. -/
def exec (p : Pool ε σ S R L α) (i : ℕ) (v : V) : Option (Pool ε σ S R L α) :=
  match p.threads[i]? with
  | some ⟨l, h, .waiting c k⟩ =>
    let answer := serve v c p.server
    some { p with
      server := answer.2
      threads := p.threads.set i ⟨l, ⟨c, answer.1⟩ :: h, .ready c answer.1 k⟩ }
  | some ⟨_, _, .ready _ _ _⟩ | some ⟨_, _, .settled _⟩ | none => none

/-- Hand over an answer: the method runs up to its next call. -/
def resume (p : Pool ε σ S R L α) (i : ℕ) : Option (Pool ε σ S R L α) :=
  match p.threads[i]? with
  | some ⟨l, h, .ready _ r k⟩ =>
    some { p with
      memory := ((k r).advance p.memory).2
      threads := p.threads.set i ⟨l, h, ((k r).advance p.memory).1⟩ }
  | some ⟨_, _, .waiting _ _⟩ | some ⟨_, _, .settled _⟩ | none => none

/-- Pools under any interleaving. -/
def system : System (Pool ε σ S R L α) (PoolEvent L V) where
  step p
    | .spawn l => some (p.spawn code l)
    | .exec i v => p.exec serve i v
    | .resume i => p.resume i

variable {serve} {code} {p p' : Pool ε σ S R L α} {i : ℕ}

/-- What the carrying out of a command does to a pool. -/
theorem exec_eq_some {v : V} (h : p.exec serve i v = some p') :
    ∃ l heard c k, p.threads[i]? = some ⟨l, heard, .waiting c k⟩ ∧
      p' =
        { memory := p.memory
          server := (serve v c p.server).2
          threads := p.threads.set i
            ⟨l, ⟨c, (serve v c p.server).1⟩ :: heard, .ready c (serve v c p.server).1 k⟩ } := by
  unfold exec at h
  split at h <;> try cases h
  rename_i l heard c k hi
  exact ⟨l, heard, c, k, hi, rfl⟩

/-- What the handing over of an answer does to a pool. -/
theorem resume_eq_some (h : p.resume i = some p') :
    ∃ l heard c r k, p.threads[i]? = some ⟨l, heard, .ready c r k⟩ ∧
      p' =
        { memory := ((k r).advance p.memory).2
          server := p.server
          threads := p.threads.set i ⟨l, heard, ((k r).advance p.memory).1⟩ } := by
  unfold resume at h
  split at h <;> try cases h
  rename_i l heard c r k hi
  exact ⟨l, heard, c, r, k, hi, rfl⟩

/-- **The methods after a step**: those that wait as before, one that was called, one whose command
was carried out, or one that was handed an answer. -/
theorem mem_threads_of_step {e : PoolEvent L V} (h : (system serve code).step p e = some p')
    {t : Thread ε σ R L α} (ht : t ∈ p'.threads) :
    t ∈ p.threads ∨
    (∃ l, e = .spawn l ∧ p'.server = p.server ∧ t = ⟨l, [], ((code l).advance p.memory).1⟩) ∨
    (∃ i v l heard c k, e = .exec i v ∧ p.threads[i]? = some ⟨l, heard, .waiting c k⟩ ∧
      p'.server = (serve v c p.server).2 ∧
      t = ⟨l, ⟨c, (serve v c p.server).1⟩ :: heard, .ready c (serve v c p.server).1 k⟩) ∨
    ∃ i l heard c r k, e = .resume i ∧ p.threads[i]? = some ⟨l, heard, .ready c r k⟩ ∧
      p'.server = p.server ∧ t = ⟨l, heard, ((k r).advance p.memory).1⟩ := by
  cases e with
  | spawn l =>
    obtain rfl := Option.some.inj h
    rcases List.mem_append.mp ht with ht | ht
    · exact .inl ht
    · exact .inr (.inl ⟨l, rfl, rfl, List.mem_singleton.mp ht⟩)
  | exec i v =>
    obtain ⟨l, heard, c, k, hi, rfl⟩ := exec_eq_some h
    rcases List.mem_or_eq_of_mem_set ht with ht | ht
    · exact .inl ht
    · exact .inr (.inr (.inl ⟨i, v, l, heard, c, k, rfl, hi, rfl, ht⟩))
  | resume i =>
    obtain ⟨l, heard, c, r, k, hi, rfl⟩ := resume_eq_some h
    rcases List.mem_or_eq_of_mem_set ht with ht | ht
    · exact .inl ht
    · exact .inr (.inr (.inr ⟨i, l, heard, c, r, k, rfl, hi, rfl, ht⟩))

/-- The service changes only when a command is carried out. -/
theorem server_of_step {e : PoolEvent L V} (h : (system serve code).step p e = some p') :
    p'.server = p.server ∨
      ∃ i v l heard c k, e = .exec i v ∧ p.threads[i]? = some ⟨l, heard, .waiting c k⟩ ∧
        p'.server = (serve v c p.server).2 := by
  cases e with
  | spawn l =>
    obtain rfl := Option.some.inj h
    exact .inl rfl
  | exec i v =>
    obtain ⟨l, heard, c, k, hi, rfl⟩ := exec_eq_some h
    exact .inr ⟨i, v, l, heard, c, k, rfl, hi, rfl⟩
  | resume i =>
    obtain ⟨l, heard, c, r, k, -, rfl⟩ := resume_eq_some h
    exact .inl rfl

/-! ## What was carried out -/

section

variable {γ : Type} (g : (Σ c, Except ε (R c)) → Option γ)

/-- What `g` makes of the commands of all methods that were carried out. -/
def carriedOut (p : Pool ε σ S R L α) : List γ := p.threads.flatMap fun t => t.heard.filterMap g

/-- Where a thread is replaced, what it contributes changes. -/
theorem carriedOut_set {t t' : Thread ε σ R L α} (hi : p.threads[i]? = some t)
    {memory : σ} {server : S} {new : List γ}
    (ht : t'.heard.filterMap g = new ++ t.heard.filterMap g) :
    (carriedOut g ⟨⟨memory, server⟩, p.threads.set i t'⟩).Perm (new ++ p.carriedOut g) :=
  List.flatMap_set_perm hi ht

theorem carriedOut_spawn (l : L) : (p.spawn code l).carriedOut g = p.carriedOut g := by
  simp [carriedOut, spawn]

theorem carriedOut_exec {v : V} {l : L} {heard : Transcript ε R} {c : C}
    {k : Except ε (R c) → Coroutine ε σ R α} (hi : p.threads[i]? = some ⟨l, heard, .waiting c k⟩)
    (memory : σ) (server : S) :
    (carriedOut g ⟨⟨memory, server⟩, p.threads.set i
        ⟨l, ⟨c, (serve v c p.server).1⟩ :: heard, .ready c (serve v c p.server).1 k⟩⟩).Perm
      ((g ⟨c, (serve v c p.server).1⟩).toList ++ p.carriedOut g) := by
  refine carriedOut_set g hi ?_
  cases hg : g ⟨c, (serve v c p.server).1⟩ <;> simp [hg]

theorem carriedOut_resume (h : p.resume i = some p') :
    (p'.carriedOut g).Perm (p.carriedOut g) := by
  obtain ⟨l, heard, c, r, k, hi, rfl⟩ := resume_eq_some h
  refine (carriedOut_set g hi ?_ : (carriedOut g _).Perm ([] ++ p.carriedOut g))
  rfl

end

/-! ## Confined methods in a pool -/

section

variable {J : σ → Prop} {P : C → Prop}

theorem confined_advance {m : Coroutine ε σ R α} (hm : m.Confined J P) {s : σ} (hs : J s) :
    J (m.advance s).2 ∧ (m.advance s).1.Confined J P := by
  induction m generalizing s with
  | resolve a => exact ⟨hs, trivial⟩
  | reject e => exact ⟨hs, trivial⟩
  | look k ih => exact ih s (hm s hs) hs
  | alter f m ih => exact ih hm.2 (hm.1 s hs)
  | call c k ih => exact ⟨hs, hm⟩

/-- The memory meets `J`, and so will every method as long as it goes on. -/
def Confined (J : σ → Prop) (P : C → Prop) (p : Pool ε σ S R L α) : Prop :=
  J p.memory ∧ ∀ t ∈ p.threads, t.stage.Confined J P

/-- A step of a pool of confined methods sends only commands meeting `P`. -/
theorem confined_step (hcode : ∀ l, (code l).Confined J P) {T : S → S → Prop}
    (hrefl : ∀ s, T s s) (hserve : ∀ v c s, P c → T s (serve v c s).2) {e : PoolEvent L V}
    (hp : p.Confined J P) (h : (system serve code).step p e = some p') :
    p'.Confined J P ∧ T p.server p'.server := by
  cases e with
  | spawn l =>
    obtain rfl := Option.some.inj h
    obtain ⟨hJ, hstage⟩ := confined_advance (hcode l) hp.1
    refine ⟨⟨hJ, fun t ht => ?_⟩, hrefl _⟩
    rcases List.mem_append.mp ht with ht | ht
    · exact hp.2 t ht
    · obtain rfl := List.mem_singleton.mp ht
      exact hstage
  | exec i v =>
    obtain ⟨l, heard, c, k, hi, rfl⟩ := exec_eq_some h
    obtain ⟨hc, hk⟩ : P c ∧ ∀ r, (k r).Confined J P := hp.2 _ (List.mem_of_getElem? hi)
    refine ⟨⟨hp.1, fun t ht => ?_⟩, hserve v c p.server hc⟩
    rcases List.mem_or_eq_of_mem_set ht with ht | rfl
    · exact hp.2 t ht
    · exact hk
  | resume i =>
    obtain ⟨l, heard, c, r, k, hi, rfl⟩ := resume_eq_some h
    have hk : ∀ r, (k r).Confined J P := hp.2 _ (List.mem_of_getElem? hi)
    obtain ⟨hJ, hstage⟩ := confined_advance (hk r) hp.1
    refine ⟨⟨hJ, fun t ht => ?_⟩, hrefl _⟩
    rcases List.mem_or_eq_of_mem_set ht with ht | rfl
    · exact hp.2 t ht
    · exact hstage

/-- **The confinement rule.** In a run of confined methods the memory meets `J`, and what commands
meeting `P` do to the service, all that happens does. -/
theorem confined_of_run (hcode : ∀ l, (code l).Confined J P) {T : S → S → Prop}
    (hrefl : ∀ s, T s s) (htrans : ∀ {s₁ s₂ s₃}, T s₁ s₂ → T s₂ s₃ → T s₁ s₃)
    (hserve : ∀ v c s, P c → T s (serve v c s).2) {m : σ} {s : S} (hm : J m)
    {es : List (PoolEvent L V)}
    (h : (system serve code).runFrom ⟨⟨m, s⟩, []⟩ es = some p') :
    J p'.memory ∧ T s p'.server := by
  have hinv := System.invariant
    (I := fun p : Pool ε σ S R L α => p.Confined J P ∧ T s p.server)
    (fun p e p' hp hstep => by
      obtain ⟨hconf, hT⟩ := confined_step hcode hrefl hserve hp.1 hstep
      exact ⟨hconf, htrans hp.2 hT⟩)
    ⟨⟨hm, fun t ht => by simp at ht⟩, hrefl s⟩ h
  exact ⟨hinv.1.1, hinv.2⟩

/-- In a run every method sends only the commands that are its own. -/
theorem sends_of_run {P : L → C → Prop} (hcode : ∀ l, (code l).Confined (fun _ => True) (P l))
    {m : σ} {s : S} {es : List (PoolEvent L V)}
    (h : (system serve code).runFrom ⟨⟨m, s⟩, []⟩ es = some p') :
    ∀ t ∈ p'.threads, t.stage.Confined (fun _ => True) (P t.label) := by
  let I (p : Pool ε σ S R L α) : Prop :=
    ∀ t ∈ p.threads, t.stage.Confined (fun _ => True) (P t.label)
  have hstep (p : Pool ε σ S R L α) (e : PoolEvent L V) (p' : Pool ε σ S R L α) (hp : I p)
      (hs : (system serve code).step p e = some p') : I p' := by
    intro t ht
    rcases mem_threads_of_step hs ht with ht | ⟨l, -, -, rfl⟩ |
      ⟨i, v, l, heard, c, k, -, hi, -, rfl⟩ | ⟨i, l, heard, c, r, k, -, hi, -, rfl⟩
    · exact hp t ht
    · exact (confined_advance (hcode l) trivial).2
    · exact (hp _ (List.mem_of_getElem? hi)).2
    · exact (confined_advance (hp _ (List.mem_of_getElem? hi) r) trivial).2
  exact System.invariant hstep (fun t ht => absurd ht List.not_mem_nil) h

end

end Pool

/-! ## A method on its own -/

/-- An object, a service, and a method of the object that no other interrupts: what the environment
will choose about its commands to come, and those that were carried out. -/
structure Solo (ε σ S V : Type) {C : Type} (R : C → Type) extends Shared σ S where
  choices : ℕ → V
  heard : Transcript ε R := []

/-- Have a command carried out, as the first of the choices says. -/
def Solo.send (serve : Serve ε S V R) (c : C) (w : Solo ε σ S V R) :
    Except ε (R c) × Solo ε σ S V R :=
  let answer := serve (w.choices 0) c w.server
  (answer.1,
    { memory := w.memory
      server := answer.2
      choices := fun n => w.choices (n + 1)
      heard := ⟨c, answer.1⟩ :: w.heard })

@[simp] theorem Solo.memory_send (serve : Serve ε S V R) (c : C) (w : Solo ε σ S V R) :
    (w.send serve c).2.memory = w.memory := rfl

namespace Coroutine

variable (serve : Serve ε S V R)

/-- Run a method from its beginning to its end while no other runs. -/
def alone : Coroutine ε σ R α → Async ε (Solo ε σ S V R) α
  | .resolve a => .resolve a
  | .reject e => .reject e
  | .look k => ⟨fun w => ((k w.memory).alone).run w⟩
  | .alter f m => ⟨fun w => m.alone.run { w with memory := f w.memory }⟩
  | .call c k => ⟨fun w => ((k (w.send serve c).1).alone).run (w.send serve c).2⟩

variable {serve}

@[simp] theorem run_alone_pure (a : α) (w : Solo ε σ S V R) :
    ((pure a : Coroutine ε σ R α).alone serve).run w = (.ok a, w) := rfl

@[simp] theorem run_alone_throw (e : ε) (w : Solo ε σ S V R) :
    ((throw e : Coroutine ε σ R α).alone serve).run w = (.error e, w) := rfl

@[simp] theorem run_alone_read_bind (f : σ → β) (k : β → Coroutine ε σ R α)
    (w : Solo ε σ S V R) :
    ((.read f >>= k : Coroutine ε σ R α).alone serve).run w =
      ((k (f w.memory)).alone serve).run w := rfl

theorem run_alone_await (c : C) (w : Solo ε σ S V R) :
    ((await c : Coroutine ε σ R (R c)).alone serve).run w = w.send serve c := by
  show ((match (w.send serve c).1 with
    | .ok r => .resolve r
    | .error e => .reject e : Coroutine ε σ R (R c)).alone serve).run (w.send serve c).2 = _
  rcases w.send serve c with ⟨_ | _, _⟩ <;> rfl

theorem alone_bind (m : Coroutine ε σ R α) (f : α → Coroutine ε σ R β) :
    (m >>= f).alone serve = m.alone serve >>= fun a => (f a).alone serve := by
  have h : ∀ w, ((m >>= f).alone serve).run w =
      (m.alone serve >>= fun a => (f a).alone serve).run w := by
    intro w
    induction m generalizing w with
    | resolve a => rfl
    | reject e => rfl
    | look k ih => exact ih w.memory w
    | alter g m ih => exact ih _
    | call c k ih => exact ih _ _
  exact congrArg Async.mk (funext h)

theorem alone_tryCatch (m : Coroutine ε σ R α) (handler : ε → Coroutine ε σ R α) :
    (tryCatch m handler).alone serve =
      tryCatch (m.alone serve) fun e => (handler e).alone serve := by
  have h : ∀ w, ((tryCatch m handler : Coroutine ε σ R α).alone serve).run w =
      (tryCatch (m.alone serve) fun e => (handler e).alone serve).run w := by
    intro w
    induction m generalizing w with
    | resolve a => rfl
    | reject e => rfl
    | look k ih => exact ih w.memory w
    | alter g m ih => exact ih _
    | call c k ih => exact ih _ _
  exact congrArg Async.mk (funext h)

/-- What a confined method keeps, it keeps on its own. -/
theorem Confined.run_alone {J : σ → Prop} {P : C → Prop} {m : Coroutine ε σ R α}
    (hm : m.Confined J P) {w : Solo ε σ S V R} (hw : J w.memory) :
    J ((m.alone serve).run w).2.memory := by
  induction m generalizing w with
  | resolve a => exact hw
  | reject e => exact hw
  | look k ih => exact ih w.memory (hm w.memory hw) hw
  | alter f m ih => exact ih hm.2 (hm.1 _ hw)
  | call c k ih => exact ih _ (hm.2 _) hw

end Coroutine

namespace Pool

variable (serve : Serve ε S V R) (code : L → Coroutine ε σ R α)

/-- A method that runs while the others wait. -/
theorem exists_run_settling (ts : List (Thread ε σ R L α)) (l : L) (m : Coroutine ε σ R α)
    (w : Solo ε σ S V R) :
    ∃ es : List (PoolEvent L V),
      (system serve code).runFrom
          ⟨⟨(m.advance w.memory).2, w.server⟩, ts ++ [⟨l, w.heard, (m.advance w.memory).1⟩]⟩ es =
        some ⟨((m.alone serve).run w).2.toShared,
          ts ++ [⟨l, ((m.alone serve).run w).2.heard, .settled ((m.alone serve).run w).1⟩]⟩ := by
  induction m generalizing w with
  | resolve a => exact ⟨[], rfl⟩
  | reject e => exact ⟨[], rfl⟩
  | look k ih => exact ih w.memory w
  | alter f m ih => exact ih { w with memory := f w.memory }
  | call c k ih =>
    obtain ⟨es, hrun⟩ := ih (w.send serve c).1 (w.send serve c).2
    refine ⟨.exec ts.length (w.choices 0) :: .resume ts.length :: es, ?_⟩
    rw [System.runFrom_cons_eq_some]
    refine ⟨⟨⟨w.memory, (w.send serve c).2.server⟩,
      ts ++ [⟨l, (w.send serve c).2.heard, .ready c (w.send serve c).1 k⟩]⟩, ?_, ?_⟩
    · simp [system, exec, Coroutine.advance, Solo.send]
    · rw [System.runFrom_cons_eq_some]
      exact ⟨_, by simp [system, resume], hrun⟩

/-- **A method on its own is a method of the pool that no other interrupts.** -/
theorem exists_run_alone (p : Pool ε σ S R L α) (l : L) (choices : ℕ → V) :
    ∃ es : List (PoolEvent L V),
      (system serve code).runFrom p (.spawn l :: es) =
        some ⟨(((code l).alone serve).run ⟨p.toShared, choices, []⟩).2.toShared,
          p.threads ++ [⟨l, (((code l).alone serve).run ⟨p.toShared, choices, []⟩).2.heard,
            .settled (((code l).alone serve).run ⟨p.toShared, choices, []⟩).1⟩]⟩ := by
  obtain ⟨es, hrun⟩ :=
    exists_run_settling serve code p.threads l (code l) ⟨p.toShared, choices, []⟩
  exact ⟨es, System.runFrom_cons_eq_some.mpr ⟨_, rfl, hrun⟩⟩

end Pool

end Effects
