import Mathlib.Logic.Basic
import Mathlib.Data.Nat.Notation

/-!
# Computations that settle, and calls that may be rejected

`Async ε σ α` is an asynchronous function run to its end: from a state of the world it resolves
with an `α` or rejects with an `ε`, and either way it leaves a state behind. A rejection undoes
nothing, so the state after it is part of the meaning; `tryCatch` goes on from there.

`Remote σ` is a service holding a state `σ`. Every call to it has a number, and an oracle
`ℕ → Answer ε` says of each number whether the call is answered or rejected, and in the second
case whether the service had applied it before the rejection reached the caller.
-/

namespace Effects

/-! ## Computations -/

/-- A computation over a state `σ` that resolves with an `α` or rejects with an `ε`. -/
structure Async (ε σ α : Type) where
  run : σ → Except ε α × σ

variable {ε σ τ α β : Type}

namespace Async

/-- Resolve at once. -/
def resolve (a : α) : Async ε σ α := ⟨fun s => (.ok a, s)⟩

/-- Reject at once. -/
def reject (e : ε) : Async ε σ α := ⟨fun s => (.error e, s)⟩

/-- Wait for `m` and go on with `f`; a rejection of `m` is passed on. -/
def andThen (m : Async ε σ α) (f : α → Async ε σ β) : Async ε σ β where
  run s :=
    match m.run s with
    | (.ok a, s') => (f a).run s'
    | (.error e, s') => (.error e, s')

/-- Run `m`; if it rejects, run the handler on the state it left. -/
def orElse (m : Async ε σ α) (h : ε → Async ε σ α) : Async ε σ α where
  run s :=
    match m.run s with
    | (.ok a, s') => (.ok a, s')
    | (.error e, s') => (h e).run s'

instance : Monad (Async ε σ) where
  pure := resolve
  bind := andThen

instance : MonadExcept ε (Async ε σ) where
  throw := reject
  tryCatch := orElse

/-- Change the state. -/
def modify (f : σ → σ) : Async ε σ Unit := ⟨fun s => (.ok (), f s)⟩

/-- Read the state. -/
def read (f : σ → α) : Async ε σ α := ⟨fun s => (.ok (f s), s)⟩

/-- `Promise.all`: every computation is run, and the first rejection is passed on. -/
def all : List (Async ε σ α) → Async ε σ (List α)
  | [] => resolve []
  | m :: ms => ⟨fun s =>
    let first := m.run s
    let rest := (all ms).run first.2
    (first.1.bind fun a => rest.1.map (a :: ·), rest.2)⟩

/-- Run a computation on a part of the state. -/
def within (get : σ → τ) (put : τ → σ → σ) (m : Async ε τ α) : Async ε σ α where
  run s := ((m.run (get s)).1, put (m.run (get s)).2 s)

@[simp] theorem run_pure (a : α) (s : σ) : (pure a : Async ε σ α).run s = (.ok a, s) := rfl

@[simp] theorem run_throw (e : ε) (s : σ) : (throw e : Async ε σ α).run s = (.error e, s) := rfl

@[simp] theorem run_modify (f : σ → σ) (s : σ) :
    (modify f : Async ε σ Unit).run s = (.ok (), f s) := rfl

@[simp] theorem run_read (f : σ → α) (s : σ) : (read f : Async ε σ α).run s = (.ok (f s), s) := rfl

theorem run_within {get : σ → τ} {put : τ → σ → σ} {m : Async ε τ α} {s : σ} {t : τ}
    {r : Except ε α} (h : m.run (get s) = (r, t)) : (within get put m).run s = (r, put t s) := by
  simp only [within, h]

theorem run_bind (m : Async ε σ α) (f : α → Async ε σ β) (s : σ) :
    (m >>= f).run s = match m.run s with
      | (.ok a, s') => (f a).run s'
      | (.error e, s') => (.error e, s') := rfl

theorem run_bind_pure (m : Async ε σ α) (f : α → β) (s : σ) :
    (m >>= fun a => pure (f a)).run s = ((m.run s).1.map f, (m.run s).2) := by
  rw [run_bind]
  rcases m.run s with ⟨_ | _, _⟩ <;> rfl

/-- Computations that do the same from every state are the same. -/
theorem ext {m m' : Async ε σ α} (h : ∀ s, m.run s = m'.run s) : m = m' :=
  congrArg mk (funext h)

theorem bind_pure_bind_pure {γ : Type} (m : Async ε σ α) (f : α → β) (g : β → γ) :
    ((m >>= fun a => pure (f a)) >>= fun b => pure (g b)) = m >>= fun a => pure (g (f a)) := by
  refine ext fun s => ?_
  rw [run_bind_pure, run_bind_pure, run_bind_pure]
  cases (m.run s).1 <;> rfl

/-- Handing on what was waited for adds nothing. -/
theorem bind_resolve (m : Async ε σ α) : (m >>= fun a => pure a) = m := by
  refine ext fun s => ?_
  rw [run_bind]
  rcases m.run s with ⟨_ | _, _⟩ <;> rfl

theorem run_tryCatch (m : Async ε σ α) (h : ε → Async ε σ α) (s : σ) :
    (tryCatch m h : Async ε σ α).run s = match m.run s with
      | (.ok a, s') => (.ok a, s')
      | (.error e, s') => (h e).run s' := rfl

theorem run_bind_of_ok {m : Async ε σ α} {f : α → Async ε σ β} {s s' : σ} {a : α}
    (h : m.run s = (.ok a, s')) : (m >>= f).run s = (f a).run s' := by
  rw [run_bind, h]

theorem run_bind_of_error {m : Async ε σ α} {f : α → Async ε σ β} {s s' : σ} {e : ε}
    (h : m.run s = (.error e, s')) : (m >>= f).run s = (.error e, s') := by
  rw [run_bind, h]

/-- A computation that resolves has waited for one that did. -/
theorem run_bind_eq_ok {m : Async ε σ α} {f : α → Async ε σ β} {s s'' : σ} {b : β} :
    (m >>= f).run s = (.ok b, s'') ↔
      ∃ a s', m.run s = (.ok a, s') ∧ (f a).run s' = (.ok b, s'') := by
  rw [run_bind]
  rcases m.run s with ⟨e | a, s'⟩
  · simp
  · refine ⟨fun h => ⟨a, s', rfl, h⟩, ?_⟩
    rintro ⟨_, _, ⟨rfl, rfl⟩, h⟩
    exact h

theorem run_tryCatch_of_ok {m : Async ε σ α} {h : ε → Async ε σ α} {s s' : σ} {a : α}
    (hm : m.run s = (.ok a, s')) : (tryCatch m h : Async ε σ α).run s = (.ok a, s') := by
  rw [run_tryCatch, hm]

theorem run_tryCatch_of_error {m : Async ε σ α} {h : ε → Async ε σ α} {s s' : σ} {e : ε}
    (hm : m.run s = (.error e, s')) : (tryCatch m h : Async ε σ α).run s = (h e).run s' := by
  rw [run_tryCatch, hm]

/-- Throwing again what was caught is catching nothing. -/
theorem tryCatch_throw (m : Async ε σ α) : (tryCatch m fun e => throw e) = m := by
  refine ext fun s => ?_
  rw [run_tryCatch]
  rcases m.run s with ⟨_ | _, _⟩ <;> rfl

/-- A handler that does nothing leaves the state that the rejection left. -/
theorem run_handled (m : Async ε σ Unit) (s : σ) :
    (tryCatch m fun _ => pure ()).run s = (.ok (), (m.run s).2) := by
  rw [run_tryCatch]
  rcases m.run s with ⟨_ | _, _⟩ <;> rfl

/-! ## How a computation ends -/

/-- `m` resolves, whatever the state. -/
def Resolves (m : Async ε σ α) : Prop := ∀ s, ∃ a s', m.run s = (.ok a, s')

/-- `m` rejects, whatever the state. -/
def Rejects (m : Async ε σ α) : Prop := ∀ s, ∃ e s', m.run s = (.error e, s')

theorem Resolves.pure (a : α) : Resolves (pure a : Async ε σ α) := fun s => ⟨a, s, rfl⟩

theorem Resolves.modify (f : σ → σ) : Resolves (modify f : Async ε σ Unit) :=
  fun s => ⟨(), f s, rfl⟩

theorem Rejects.throw (e : ε) : Rejects (throw e : Async ε σ α) := fun s => ⟨e, s, rfl⟩

theorem Resolves.bind {m : Async ε σ α} {f : α → Async ε σ β} (hm : Resolves m)
    (hf : ∀ a, Resolves (f a)) : Resolves (m >>= f) := by
  intro s
  obtain ⟨a, s', hrun⟩ := hm s
  rw [run_bind_of_ok hrun]
  exact hf a s'

theorem Rejects.bind {m : Async ε σ α} (hm : Rejects m) (f : α → Async ε σ β) :
    Rejects (m >>= f) := by
  intro s
  obtain ⟨e, s', hrun⟩ := hm s
  exact ⟨e, s', run_bind_of_error hrun⟩

/-- A computation that ends with a rejection rejects, sooner or later. -/
theorem Rejects.bind_right (m : Async ε σ α) {f : α → Async ε σ β} (hf : ∀ a, Rejects (f a)) :
    Rejects (m >>= f) := by
  intro s
  cases hrun : m.run s with
  | mk r s' =>
    cases r with
    | error e => exact ⟨e, s', run_bind_of_error hrun⟩
    | ok a =>
      rw [run_bind_of_ok hrun]
      exact hf a s'

theorem Resolves.handle {m : Async ε σ α} (hm : Resolves m) (h : ε → Async ε σ α) :
    Resolves (tryCatch m h) := by
  intro s
  obtain ⟨a, s', hrun⟩ := hm s
  exact ⟨a, s', run_tryCatch_of_ok hrun⟩

/-- A handler that does nothing makes an end of every rejection. -/
theorem Resolves.handled (m : Async ε σ α) (a : α) :
    Resolves (tryCatch m fun _ => Pure.pure a) := by
  intro s
  cases hrun : m.run s with
  | mk r s' =>
    cases r with
    | ok b => exact ⟨b, s', run_tryCatch_of_ok hrun⟩
    | error e => exact ⟨a, s', run_tryCatch_of_error hrun⟩

theorem Rejects.handle {m : Async ε σ α} {h : ε → Async ε σ α} (hm : Rejects m)
    (hh : ∀ e, Rejects (h e)) : Rejects (tryCatch m h) := by
  intro s
  obtain ⟨e, s', hrun⟩ := hm s
  rw [run_tryCatch_of_error hrun]
  exact hh e s'

/-- The error `m` rejects with when it is run from `s`, if it rejects. -/
def rejection (m : Async ε σ α) (s : σ) : Option ε :=
  match (m.run s).1 with
  | .ok _ => none
  | .error e => some e

@[simp] theorem rejection_pure (a : α) (s : σ) : rejection (pure a : Async ε σ α) s = none := rfl

@[simp] theorem rejection_throw (e : ε) (s : σ) :
    rejection (throw e : Async ε σ α) s = some e := rfl

theorem rejection_eq_some {m : Async ε σ α} {s : σ} {e : ε} :
    rejection m s = some e ↔ (m.run s).1 = .error e := by
  unfold rejection
  cases (m.run s).1 with
  | ok a => simp
  | error e' => simp

/-- The rejection of a sequence is the first one. -/
theorem rejection_bind {m : Async ε σ α} {f : α → Async ε σ β} {s : σ} {o : Option ε}
    (hf : ∀ a s', m.run s = (.ok a, s') → rejection (f a) s' = o) :
    rejection (m >>= f) s = (rejection m s).or o := by
  unfold rejection at hf ⊢
  cases hrun : m.run s with
  | mk r s' =>
    cases r with
    | error e => rw [run_bind_of_error hrun, Option.some_or]
    | ok a => rw [run_bind_of_ok hrun, hf a s' hrun, Option.none_or]

/-- What never rejects does not matter. -/
theorem rejection_bind_of_none {m : Async ε σ α} {f : α → Async ε σ β} {s : σ}
    (hf : ∀ a s', m.run s = (.ok a, s') → rejection (f a) s' = none) :
    rejection (m >>= f) s = rejection m s :=
  (rejection_bind hf).trans Option.or_none

theorem rejection_tryCatch_of_error {m : Async ε σ α} {h : ε → Async ε σ α} {s s' : σ} {e : ε}
    (hm : m.run s = (.error e, s')) :
    rejection (tryCatch m h : Async ε σ α) s = rejection (h e) s' := by
  unfold rejection
  rw [run_tryCatch_of_error hm]

/-! ## What a computation does to a part of the state -/

/-- Whether it resolves or rejects, `m` changes the part `f` of the state by `g`. -/
def Acts (f : σ → τ) (g : τ → τ) (m : Async ε σ α) : Prop := ∀ s, f (m.run s).2 = g (f s)

/-- `m` leaves the part `f` of the state as it is. -/
def Keeps (f : σ → τ) (m : Async ε σ α) : Prop := Acts f id m

variable {f : σ → τ} {g : τ → τ}

theorem Keeps.pure (a : α) : Keeps f (pure a : Async ε σ α) := fun _ => rfl

theorem Keeps.throw (e : ε) : Keeps f (throw e : Async ε σ α) := fun _ => rfl

theorem Keeps.read (h : σ → α) : Keeps f (read h : Async ε σ α) := fun _ => rfl

/-- `Promise.all` of computations that keep `f` keeps it. -/
theorem Keeps.all {ms : List (Async ε σ α)} (hms : ∀ m ∈ ms, Keeps f m) : Keeps f (all ms) := by
  induction ms with
  | nil => exact fun _ => rfl
  | cons m ms ih =>
    intro s
    exact (ih (fun m' hm' => hms m' (List.mem_cons_of_mem m hm')) _).trans
      (hms m List.mem_cons_self s)

theorem Keeps.of_run {m : Async ε σ α} (hm : Keeps f m) {s s' : σ} {r : Except ε α}
    (hrun : m.run s = (r, s')) : f s' = f s := by
  have hs : f (m.run s).2 = f s := hm s
  rwa [hrun] at hs

theorem Acts.of_run {m : Async ε σ α} (hm : Acts f g m) {s s' : σ} {r : Except ε α}
    (hrun : m.run s = (r, s')) : f s' = g (f s) := by
  rw [← hm s, hrun]

theorem Acts.modify {h : σ → σ} (hf : ∀ s, f (h s) = g (f s)) :
    Acts f g (modify h : Async ε σ Unit) := hf

/-- What comes after `m` and keeps `f` does not matter to it. -/
theorem Keeps.run_bind (m : Async ε σ α) {k : α → Async ε σ β} (hk : ∀ a, Keeps f (k a)) (s : σ) :
    f ((m >>= k).run s).2 = f (m.run s).2 := by
  cases hrun : m.run s with
  | mk r s' =>
    cases r with
    | error e => rw [run_bind_of_error hrun]
    | ok a =>
      rw [run_bind_of_ok hrun]
      exact hk a s'

theorem Acts.bind_keeps {m : Async ε σ α} {k : α → Async ε σ β} (hm : Acts f g m)
    (hk : ∀ a, Keeps f (k a)) : Acts f g (m >>= k) :=
  fun s => (Keeps.run_bind m hk s).trans (hm s)

theorem Keeps.bind {m : Async ε σ α} {k : α → Async ε σ β} (hm : Keeps f m)
    (hk : ∀ a, Keeps f (k a)) : Keeps f (m >>= k) :=
  Acts.bind_keeps hm hk

theorem Keeps.bind_of_rejects {m : Async ε σ α} (hm : Keeps f m) (hrej : Rejects m)
    (k : α → Async ε σ β) : Keeps f (m >>= k) := by
  intro s
  obtain ⟨e, s', hrun⟩ := hrej s
  rw [run_bind_of_error hrun, ← hm s, hrun]

/-- What two computations do one after the other, if the first one resolves. -/
theorem Acts.bind {g' : τ → τ} {m : Async ε σ α} {k : α → Async ε σ β} (hm : Acts f g m)
    (hres : Resolves m) (hk : ∀ a, Acts f g' (k a)) : Acts f (g' ∘ g) (m >>= k) := by
  intro s
  obtain ⟨a, s', hrun⟩ := hres s
  have hs' := hm s
  rw [hrun] at hs'
  rw [run_bind_of_ok hrun, hk a s', hs']
  rfl

theorem Keeps.bind_acts {m : Async ε σ α} {k : α → Async ε σ β} (hm : Keeps f m)
    (hres : Resolves m) (hk : ∀ a, Acts f g (k a)) : Acts f g (m >>= k) :=
  Acts.bind hm hres hk

theorem Keeps.handle {m : Async ε σ α} {h : ε → Async ε σ α} (hm : Keeps f m)
    (hh : ∀ e, Keeps f (h e)) : Keeps f (tryCatch m h) := by
  intro s
  have hs' : f (m.run s).2 = f s := hm s
  cases hrun : m.run s with
  | mk r s' =>
    rw [hrun] at hs'
    cases r with
    | ok a =>
      rw [run_tryCatch_of_ok hrun]
      exact hs'
    | error e =>
      rw [run_tryCatch_of_error hrun]
      exact (hh e s').trans hs'

theorem Acts.handle_of_resolves {m : Async ε σ α} (hm : Acts f g m) (hres : Resolves m)
    (h : ε → Async ε σ α) : Acts f g (tryCatch m h) := by
  intro s
  obtain ⟨a, s', hrun⟩ := hres s
  rw [run_tryCatch_of_ok hrun, ← hm s, hrun]

theorem Keeps.handle_of_resolves {m : Async ε σ α} (hm : Keeps f m) (hres : Resolves m)
    (h : ε → Async ε σ α) : Keeps f (tryCatch m h) :=
  Acts.handle_of_resolves hm hres h

theorem Keeps.handle_acts {m : Async ε σ α} {h : ε → Async ε σ α} (hm : Keeps f m)
    (hrej : Rejects m) (hh : ∀ e, Acts f g (h e)) : Acts f g (tryCatch m h) := by
  intro s
  obtain ⟨e, s', hrun⟩ := hrej s
  have hs' : f (m.run s).2 = f s := hm s
  rw [run_tryCatch_of_error hrun, hh e s', ← hs', hrun]

/-! ## What a computation preserves -/

/-- Whether it resolves or rejects, `m` leaves a state that meets `I` if it was given one. -/
def Preserves (I : σ → Prop) (m : Async ε σ α) : Prop := ∀ s, I s → I (m.run s).2

variable {I : σ → Prop}

theorem Preserves.pure (a : α) : Preserves I (pure a : Async ε σ α) := fun _ hs => hs

theorem Preserves.modify {h : σ → σ} (hI : ∀ s, I s → I (h s)) :
    Preserves I (modify h : Async ε σ Unit) := hI

theorem Keeps.preserves {m : Async ε σ α} (hm : Keeps f m) (P : τ → Prop) :
    Preserves (fun s => P (f s)) m := by
  intro s hs
  have hf : f (m.run s).2 = f s := hm s
  rwa [hf]

theorem Preserves.bind {m : Async ε σ α} {k : α → Async ε σ β} (hm : Preserves I m)
    (hk : ∀ a, Preserves I (k a)) : Preserves I (m >>= k) := by
  intro s hs
  have hm' := hm s hs
  cases hrun : m.run s with
  | mk r s' =>
    rw [hrun] at hm'
    cases r with
    | error e =>
      rw [run_bind_of_error hrun]
      exact hm'
    | ok a =>
      rw [run_bind_of_ok hrun]
      exact hk a s' hm'

theorem Preserves.throw (e : ε) : Preserves I (throw e : Async ε σ α) := fun _ hs => hs

theorem Preserves.of_run {m : Async ε σ α} (hm : Preserves I m) {s s' : σ} {r : Except ε α}
    (hs : I s) (hrun : m.run s = (r, s')) : I s' := by
  have hs' := hm s hs
  rwa [hrun] at hs'

theorem Preserves.handle {m : Async ε σ α} {h : ε → Async ε σ α} (hm : Preserves I m)
    (hh : ∀ e, Preserves I (h e)) : Preserves I (tryCatch m h) := by
  intro s hs
  cases hrun : m.run s with
  | mk r s' =>
    have hs' := hm.of_run hs hrun
    cases r with
    | ok a =>
      rw [run_tryCatch_of_ok hrun]
      exact hs'
    | error e =>
      rw [run_tryCatch_of_error hrun]
      exact hh e s' hs'

/-- What goes on from a value that was read may rely on the state it was read from. -/
theorem Preserves.read_bind {h : σ → α} {k : α → Async ε σ β}
    (hk : ∀ s, I s → I ((k (h s)).run s).2) : Preserves I (Async.read h >>= k) := hk

/-- From a state that meets `I`, `m` leaves one that does, and what it resolves with meets `P`. -/
def Yields (I : σ → Prop) (P : α → Prop) (m : Async ε σ α) : Prop :=
  ∀ s, I s → I (m.run s).2 ∧ ∀ a, (m.run s).1 = .ok a → P a

variable {P : α → Prop} {Q : β → Prop}

theorem Yields.pure {a : α} (ha : P a) : Yields I P (pure a : Async ε σ α) := by
  intro s hs
  refine ⟨hs, fun b hb => ?_⟩
  obtain rfl := Except.ok.inj hb
  exact ha

theorem Yields.throw (e : ε) : Yields I P (throw e : Async ε σ α) :=
  fun _ hs => ⟨hs, fun _ ha => nomatch ha⟩

theorem Yields.modify {h : σ → σ} (hI : ∀ s, I s → I (h s)) :
    Yields I (fun _ => True) (modify h : Async ε σ Unit) :=
  fun s hs => ⟨hI s hs, fun _ _ => trivial⟩

theorem Yields.bind {m : Async ε σ α} {k : α → Async ε σ β} (hm : Yields I P m)
    (hk : ∀ a, P a → Yields I Q (k a)) : Yields I Q (m >>= k) := by
  intro s hs
  obtain ⟨hs', ha⟩ := hm s hs
  cases hrun : m.run s with
  | mk r s' =>
    rw [hrun] at hs' ha
    cases r with
    | error e =>
      rw [run_bind_of_error hrun]
      exact ⟨hs', fun _ hb => nomatch hb⟩
    | ok a =>
      rw [run_bind_of_ok hrun]
      exact hk a (ha a rfl) s' hs'

theorem Yields.read_bind {h : σ → α} {k : α → Async ε σ β}
    (hk : ∀ s, I s → Yields I Q (k (h s))) : Yields I Q (Async.read h >>= k) :=
  fun s hs => hk s hs s hs

theorem Yields.forM {f : α → Async ε σ Unit} {as : List α}
    (h : ∀ a ∈ as, Yields I (fun _ => True) (f a)) : Yields I (fun _ => True) (as.forM f) := by
  induction as with
  | nil => exact .pure trivial
  | cons a as ih =>
    obtain ⟨ha, has⟩ := List.forall_mem_cons.mp h
    exact ha.bind fun _ _ => ih has

/-- From a state that meets `I`, `m` resolves and leaves one that does. -/
def Delivers (I : σ → Prop) (m : Async ε σ α) : Prop :=
  ∀ s, I s → ∃ a s', m.run s = (.ok a, s') ∧ I s'

/-- From a state that meets `I`, `m` rejects with `e` and leaves one that does. -/
def Fails (I : σ → Prop) (e : ε) (m : Async ε σ α) : Prop :=
  ∀ s, I s → ∃ s', m.run s = (.error e, s') ∧ I s'

theorem Delivers.pure (a : α) : Delivers I (pure a : Async ε σ α) := fun s hs => ⟨a, s, rfl, hs⟩

theorem Delivers.modify {h : σ → σ} (hI : ∀ s, I s → I (h s)) :
    Delivers I (modify h : Async ε σ Unit) :=
  fun s hs => ⟨(), h s, rfl, hI s hs⟩

theorem Fails.throw (e : ε) : Fails I e (throw e : Async ε σ α) := fun s hs => ⟨s, rfl, hs⟩

theorem Delivers.bind {m : Async ε σ α} {k : α → Async ε σ β} (hm : Delivers I m)
    (hk : ∀ a, Delivers I (k a)) : Delivers I (m >>= k) := by
  intro s hs
  obtain ⟨a, s', hrun, hs'⟩ := hm s hs
  rw [run_bind_of_ok hrun]
  exact hk a s' hs'

theorem Fails.bind {e : ε} {m : Async ε σ α} (hm : Fails I e m) (k : α → Async ε σ β) :
    Fails I e (m >>= k) := by
  intro s hs
  obtain ⟨s', hrun, hs'⟩ := hm s hs
  exact ⟨s', run_bind_of_error hrun, hs'⟩

theorem Delivers.bind_fails {e : ε} {m : Async ε σ α} {k : α → Async ε σ β} (hm : Delivers I m)
    (hk : ∀ a, Fails I e (k a)) : Fails I e (m >>= k) := by
  intro s hs
  obtain ⟨a, s', hrun, hs'⟩ := hm s hs
  rw [run_bind_of_ok hrun]
  exact hk a s' hs'

theorem Delivers.read_bind {h : σ → α} {k : α → Async ε σ β}
    (hk : ∀ s, I s → Delivers I (k (h s))) : Delivers I (Async.read h >>= k) :=
  fun s hs => hk s hs s hs

theorem Fails.read_bind {e : ε} {h : σ → α} {k : α → Async ε σ β}
    (hk : ∀ s, I s → Fails I e (k (h s))) : Fails I e (Async.read h >>= k) :=
  fun s hs => hk s hs s hs

theorem Delivers.forM {f : α → Async ε σ Unit} {as : List α} (h : ∀ a ∈ as, Delivers I (f a)) :
    Delivers I (as.forM f) := by
  induction as with
  | nil => exact .pure ()
  | cons a as ih =>
    obtain ⟨ha, has⟩ := List.forall_mem_cons.mp h
    exact ha.bind fun _ => ih has

/-- One after another, up to the first that fails. -/
theorem Fails.forM {e : ε} {f : α → Async ε σ Unit} {as : List α}
    (h : ∀ a ∈ as, Delivers I (f a) ∨ Fails I e (f a)) (hfails : ∃ a ∈ as, Fails I e (f a)) :
    Fails I e (as.forM f) := by
  induction as with
  | nil => exact absurd hfails.choose_spec.1 List.not_mem_nil
  | cons a as ih =>
    obtain ⟨ha, has⟩ := List.forall_mem_cons.mp h
    rcases ha with ha | ha
    · refine ha.bind_fails fun _ => ?_
      obtain ⟨b, hb, hfails⟩ := hfails
      rcases List.mem_cons.mp hb with rfl | hb
      · intro s hs
        obtain ⟨_, _, hok, -⟩ := ha s hs
        obtain ⟨_, herror, -⟩ := hfails s hs
        exact absurd (congrArg Prod.fst (hok.symm.trans herror)) nofun
      · exact ih has ⟨b, hb, hfails⟩
    · exact ha.bind _

/-! ## Computations side by side -/

/-- From `s` and `s'` two computations settle alike, and leave states that `R` relates. -/
def Tracks (R : σ → τ → Prop) (m : Async ε σ α) (m' : Async ε τ α) (s : σ) (s' : τ) : Prop :=
  (m.run s).1 = (m'.run s').1 ∧ R (m.run s).2 (m'.run s').2

section Tracks

variable {R : σ → τ → Prop} {s : σ} {s' : τ}

theorem Tracks.pure (h : R s s') (a : α) :
    Tracks R (pure a : Async ε σ α) (pure a : Async ε τ α) s s' := ⟨rfl, h⟩

theorem Tracks.throw (h : R s s') (e : ε) :
    Tracks R (throw e : Async ε σ α) (throw e : Async ε τ α) s s' := ⟨rfl, h⟩

theorem Tracks.modify {f : σ → σ} {f' : τ → τ} (h : R (f s) (f' s')) :
    Tracks R (modify f : Async ε σ Unit) (modify f' : Async ε τ Unit) s s' := ⟨rfl, h⟩

theorem Tracks.bind {m : Async ε σ α} {m' : Async ε τ α} {k : α → Async ε σ β}
    {k' : α → Async ε τ β} (hm : Tracks R m m' s s')
    (hk : ∀ a t t', R t t' → Tracks R (k a) (k' a) t t') : Tracks R (m >>= k) (m' >>= k') s s' := by
  obtain ⟨hr, hR⟩ := hm
  unfold Tracks
  rw [run_bind, run_bind]
  rcases hrun : m.run s with ⟨r, t⟩
  rcases hrun' : m'.run s' with ⟨r', t'⟩
  rw [hrun, hrun'] at hr hR
  obtain rfl : r = r' := hr
  cases r with
  | error e => exact ⟨rfl, hR⟩
  | ok a => exact hk a t t' hR

/-- What goes on from what was read may differ as long as it goes on alike. -/
theorem Tracks.read_bind {γ γ' : Type} {f : σ → γ} {f' : τ → γ'} {k : γ → Async ε σ α}
    {k' : γ' → Async ε τ α} (h : Tracks R (k (f s)) (k' (f' s')) s s') :
    Tracks R (Async.read f >>= k) (Async.read f' >>= k') s s' := h

theorem Tracks.handle {m : Async ε σ α} {m' : Async ε τ α} {h : ε → Async ε σ α}
    {h' : ε → Async ε τ α} (hm : Tracks R m m' s s')
    (hh : ∀ e t t', R t t' → Tracks R (h e) (h' e) t t') :
    Tracks R (tryCatch m h) (tryCatch m' h') s s' := by
  obtain ⟨hr, hR⟩ := hm
  unfold Tracks
  rw [run_tryCatch, run_tryCatch]
  rcases hrun : m.run s with ⟨r, t⟩
  rcases hrun' : m'.run s' with ⟨r', t'⟩
  rw [hrun, hrun'] at hr hR
  obtain rfl : r = r' := hr
  cases r with
  | ok a => exact ⟨rfl, hR⟩
  | error e => exact hh e t t' hR

end Tracks

end Async

/-! ## Remote calls -/

/-- What becomes of one remote call. -/
inductive Answer (ε : Type)
  /-- The call is applied and its answer reaches the caller. -/
  | answered
  /-- The caller sees a rejection; `applied` says whether the service had done the work. -/
  | rejected (e : ε) (applied : Bool)

namespace Answer

/-- The caller gets an answer. -/
def IsAnswered : Answer ε → Prop
  | .answered => True
  | .rejected _ _ => False

/-- The service does the work, whatever the caller sees. -/
def TakesEffect : Answer ε → Prop
  | .answered => True
  | .rejected _ applied => applied = true

instance : DecidablePred (IsAnswered (ε := ε))
  | .answered => .isTrue trivial
  | .rejected _ _ => .isFalse id

instance : DecidablePred (TakesEffect (ε := ε))
  | .answered => .isTrue trivial
  | .rejected _ applied => inferInstanceAs (Decidable (applied = true))

/-- The error the caller sees, if any. -/
def error? : Answer ε → Option ε
  | .answered => none
  | .rejected e _ => some e

theorem error?_eq_none {a : Answer ε} : a.error? = none ↔ a.IsAnswered := by
  cases a with
  | answered => exact iff_of_true rfl trivial
  | rejected e applied => exact iff_of_false (Option.some_ne_none e) id

/-- The first error of calls made one after another. -/
def firstError {S : Type} (answers : S → Answer ε) (sites : List S) : Option ε :=
  sites.findSome? fun site => (answers site).error?

theorem firstError_append {S : Type} (answers : S → Answer ε) (sites sites' : List S) :
    firstError answers (sites ++ sites') =
      (firstError answers sites).or (firstError answers sites') :=
  List.findSome?_append

theorem firstError_singleton {S : Type} (answers : S → Answer ε) (site : S) :
    firstError answers [site] = (answers site).error? := by
  cases h : (answers site).error? <;> simp [firstError, h]

/-- Of calls that are not all made, the first error is one of those that are. -/
theorem firstError_ite {S : Type} (answers : S → Answer ε) (made : Bool) (site : S) :
    firstError answers (if made then [site] else []) =
      if made then (answers site).error? else none := by
  cases made with
  | true => exact firstError_singleton answers site
  | false => rfl

theorem firstError_eq_none {S : Type} {answers : S → Answer ε} {sites : List S} :
    firstError answers sites = none ↔ ∀ site ∈ sites, (answers site).IsAnswered := by
  simp only [firstError, List.findSome?_eq_none_iff, error?_eq_none]

theorem IsAnswered.eq {a : Answer ε} (h : a.IsAnswered) : a = .answered := by
  cases a with
  | answered => rfl
  | rejected => exact h.elim

end Answer

/-- One call on a part of the world held in the state, whose fate is known. -/
def perform (a : Answer ε) (op : σ → α × σ) : Async ε σ α where
  run s :=
    match a with
    | .answered => (.ok (op s).1, (op s).2)
    | .rejected e applied => (.error e, if applied then (op s).2 else s)

theorem run_perform_answered (op : σ → α × σ) (s : σ) :
    (perform (.answered : Answer ε) op).run s = (.ok (op s).1, (op s).2) := rfl

theorem run_perform_rejected (e : ε) (applied : Bool) (op : σ → α × σ) (s : σ) :
    (perform (.rejected e applied) op).run s = (.error e, if applied then (op s).2 else s) := rfl

theorem Async.rejection_perform (a : Answer ε) (op : σ → α × σ) (s : σ) :
    rejection (perform a op) s = a.error? := by
  cases a with
  | answered => rfl
  | rejected e applied => rfl

theorem Async.Resolves.perform {a : Answer ε} (h : a.IsAnswered) (op : σ → α × σ) :
    Resolves (perform a op) := by
  intro s
  cases h.eq
  exact ⟨_, _, rfl⟩

theorem Async.Rejects.perform {a : Answer ε} (h : ¬ a.IsAnswered) (op : σ → α × σ) :
    Rejects (perform a op) := by
  intro s
  cases a with
  | answered => exact absurd trivial h
  | rejected e applied => exact ⟨e, _, rfl⟩

theorem Async.Keeps.perform {f : σ → τ} {op : σ → α × σ} (h : ∀ s, f (op s).2 = f s)
    (a : Answer ε) : Keeps f (perform a op) := by
  intro s
  cases a with
  | answered => exact h s
  | rejected e applied =>
    cases applied with
    | false => rfl
    | true => exact h s

/-- A service's state and the number of calls made to it so far. -/
structure Remote (σ : Type) where
  server : σ
  calls : ℕ

/-- Call the service: the oracle decides the fate of the call with the current number. -/
def call (answers : ℕ → Answer ε) (op : σ → α × σ) : Async ε (Remote σ) α where
  run r :=
    match answers r.calls with
    | .answered => (.ok (op r.server).1, ⟨(op r.server).2, r.calls + 1⟩)
    | .rejected e applied =>
      (.error e, ⟨if applied then (op r.server).2 else r.server, r.calls + 1⟩)

theorem run_call_of_answered {answers : ℕ → Answer ε} {op : σ → α × σ} {r : Remote σ}
    (h : answers r.calls = .answered) :
    (call answers op).run r = (.ok (op r.server).1, ⟨(op r.server).2, r.calls + 1⟩) := by
  simp only [call, h]

theorem Async.Keeps.call {f : σ → τ} {op : σ → α × σ} (h : ∀ s, f (op s).2 = f s)
    (answers : ℕ → Answer ε) : Keeps (fun r : Remote σ => f r.server) (call answers op) := by
  intro r
  cases hanswer : answers r.calls with
  | answered => simpa only [Effects.call, hanswer, id_eq] using h r.server
  | rejected e applied =>
    cases applied with
    | false => simp only [Effects.call, hanswer, Bool.false_eq_true, if_false, id_eq]
    | true => simpa only [Effects.call, hanswer, if_true, id_eq] using h r.server

theorem run_call_of_rejected {answers : ℕ → Answer ε} {op : σ → α × σ} {r : Remote σ} {e : ε}
    {applied : Bool} (h : answers r.calls = .rejected e applied) :
    (call answers op).run r =
      (.error e, ⟨if applied then (op r.server).2 else r.server, r.calls + 1⟩) := by
  simp only [call, h]

/-- A call is a `perform` of what the oracle says of its number. -/
theorem run_call_eq_perform (answers : ℕ → Answer ε) (op : σ → α × σ) (r : Remote σ) :
    (call answers op).run r =
      (((perform (answers r.calls) op).run r.server).1,
        ⟨((perform (answers r.calls) op).run r.server).2, r.calls + 1⟩) := by
  cases hanswer : answers r.calls with
  | answered => exact run_call_of_answered hanswer
  | rejected e applied => exact run_call_of_rejected hanswer

end Effects
