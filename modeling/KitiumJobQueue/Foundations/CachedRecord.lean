import KitiumJobQueue.Foundations.Lists
import KitiumJobQueue.Foundations.SerialOrders
import Mathlib.Logic.Relation

/-!
# A record behind a cache, used by overlapping calls

A record lies in a store, with a copy in a cache. A `fetch` takes the copy, or else reads the store
and fills the cache; a `put` or a `remove` changes the store and, when that is answered, the cache;
a `modify` fetches the record and then puts what it makes of it. Calls may overlap between any two
of these steps.

`Step` is a step in which two things hold. A `modify` writes over the record that it has modified;
and a call that changes the cache leaves it as the store is, or some other call has changed the
store and has still to change the cache. Calls that make only such steps are serializable, and when
all have settled the cache is as the store is (`serializable_of_steps`).
-/

namespace CachedRecord

open SerialOrder

variable {L V : Type}

/-! ## Operations -/

/-- An operation on a record. -/
inductive Op (V : Type)
  | put (v : V)
  | modify (f : V → V)
  | fetch
  | remove

/-- What an operation gives. -/
inductive Result (V : Type)
  | done
  | found (v : V)
  | missing

/-- What an operation gives and leaves when no other overlaps it. -/
def Op.apply : Op V → Option V → Result V × Option V
  | .put v, _ => (.done, some v)
  | .modify f, some v => (.done, some (f v))
  | .modify _, none => (.missing, none)
  | .fetch, some v => (.found v, some v)
  | .fetch, none => (.missing, none)
  | .remove, _ => (.done, none)

/-! ## Calls -/

/-- Where a call is: it waits for the store, its answer is on the way, or it has settled. -/
inductive Phase (V : Type)
  | reading
  | read (found : Option V)
  | writing (new : Option V)
  | written (new : Option V)
  | settled (result : Result V)

/-- A call runs to its first wait, or to its end. -/
def Op.start : Op V → Option V → Phase V
  | .put v, _ => .writing (some v)
  | .modify f, some v => .writing (some (f v))
  | .fetch, some v => .settled (.found v)
  | .modify _, none | .fetch, none => .reading
  | .remove, _ => .writing none

/-- The store, the cache, and the calls made so far. -/
structure State (L V : Type) where
  cache : Option V
  store : Option V
  calls : List (L × Phase V) := []

/-- Another call than `i` has changed the store, and has still to change the cache. -/
def State.Behind (s : State L V) (i : ℕ) : Prop :=
  ∃ j ≠ i, ∃ l new, s.calls[j]? = some (l, .written new)

variable (op : L → Op V)

/-- A step in which a `modify` writes over what it has modified, and the cache is left as the store
is or is behind. -/
inductive Step (s : State L V) : State L V → Prop
  | start (l : L) : Step s { s with calls := s.calls ++ [(l, (op l).start s.cache)] }
  | read {i : ℕ} {l : L} (hi : s.calls[i]? = some (l, .reading)) :
      Step s { s with calls := s.calls.set i (l, .read s.store) }
  | write {i : ℕ} {l : L} {new : Option V} (hi : s.calls[i]? = some (l, .writing new))
      (hmodify : ∀ f, op l = .modify f → ∃ v, s.store = some v ∧ new = some (f v)) :
      Step s { s with store := new, calls := s.calls.set i (l, .written new) }
  | miss {i : ℕ} {l : L} (hi : s.calls[i]? = some (l, .read none)) :
      Step s { s with calls := s.calls.set i (l, .settled .missing) }
  | fill {i : ℕ} {l : L} {v : V} (hi : s.calls[i]? = some (l, .read (some v)))
      (hcache : some v = s.store ∨ s.Behind i) :
      Step s { s with cache := some v, calls := s.calls.set i (l, (op l).start (some v)) }
  | done {i : ℕ} {l : L} {new : Option V} (hi : s.calls[i]? = some (l, .written new))
      (hcache : new = s.store ∨ s.Behind i) :
      Step s { s with cache := new, calls := s.calls.set i (l, .settled .done) }

/-! ## What a call knows -/

/-- What a call gives, once that is decided. -/
def Phase.outcome? : Phase V → Option (Result V)
  | .settled result => some result
  | .written _ => some .done
  | .reading | .read _ | .writing _ => none

/-- What a call knows the record has been. -/
def Phase.known? : Phase V → Option (Option V)
  | .read o | .written o => some o
  | .reading | .writing _ | .settled _ => none

/-- The phases that a call of the operation can be in. -/
def Op.Allows (o : Op V) : Phase V → Prop
  | .reading | .read _ => o.apply none = (.missing, none)
  | .writing new => (∃ f, o = .modify f) ∨ ∀ s, o.apply s = (.done, new)
  | .written _ | .settled _ => True

theorem Op.allows_start (o : Op V) (cache : Option V) : o.Allows (o.start cache) := by
  cases o with
  | put v => exact .inr fun s => rfl
  | modify f =>
    cases cache with
    | none => rfl
    | some v => exact .inl ⟨f, rfl⟩
  | fetch => cases cache <;> trivial
  | remove => exact .inr fun s => rfl

/-- A call that is decided at once, or as soon as it has read the record, fetches. -/
theorem Op.outcome?_start {o : Op V} {cache : Option V} {r : Result V}
    (h : (o.start cache).outcome? = some r) :
    ∃ v, cache = some v ∧ o.apply (some v) = (r, some v) := by
  cases o with
  | put v => cases h
  | modify f => cases cache <;> cases h
  | fetch =>
    cases cache with
    | none => cases h
    | some v =>
      cases h
      exact ⟨v, rfl, rfl⟩
  | remove => cases h

theorem Op.known?_start (o : Op V) (cache : Option V) : (o.start cache).known? = none := by
  cases o <;> cases cache <;> rfl

/-- What the calls have given. -/
def State.outcomes (s : State L V) : List (L × Result V) :=
  s.calls.flatMap fun c => (c.2.outcome?.map (c.1, ·)).toList

/-! ## The order -/

variable {op} {s₀ : Option V} {s s' : State L V}

/-- The calls that are decided, one after another. -/
structure Explains (op : L → Op V) (s₀ : Option V) (s : State L V) (log : List (L × Result V)) :
    Prop where
  perm : log.Perm s.outcomes
  serial : Serial (fun l => (op l).apply) s₀ log
  store : after (fun l => (op l).apply) s₀ log = s.store
  cache : ∀ v, s.cache = some v → some v ∈ visited (fun l => (op l).apply) s₀ log
  known : ∀ c ∈ s.calls, ∀ o, c.2.known? = some o → o ∈ visited (fun l => (op l).apply) s₀ log
  allows : ∀ c ∈ s.calls, (op c.1).Allows c.2

namespace Explains

variable {log log' : List (L × Result V)}

/-- One call goes on, or is made. -/
theorem change (h : Explains op s₀ s log) {c : L × Phase V}
    (hcalls : ∀ x ∈ s'.calls, x ∈ s.calls ∨ x = c) (hperm : log'.Perm s'.outcomes)
    (hserial : Serial (fun l => (op l).apply) s₀ log')
    (hstore : after (fun l => (op l).apply) s₀ log' = s'.store)
    (hvisited : visited (fun l => (op l).apply) s₀ log ⊆ visited (fun l => (op l).apply) s₀ log')
    (hcache : ∀ v, s'.cache = some v →
      s.cache = some v ∨ some v ∈ visited (fun l => (op l).apply) s₀ log')
    (hknown : ∀ o, c.2.known? = some o → o ∈ visited (fun l => (op l).apply) s₀ log')
    (hallows : (op c.1).Allows c.2) : Explains op s₀ s' log' where
  perm := hperm
  serial := hserial
  store := hstore
  cache v hv := (hcache v hv).elim (fun hv => hvisited (h.cache v hv)) id
  known x hx o ho := by
    obtain hx | rfl := hcalls x hx
    · exact hvisited (h.known x hx o ho)
    · exact hknown o ho
  allows x hx := by
    obtain hx | rfl := hcalls x hx
    · exact h.allows x hx
    · exact hallows

/-- Call `i` comes to a phase in which it may be decided by what the record has been. -/
theorem go_on (h : Explains op s₀ s log) {i : ℕ} {l : L} {ph ph' : Phase V} {cache : Option V}
    (hi : s.calls[i]? = some (l, ph)) (hph : ph.outcome? = none)
    (hdecided : ∀ r, ph'.outcome? = some r →
      ∃ o ∈ visited (fun l => (op l).apply) s₀ log, (op l).apply o = (r, o))
    (hcache : ∀ v, cache = some v →
      s.cache = some v ∨ some v ∈ visited (fun l => (op l).apply) s₀ log)
    (hknown : ∀ o, ph'.known? = some o → o ∈ visited (fun l => (op l).apply) s₀ log)
    (hallows : (op l).Allows ph') :
    ∃ log', Explains op s₀ ⟨cache, s.store, s.calls.set i (l, ph')⟩ log' := by
  obtain ⟨log', hperm, hserial, hafter, hvisited⟩ := h.serial.exists_insert_toList hdecided
  refine ⟨log', h.change (c := (l, ph')) (fun x hx => List.mem_or_eq_of_mem_set hx) ?_ hserial
    (hafter.trans h.store) hvisited (fun v hv => (hcache v hv).imp_right fun hv => hvisited hv)
    (fun o ho => hvisited (hknown o ho)) hallows⟩
  refine (hperm.trans (h.perm.append_left _)).trans (List.flatMap_set_perm hi ?_).symm
  simp [hph]

/-- A call is made. -/
theorem start (h : Explains op s₀ s log) (l : L) :
    ∃ log', Explains op s₀ { s with calls := s.calls ++ [(l, (op l).start s.cache)] } log' := by
  have hdecided (r : Result V) (hr : ((op l).start s.cache).outcome? = some r) :
      ∃ o ∈ visited (fun l => (op l).apply) s₀ log, (op l).apply o = (r, o) := by
    obtain ⟨v, hv, happly⟩ := Op.outcome?_start hr
    exact ⟨_, h.cache v hv, happly⟩
  obtain ⟨log', hperm, hserial, hafter, hvisited⟩ := h.serial.exists_insert_toList hdecided
  refine ⟨log', h.change (c := (l, (op l).start s.cache)) (fun x hx => ?_) ?_ hserial
    (hafter.trans h.store) hvisited (fun v hv => .inl hv) (fun o ho => ?_)
    ((op l).allows_start s.cache)⟩
  · simpa using hx
  · refine (hperm.trans (h.perm.append_left _)).trans (List.perm_append_comm.trans ?_)
    simp [State.outcomes]
  · rw [Op.known?_start] at ho
    cases ho

/-- Call `i` changes the store, and comes last in the order. -/
theorem write (h : Explains op s₀ s log) {i : ℕ} {l : L} {new : Option V}
    (hi : s.calls[i]? = some (l, .writing new)) (happly : (op l).apply s.store = (.done, new)) :
    Explains op s₀ { s with store := new, calls := s.calls.set i (l, .written new) }
      (log ++ [(l, .done)]) := by
  rw [← h.store] at happly
  refine h.change (c := (l, .written new)) (fun x hx => List.mem_or_eq_of_mem_set hx) ?_
    (h.serial.concat (by rw [happly])) ?_ ?_ (fun v hv => .inl hv) (fun o ho => ?_) trivial
  · refine (List.perm_append_comm.trans (h.perm.append_left _)).trans
      (List.flatMap_set_perm hi ?_).symm
    rfl
  · rw [after_concat, happly]
  · rw [visited_concat]
    exact List.subset_append_left _ _
  · cases ho
    rw [visited_concat, happly]
    simp

/-- Call `i` changes the cache, and ends. -/
theorem done (h : Explains op s₀ s log) {i : ℕ} {l : L} {new : Option V}
    (hi : s.calls[i]? = some (l, .written new)) :
    Explains op s₀ { s with cache := new, calls := s.calls.set i (l, .settled .done) } log := by
  have hnew := h.known _ (List.mem_of_getElem? hi) new rfl
  have houtcomes : (State.outcomes ⟨new, s.store, s.calls.set i (l, .settled .done)⟩).Perm
      ([] ++ s.outcomes) := List.flatMap_set_perm hi rfl
  refine h.change (c := (l, .settled .done)) (fun x hx => List.mem_or_eq_of_mem_set hx)
    (h.perm.trans houtcomes.symm) h.serial h.store (fun _ => id) (fun v hv => ?_)
    (fun o ho => by cases ho) trivial
  obtain rfl : new = some v := hv
  exact .inr hnew

end Explains

/-- What a call that writes leaves is what its operation makes of the store. -/
theorem Op.Allows.apply_eq {o : Op V} {store new : Option V} (h : o.Allows (.writing new))
    (hmodify : ∀ f, o = .modify f → ∃ v, store = some v ∧ new = some (f v)) :
    o.apply store = (.done, new) := by
  obtain ⟨f, rfl⟩ | hall := h
  · obtain ⟨v, rfl, rfl⟩ := hmodify f rfl
    rfl
  · exact hall store

/-- A step adds to the order what it decides. -/
theorem explains_step (h : ∃ log, Explains op s₀ s log) (hstep : Step op s s') :
    ∃ log, Explains op s₀ s' log := by
  obtain ⟨log, h⟩ := h
  cases hstep with
  | start l => exact h.start l
  | read hi =>
    refine h.go_on hi rfl (fun r hr => by cases hr) (fun v hv => .inl hv) (fun o ho => ?_)
      (h.allows _ (List.mem_of_getElem? hi))
    cases ho
    exact h.store ▸ after_mem_visited
  | write hi hmodify =>
    exact ⟨_, h.write hi ((h.allows _ (List.mem_of_getElem? hi)).apply_eq hmodify)⟩
  | miss hi =>
    have hmem := List.mem_of_getElem? hi
    refine h.go_on hi rfl (fun r hr => ?_) (fun v hv => .inl hv) (fun o ho => by cases ho) trivial
    cases hr
    exact ⟨none, h.known _ hmem none rfl, h.allows _ hmem⟩
  | @fill i l v hi _ =>
    have hv := h.known _ (List.mem_of_getElem? hi) (some v) rfl
    refine h.go_on hi rfl (fun r hr => ?_) (fun v' hv' => ?_) (fun o ho => ?_)
      ((op l).allows_start _)
    · obtain ⟨v', hv', happly⟩ := Op.outcome?_start hr
      cases hv'
      exact ⟨_, hv, happly⟩
    · cases hv'
      exact .inr hv
    · rw [Op.known?_start] at ho
      cases ho
  | done hi _ => exact ⟨log, h.done hi⟩

/-! ## The cache -/

/-- The cache is as the store, or it is behind, or nothing has happened to the record yet. -/
def Coherent (s : State L V) : Prop :=
  (∃ c ∈ s.calls, ∃ new, c.2 = .written new) ∨ s.cache = s.store ∨
    s.cache = none ∧ ∀ c ∈ s.calls, (∀ r, c.2 ≠ .settled r) ∧ ∀ o, c.2 = .read o → o = s.store

theorem coherent_of_step (h : Coherent s) (hstep : Step op s s') : Coherent s' := by
  have hbehind {i : ℕ} {c : L × Phase V} (hi : s.Behind i) :
      ∃ x ∈ s.calls.set i c, ∃ new, x.2 = .written new := by
    obtain ⟨j, hj, l, new, hmem⟩ := hi
    exact ⟨_, List.mem_of_getElem? ((List.getElem?_set_ne hj.symm).trans hmem), new, rfl⟩
  have hkeep {i : ℕ} {l : L} {ph : Phase V} {c : L × Phase V} (hi : s.calls[i]? = some (l, ph))
      (hph : ∀ new, ph ≠ .written new) (hw : ∃ c ∈ s.calls, ∃ new, c.2 = .written new) :
      ∃ x ∈ s.calls.set i c, ∃ new, x.2 = .written new := by
    obtain ⟨x, hx, new, hnew⟩ := hw
    refine ⟨x, List.mem_set_of_ne hi hx ?_, new, hnew⟩
    rintro rfl
    exact hph new hnew
  cases hstep with
  | start l =>
    obtain ⟨x, hx, hw⟩ | hcache | ⟨hnone, hcalls⟩ := h
    · exact .inl ⟨x, List.mem_append_left _ hx, hw⟩
    · exact .inr (.inl hcache)
    · refine .inr (.inr ⟨hnone, fun c hc => ?_⟩)
      obtain hc | hc := List.mem_append.mp hc
      · exact hcalls c hc
      · obtain rfl := List.mem_singleton.mp hc
        rw [hnone]
        cases op l <;> exact ⟨nofun, nofun⟩
  | @read i l hi =>
    obtain hw | hcache | ⟨hnone, hcalls⟩ := h
    · exact .inl (hkeep hi nofun hw)
    · exact .inr (.inl hcache)
    · refine .inr (.inr ⟨hnone, fun c hc => ?_⟩)
      obtain hc | rfl := List.mem_or_eq_of_mem_set hc
      · exact hcalls c hc
      · refine ⟨nofun, fun o ho => ?_⟩
        cases ho
        rfl
  | @write i l new hi _ =>
    have hlt : i < s.calls.length := (List.getElem?_eq_some_iff.mp hi).1
    exact .inl ⟨_, List.mem_of_getElem? (List.getElem?_set_self hlt), new, rfl⟩
  | @miss i l hi =>
    obtain hw | hcache | ⟨hnone, hcalls⟩ := h
    · exact .inl (hkeep hi nofun hw)
    · exact .inr (.inl hcache)
    · exact .inr (.inl (hnone.trans ((hcalls _ (List.mem_of_getElem? hi)).2 none rfl)))
  | fill hi hcache => exact hcache.elim (fun hc => .inr (.inl hc)) fun hb => .inl (hbehind hb)
  | done hi hcache => exact hcache.elim (fun hc => .inr (.inl hc)) fun hb => .inl (hbehind hb)

/-! ## Serializability -/

/-- Every call has settled. -/
def State.Settled (s : State L V) : Prop := ∀ c ∈ s.calls, ∃ r, c.2 = .settled r

theorem State.Settled.outcomes_eq_nil_iff (h : s.Settled) : s.outcomes = [] ↔ s.calls = [] := by
  unfold State.outcomes
  rw [List.flatMap_eq_nil_iff, List.eq_nil_iff_forall_not_mem]
  refine forall₂_congr fun c hc => ?_
  obtain ⟨r, hr⟩ := h c hc
  simp [hr, Phase.outcome?]

theorem Step.calls_ne_nil (h : Step op s s') : s'.calls ≠ [] := by
  have hset {i : ℕ} {c c' : L × Phase V} (hi : s.calls[i]? = some c) : s.calls.set i c' ≠ [] :=
    List.ne_nil_of_length_pos <| by
      rw [List.length_set]
      exact Nat.zero_lt_of_lt (List.getElem?_eq_some_iff.mp hi).1
  cases h with
  | start l => simp
  | read hi | write hi _ | miss hi | fill hi _ | done hi _ => exact hset hi

/-- What holds of the calls of a new cache. -/
theorem explains_of_steps (h : Relation.ReflTransGen (Step op) ⟨none, s₀, []⟩ s) :
    (∃ log, Explains op s₀ s log) ∧ Coherent s := by
  induction h with
  | refl =>
    refine ⟨⟨[], .refl _, trivial, rfl, nofun, fun c hc => ?_, fun c hc => ?_⟩,
      .inr (.inr ⟨rfl, fun c hc => ?_⟩)⟩
    all_goals cases hc
  | tail _ hstep ih => exact ⟨explains_step ih.1 hstep, coherent_of_step ih.2 hstep⟩

/-- **Serializability.** When the calls of a new cache have settled, they gave what they give in
some order one after another, and left in the store what they leave then. The cache is as the store,
unless there was no call. -/
theorem serializable_of_steps (h : Relation.ReflTransGen (Step op) ⟨none, s₀, []⟩ s)
    (hsettled : s.Settled) :
    (∃ log, log.Perm s.outcomes ∧ Serial (fun l => (op l).apply) s₀ log ∧
      after (fun l => (op l).apply) s₀ log = s.store) ∧
      (s.calls ≠ [] ∧ s.cache = s.store ∨ s = ⟨none, s₀, []⟩) := by
  obtain ⟨⟨log, hlog⟩, hcoherent⟩ := explains_of_steps h
  refine ⟨⟨log, hlog.perm, hlog.serial, hlog.store⟩, ?_⟩
  obtain hinit | ⟨s', -, hstep⟩ := h.cases_tail
  · exact .inr hinit
  refine .inl ⟨hstep.calls_ne_nil, ?_⟩
  obtain ⟨c, hc, new, hnew⟩ | hcache | ⟨-, hcalls⟩ := hcoherent
  · obtain ⟨r, hr⟩ := hsettled c hc
    cases hnew.symm.trans hr
  · exact hcache
  · -- nothing has settled, but something was called
    obtain ⟨c, hc⟩ := List.exists_mem_of_ne_nil _ hstep.calls_ne_nil
    obtain ⟨r, hr⟩ := hsettled c hc
    exact absurd hr ((hcalls c hc).1 r)

end CachedRecord
