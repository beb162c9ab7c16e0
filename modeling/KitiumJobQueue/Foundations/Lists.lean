import Mathlib.Data.List.Flatten
import Mathlib.Data.List.Nodup
import Mathlib.Data.List.Sort

/-!
# Lists

A state that lists the calls in progress changes in one place at a step. What is collected from the
places then changes by what that place contributes, and the other places stay.

A page of a list is what `take` leaves of it. Cutting every part of a list to the page before
cutting the whole makes no difference, and asking for a part twice shows on the page if there is
room.

The first element of a stable sort is the first of the least elements, and the first `n` of a sort
downwards are its top (`IsTop`).
-/

namespace List

variable {α β : Type*} {l : List α} {i : ℕ} {a b : α}

/-- What a list contributes where one of its places contributes more. -/
theorem flatMap_set_perm (h : l[i]? = some a) {f : α → List β} {new : List β}
    (hf : f b = new ++ f a) : ((l.set i b).flatMap f).Perm (new ++ l.flatMap f) := by
  obtain ⟨hlt, rfl⟩ := getElem?_eq_some_iff.mp h
  rw [set_eq_take_append_cons_drop, if_pos hlt]
  conv_rhs => rw [← take_append_drop i l, drop_eq_getElem_cons hlt]
  simp only [flatMap_append, flatMap_cons, hf, append_assoc]
  exact perm_append_comm_assoc ..

/-- A place that differs from the one that changes is still there. -/
theorem mem_set_of_ne (h : l[i]? = some a) {x : α} (hx : x ∈ l) (hne : x ≠ a) : x ∈ l.set i b := by
  obtain ⟨j, hj⟩ := getElem?_of_mem hx
  have hij : i ≠ j := by
    rintro rfl
    exact hne (Option.some.inj (hj.symm.trans h))
  refine mem_of_getElem? (i := j) ?_
  rw [getElem?_set_ne hij, hj]

/-! ## Pages -/

/-- What is cut to one length alike is cut to any smaller length alike. -/
theorem take_eq_take_of_le {l m : List α} {n k : ℕ} (h : l.take n = m.take n) (hk : k ≤ n) :
    l.take k = m.take k := by
  rw [← Nat.min_eq_left hk, ← take_take, h, take_take]

/-- Pages of three lists, one after another, against one page of the first and the last: they are
the same exactly if the second is empty and the others do not have to share the page, and otherwise
not even their lengths are. -/
theorem take_append_take_eq_take_iff (l₁ l₂ l₃ : List α) {n : ℕ} (hn : 1 ≤ n) :
    (l₁.take n ++ (l₂.take n ++ l₃.take n) = (l₁ ++ l₃).take n ↔
      l₂ = [] ∧ (l₁ = [] ∨ l₃ = [] ∨ l₁.length + l₃.length ≤ n)) ∧
    ((l₁.take n ++ (l₂.take n ++ l₃.take n)).length = ((l₁ ++ l₃).take n).length →
      l₂ = [] ∧ (l₁ = [] ∨ l₃ = [] ∨ l₁.length + l₃.length ≤ n)) := by
  have hlengths (h : (l₁.take n ++ (l₂.take n ++ l₃.take n)).length = ((l₁ ++ l₃).take n).length) :
      l₂ = [] ∧ (l₁ = [] ∨ l₃ = [] ∨ l₁.length + l₃.length ≤ n) := by
    simp only [length_append, length_take] at h
    simp only [← length_eq_zero_iff]
    omega
  refine ⟨⟨fun h => hlengths (congrArg length h), ?_⟩, hlengths⟩
  rintro ⟨rfl, rfl | rfl | hroom⟩
  · simp only [take_nil, nil_append]
  · simp only [take_nil, append_nil]
  · rw [take_of_length_le (by omega), take_nil, nil_append, take_of_length_le (by omega),
      take_of_length_le (by rw [length_append]; exact hroom)]

/-- The parts of a list may be cut to the length of the page first. -/
theorem take_flatMap_take (l : List α) (f : α → List β) (n : ℕ) :
    (l.flatMap fun a => (f a).take n).take n = (l.flatMap f).take n := by
  induction l with
  | nil => rfl
  | cons a l ih =>
    have hle : n - (f a).length ≤ n := Nat.sub_le n _
    have hlen : n - ((f a).take n).length = n - (f a).length := by
      rw [length_take]
      omega
    rw [flatMap_cons, flatMap_cons, take_append, take_append, take_take, Nat.min_self, hlen,
      take_eq_take_of_le ih hle]

/-- A part that is listed again shows twice on the page, unless it is empty or the page is full. -/
theorem nodup_take_append_iff {l m : List α} (hl : l.Nodup) (hm : m ⊆ l) (n : ℕ) :
    ((l ++ m).take n).Nodup ↔ m = [] ∨ n ≤ l.length := by
  constructor
  · intro h
    by_contra hcon
    obtain ⟨hne, hlt⟩ := not_or.mp hcon
    obtain ⟨a, m, rfl⟩ := exists_cons_of_ne_nil hne
    have hroom : n - l.length = n - l.length - 1 + 1 := by omega
    rw [take_append, take_of_length_le (by omega), hroom, take_succ_cons] at h
    exact disjoint_of_nodup_append h (hm mem_cons_self) mem_cons_self
  · rintro (rfl | hn)
    · rw [append_nil]
      exact hl.sublist (take_sublist n l)
    · rw [take_append_of_le_length hn]
      exact hl.sublist (take_sublist n l)

/-- Parts that are cut to the length of the page each fit on it together exactly if they do uncut,
or but one of them is not empty. -/
theorem length_flatMap_take_le_iff {n : ℕ} (hn : 1 ≤ n) (l : List α) (f : α → List β) :
    (l.flatMap fun a => (f a).take n).length ≤ n ↔
      (l.flatMap f).length ≤ n ∨ (l.filter fun a => !(f a).isEmpty).length ≤ 1 := by
  induction l with
  | nil => simp
  | cons a l ih =>
    have hcut : min n (l.flatMap fun a => (f a).take n).length = min n (l.flatMap f).length := by
      simpa using congrArg length (take_flatMap_take l f n)
    rw [flatMap_cons, flatMap_cons, length_append, length_append, length_take]
    by_cases hempty : f a = []
    · simpa [hempty] using ih
    · have ha : 0 < (f a).length := length_pos_iff.mpr hempty
      have hnone : (l.filter fun a => !(f a).isEmpty).length = 0 ↔ (l.flatMap f).length = 0 := by
        rw [length_eq_zero_iff, length_eq_zero_iff, filter_eq_nil_iff, flatMap_eq_nil_iff]
        simp
      have hle : (l.flatMap fun a => (f a).take n).length ≤ (l.flatMap f).length :=
        (Sublist.flatMap_right l fun a _ => take_sublist n (f a)).length_le
      rw [filter_cons_of_pos (by simpa using hempty), length_cons]
      constructor
      · intro h
        omega
      · rintro (h | h)
        · omega
        · omega

/-! ## Sorting -/

/-- Of the elements that meet `p`, the one at position `i` is least, and the first of its equals. -/
structure FirstLeast {κ : Type*} [LinearOrder κ] (p : α → Bool) (f : α → κ) (l : List α) (i : ℕ)
    (a : α) : Prop where
  there : l[i]? = some a
  meets : p a = true
  least : ∀ (j : ℕ) b, l[j]? = some b → p b = true → f a ≤ f b ∧ (f b = f a → i ≤ j)

section FirstLeast

variable {κ : Type*} [LinearOrder κ] {p : α → Bool} {f : α → κ} {x : α}

/-- The head of a list comes first if no element is less. -/
theorem firstLeast_head (hx : p x = true) (h : ∀ b ∈ l, p b = true → f x ≤ f b) :
    FirstLeast p f (x :: l) 0 x where
  there := rfl
  meets := hx
  least j b hj hb := by
    refine ⟨?_, fun _ => Nat.zero_le j⟩
    cases j with
    | zero =>
      obtain rfl : x = b := Option.some.inj hj
      exact le_rfl
    | succ j => exact h b (mem_of_getElem? hj) hb

/-- A head that does not meet `p` or is greater makes no difference. -/
theorem FirstLeast.cons (h : FirstLeast p f l i a) (hx : p x = true → f a < f x) :
    FirstLeast p f (x :: l) (i + 1) a where
  there := h.there
  meets := h.meets
  least j b hj hb := by
    cases j with
    | zero =>
      obtain rfl : x = b := Option.some.inj hj
      exact ⟨(hx hb).le, fun heq => absurd heq (hx hb).ne'⟩
    | succ j =>
      obtain ⟨hle, hfirst⟩ := h.least j b hj hb
      exact ⟨hle, fun heq => Nat.succ_le_succ (hfirst heq)⟩

/-- What comes first after a stable sort. By induction on the list, whose head is inserted last. -/
theorem exists_firstLeast [DecidableRel fun a b => f a ≤ f b]
    (h : ((l.filter p).insertionSort fun a b => f a ≤ f b).head? = some a) :
    ∃ i, FirstLeast p f l i a := by
  induction l generalizing a with
  | nil => cases h
  | cons x l ih =>
    by_cases hx : p x = true
    · rw [filter_cons_of_pos hx, insertionSort_cons] at h
      cases hsorted : (l.filter p).insertionSort fun a b => f a ≤ f b with
      | nil =>
        -- nothing else meets `p`
        obtain rfl : x = a := by simpa [hsorted] using h
        have hnone : l.filter p = [] := by
          rw [← length_eq_zero_iff, ← length_insertionSort (fun a b => f a ≤ f b), hsorted]
          rfl
        exact ⟨0, firstLeast_head hx fun b hb hpb => absurd hpb (filter_eq_nil_iff.mp hnone b hb)⟩
      | cons b bs =>
        obtain ⟨i, hi⟩ := ih (a := b) (by rw [hsorted]; rfl)
        rw [hsorted, orderedInsert_cons] at h
        split at h
        · next hle =>
          obtain rfl : x = a := Option.some.inj h
          refine ⟨0, firstLeast_head hx fun c hc hpc => ?_⟩
          obtain ⟨j, hj⟩ := getElem?_of_mem hc
          exact hle.trans (hi.least j c hj hpc).1
        · next hlt =>
          obtain rfl : b = a := Option.some.inj h
          exact ⟨i + 1, hi.cons fun _ => not_le.mp hlt⟩
    · rw [filter_cons_of_neg hx] at h
      obtain ⟨i, hi⟩ := ih h
      exact ⟨i + 1, hi.cons fun hpx => absurd hpx hx⟩

end FirstLeast

/-- `l` lists `n` of the elements of `m`, the greatest first, and leaves out none that is greater
than one of them. -/
structure IsTop {κ : Type*} [LinearOrder κ] (f : α → κ) (n : ℕ) (m l : List α) : Prop where
  subperm : l.Subperm m
  length_eq : l.length = n
  sorted : l.Pairwise fun a b => f b ≤ f a
  greatest : ∀ a ∈ m, a ∉ l → ∀ b ∈ l, f a ≤ f b

/-- The beginning of a list sorted downwards is its top. -/
theorem isTop_take_insertionSort {κ : Type*} [LinearOrder κ] (f : α → κ) {n : ℕ} {m : List α}
    (hn : n ≤ m.length) : IsTop f n m ((m.insertionSort fun a b => f b ≤ f a).take n) := by
  have : Std.Total fun a b : α => f b ≤ f a := ⟨fun a b => le_total (f b) (f a)⟩
  have : IsTrans α fun a b => f b ≤ f a := ⟨fun a b c hab hbc => hbc.trans hab⟩
  have hperm := perm_insertionSort (fun a b => f b ≤ f a) m
  have hsorted := pairwise_insertionSort (fun a b => f b ≤ f a) m
  refine
    { subperm := (take_sublist n _).subperm.trans hperm.subperm
      length_eq := by rw [length_take, hperm.length_eq, Nat.min_eq_left hn]
      sorted := hsorted.sublist (take_sublist n _)
      greatest := fun a ha hnot b hb => ?_ }
  rw [← take_append_drop n (m.insertionSort _)] at hsorted
  have ha' : a ∈ m.insertionSort fun a b => f b ≤ f a := hperm.mem_iff.mpr ha
  rw [← take_append_drop n (m.insertionSort _)] at ha'
  rcases mem_append.mp ha' with htaken | hleft
  · exact absurd htaken hnot
  · exact (pairwise_append.mp hsorted).2.2 b hb a hleft

/-- Nothing comes first exactly if no element meets `p`. -/
theorem head?_insertionSort_eq_none {r : α → α → Prop} [DecidableRel r] {p : α → Bool}
    {l : List α} : ((l.filter p).insertionSort r).head? = none ↔ ∀ a ∈ l, ¬ p a = true := by
  rw [head?_eq_none_iff, ← length_eq_zero_iff, length_insertionSort, length_eq_zero_iff,
    filter_eq_nil_iff]

end List
