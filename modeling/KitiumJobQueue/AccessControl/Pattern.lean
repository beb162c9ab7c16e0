import KitiumJobQueue.Foundations.Glob

/-!
# Queue patterns

`matchesPattern` of `access-control.manager.ts`, over an arbitrary alphabet with a letter `star`,
so that nothing depends on what a string of the source is made of. The code looks for the
non-empty parts of the pattern from left to right, each at its first occurrence after the one
before, and tests the first and the last part once more against the two ends of the name.
`matchesPattern_iff` says that this decides the language of the pattern.
-/

namespace KitiumJobQueue.AccessControl

open Glob

variable {α : Type*} [DecidableEq α]

/-- `value.indexOf(part, position)` -/
def indexOf (value part : List α) (position : ℕ) : Option ℕ :=
  let start := min position value.length
  (List.range' start (value.length + 1 - start)).find? fun i => part.isPrefixOf (value.drop i)

/-- The loop over the parts: each is looked for from where the one before ended. -/
def findParts (value : List α) : List (List α) → ℕ → Bool
  | [], _ => true
  | part :: parts, position =>
    match indexOf value part position with
    | none => false
    | some index => findParts value parts (index + part.length)

/-- `AccessControlManager.matchesWildcardPattern` -/
def matchesWildcardPattern (star : α) (value pattern : List α) : Bool :=
  if star ∉ pattern then value = pattern
  else
    let parts := (pattern.splitOn star).filter fun part => 0 < part.length
    match parts.head?, parts.getLast? with
    | some firstPart, some lastPart =>
      findParts value parts 0 &&
        ([star].isPrefixOf pattern || firstPart.isPrefixOf value) &&
        ([star].isSuffixOf pattern || lastPart.isSuffixOf value)
    | _, _ => true

/-- `AccessControlManager.matchesPattern` -/
def matchesPattern (star : α) (queueName pattern : List α) : Bool :=
  if pattern = [star] then true
  else if pattern = queueName then true
  else matchesWildcardPattern star queueName pattern

/-! ## The search -/

theorem indexOf_eq_some {value part : List α} {position i : ℕ} (hp : position ≤ value.length)
    (h : indexOf value part position = some i) :
    position ≤ i ∧ i ≤ value.length ∧ (∃ w, value.drop i = part ++ w) ∧
      ∀ k, position ≤ k → k < i → ¬ part <+: value.drop k := by
  unfold indexOf at h
  rw [min_eq_left hp, List.find?_range'_eq_some] at h
  obtain ⟨hpart, hi, hmin⟩ := h
  rw [List.isPrefixOf_iff_prefix] at hpart
  rw [List.mem_range'_1] at hi
  refine ⟨hi.1, by omega, ?_, fun k hk hki hpre => ?_⟩
  · obtain ⟨w, hw⟩ := hpart
    exact ⟨w, hw.symm⟩
  · have := hmin k hk hki
    rw [List.isPrefixOf_iff_prefix.mpr hpre] at this
    simp at this

theorem indexOf_eq_none {value part : List α} {position : ℕ} (hp : position ≤ value.length)
    (h : indexOf value part position = none) {k : ℕ} (hk : position ≤ k) (hkl : k ≤ value.length) :
    ¬ part <+: value.drop k := by
  unfold indexOf at h
  rw [min_eq_left hp, List.find?_range'_eq_none] at h
  intro hpre
  have := h k hk (by omega)
  rw [List.isPrefixOf_iff_prefix.mpr hpre] at this
  simp at this

/-- **The leftmost search is complete**: it succeeds exactly when the parts occur in order. -/
theorem findParts_iff (value : List α) (parts : List (List α)) {position : ℕ}
    (hp : position ≤ value.length) :
    findParts value parts position = true ↔ InOrder parts (value.drop position) := by
  induction parts generalizing position with
  | nil => simp [findParts, InOrder]
  | cons part parts ih =>
    rw [findParts]
    cases h : indexOf value part position with
    | none =>
      refine ⟨fun hf => by simp at hf, ?_⟩
      rintro ⟨g, w, hg, -⟩
      have hlen := congrArg List.length hg
      simp only [List.length_drop, List.length_append] at hlen
      refine absurd ?_ (indexOf_eq_none hp h (k := position + g.length) (by omega) (by omega))
      rw [← List.drop_drop, hg, List.drop_left]
      exact List.prefix_append part w
    | some i =>
      obtain ⟨hi, hil, ⟨w, hw⟩, hmin⟩ := indexOf_eq_some hp h
      have hdrop : value.drop (i + part.length) = w := by
        rw [← List.drop_drop, hw, List.drop_left]
      have hlen := congrArg List.length hw
      simp only [List.length_drop, List.length_append] at hlen
      have hsplit : value.drop position =
          (value.drop position).take (i - position) ++ (part ++ w) := by
        have := (List.take_append_drop (i - position) (value.drop position)).symm
        rwa [List.drop_drop, Nat.add_sub_cancel' hi, hw] at this
      show findParts value parts (i + part.length) = true ↔ _
      rw [ih (by omega), hdrop]
      refine ⟨fun hin => ⟨_, w, hsplit, hin⟩, ?_⟩
      rintro ⟨g, w', hg, hin⟩
      -- the occurrence found is no later than any other
      have hig : i ≤ position + g.length := by
        by_contra hlt
        refine hmin (position + g.length) (by omega) (by omega) ?_
        rw [← List.drop_drop, hg, List.drop_left]
        exact List.prefix_append part w'
      refine inOrder_cons_of_leftmost (hsplit.symm.trans hg) ?_ hin
      rw [List.length_take]
      omega

/-! ## The language -/

/-- A pattern begins with a star exactly when its first segment is empty. -/
theorem star_isPrefixOf_iff {star : α} {s : List α} (hs : star ∉ s) (p : List α) :
    [star].isPrefixOf (s ++ star :: p) = true ↔ s = [] := by
  cases s with
  | nil => simp
  | cons a s =>
    have ha : star ≠ a := fun h => hs (h ▸ List.mem_cons_self)
    simp [ha]

/-- A pattern ends with a star exactly when its last segment is empty. -/
theorem star_isSuffixOf_iff {star : α} {l : List α} (hl : star ∉ l) (q : List α) :
    [star].isSuffixOf (q ++ star :: l) = true ↔ l = [] := by
  rw [List.isSuffixOf_iff_suffix]
  rcases List.eq_nil_or_concat l with rfl | ⟨l, a, rfl⟩
  · simp
  · have ha : star ≠ a := fun h => hl (by simp [h])
    refine ⟨fun h => ?_, fun h => by simp at h⟩
    exact absurd (by simpa using h.getLast (by simp)) ha

/-- The three tests of `matchesWildcardPattern`, stated for the segments of the pattern: dropping
the empty segments, and skipping the test of an end at which the pattern has a star, changes
nothing. -/
theorem matchesWildcardPattern_append_cons {star : α} {s : List α} (hs : star ∉ s)
    (p value : List α) {l : List α} {ms : List (List α)} (hsplit : p.splitOn star = ms ++ [l])
    {q : List α} (hq : star :: p = q ++ star :: l) (hl : star ∉ l) :
    matchesWildcardPattern star value (s ++ star :: p) = true ↔
      InOrder (s :: (ms ++ [l])) value ∧ s <+: value ∧ l <:+ value := by
  have hprefix := star_isPrefixOf_iff hs p
  have hsuffix : [star].isSuffixOf (s ++ star :: p) = true ↔ l = [] := by
    rw [hq, ← List.append_assoc]
    exact star_isSuffixOf_iff hl (s ++ q)
  have hmem : ¬ star ∉ s ++ star :: p := by simp
  unfold matchesWildcardPattern
  rw [if_neg hmem, List.splitOn_append_cons_self_of_not_mem hs, hsplit]
  rw [← inOrder_filter_length (s :: (ms ++ [l])) value]
  generalize hparts : (s :: (ms ++ [l])).filter (fun part => 0 < part.length) = parts
  dsimp only
  cases hhead : parts.head? with
  | none =>
    -- every segment is empty
    obtain rfl : parts = [] := List.head?_eq_none_iff.mp hhead
    simp only [List.filter_eq_nil_iff, List.mem_cons, List.mem_append] at hparts
    obtain rfl : s = [] := by simpa using hparts s (.inl rfl)
    obtain rfl : l = [] := by simpa using hparts l (.inr (.inr (.inl rfl)))
    simp [InOrder]
  | some firstPart =>
    have hne : parts ≠ [] := by
      rintro rfl
      simp at hhead
    obtain ⟨lastPart, hlast⟩ : ∃ lastPart, parts.getLast? = some lastPart :=
      ⟨_, List.getLast?_eq_some_getLast hne⟩
    have hfirst : s ≠ [] → firstPart = s := by
      intro h
      rw [List.filter_cons_of_pos (by simpa [List.length_pos_iff] using h)] at hparts
      rw [← hparts] at hhead
      exact (Option.some.inj hhead).symm
    have hend : l ≠ [] → lastPart = l := by
      intro h
      have hl : [l].filter (fun part => 0 < part.length) = [l] := by
        simpa [List.filter_eq_self, List.length_pos_iff] using h
      rw [← List.cons_append, List.filter_append, hl] at hparts
      rw [← hparts, List.getLast?_concat] at hlast
      exact (Option.some.inj hlast).symm
    simp only [hlast, Bool.and_eq_true, Bool.or_eq_true, findParts_iff value parts (Nat.zero_le _),
      List.drop_zero, hprefix, hsuffix, List.isPrefixOf_iff_prefix, List.isSuffixOf_iff_suffix,
      and_assoc]
    refine and_congr_right fun _ => and_congr ?_ ?_
    · rcases eq_or_ne s [] with rfl | h
      · simp
      · simp [h, hfirst h]
    · rcases eq_or_ne l [] with rfl | h
      · simp
      · simp [h, hend h]

/-- **`matchesPattern` decides the language of the pattern**, every star standing for any string
and every other letter for itself. -/
theorem matchesPattern_iff (star : α) (queueName pattern : List α) :
    matchesPattern star queueName pattern = true ↔
      Matches (wildcard star pattern) queueName := by
  unfold matchesPattern
  by_cases hall : pattern = [star]
  · subst hall
    rw [if_pos rfl, wildcard_cons_star]
    refine ⟨fun _ => ⟨queueName, [], by simp, rfl⟩, fun _ => rfl⟩
  rw [if_neg hall]
  by_cases hstar : star ∈ pattern
  · obtain ⟨s, p, rfl, hs⟩ := List.eq_append_cons_of_mem hstar
    obtain ⟨q, hq, hl⟩ := exists_append_getLast_splitOn star p
    have hsplit := (List.dropLast_append_getLast (List.splitOn_ne_nil star p)).symm
    have hcode := matchesWildcardPattern_append_cons hs p queueName hsplit hq hl
    rw [inOrder_anchored, ← matches_wildcard_append_cons hs] at hcode
    split
    case isTrue h => exact ⟨fun _ => h ▸ matches_wildcard_self star _, fun _ => rfl⟩
    case isFalse => exact hcode
  · rw [wildcard_eq_literal hstar, matches_literal]
    unfold matchesWildcardPattern
    rw [if_pos hstar]
    by_cases h : pattern = queueName
    · simp [h]
    · simp [h]

end KitiumJobQueue.AccessControl
