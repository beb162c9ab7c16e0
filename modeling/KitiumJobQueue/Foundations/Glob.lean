import Mathlib.Data.List.Basic
import Mathlib.Data.List.Infix

/-!
# Wildcard patterns and their languages

A pattern is a list of tokens: `star` stands for any string, the empty one included, and `one p`
for one letter satisfying `p`. `Matches` is its language, over any alphabet, and `accepts` decides
it by trying every suffix at a star.

The second half is about a pattern without classes, a string in which one letter is the star and
every other letter stands for itself (`wildcard`). Splitting it at its stars leaves literal
segments: the first is a prefix of the name, the last a suffix, and the ones between occur in
order, without overlaps, in what is left (`matches_wildcard_append_cons`). `InOrder` is that last
notion; it only improves when the string it looks in grows at either end, which is why a search
may always take the leftmost occurrence (`inOrder_cons_of_leftmost`).
-/

namespace Glob

variable {α : Type*}

/-- A token of a pattern. -/
inductive Tok (α : Type*)
  | star
  | one (p : α → Bool)

/-- The strings a pattern stands for. -/
def Matches : List (Tok α) → List α → Prop
  | [], s => s = []
  | .star :: ts, s => ∃ u v, s = u ++ v ∧ Matches ts v
  | .one p :: ts, s => ∃ a v, s = a :: v ∧ p a = true ∧ Matches ts v

/-- Match a string, trying every suffix at a star. -/
def accepts : List (Tok α) → List α → Bool
  | [], s => s.isEmpty
  | .star :: ts, s => s.tails.any (accepts ts)
  | .one _ :: _, [] => false
  | .one p :: ts, a :: s => p a && accepts ts s

theorem accepts_iff (ts : List (Tok α)) (s : List α) : accepts ts s = true ↔ Matches ts s := by
  induction ts generalizing s with
  | nil => simp [accepts, Matches]
  | cons t ts ih =>
    cases t with
    | star =>
      simp only [accepts, Matches, List.any_eq_true, List.mem_tails, ih]
      constructor
      · rintro ⟨v, ⟨u, rfl⟩, h⟩
        exact ⟨u, v, rfl, h⟩
      · rintro ⟨u, v, rfl, h⟩
        exact ⟨v, List.suffix_append u v, h⟩
    | one p =>
      cases s with
      | nil => simp [accepts, Matches]
      | cons a s =>
        simp only [accepts, Matches, Bool.and_eq_true, ih]
        constructor
        · rintro ⟨hp, h⟩
          exact ⟨a, s, rfl, hp, h⟩
        · rintro ⟨_, _, e, hp, h⟩
          obtain ⟨rfl, rfl⟩ := List.cons.inj e
          exact ⟨hp, h⟩

instance (ts : List (Tok α)) : DecidablePred (Matches ts) := fun s =>
  decidable_of_iff _ (accepts_iff ts s)

theorem matches_append (ts us : List (Tok α)) (s : List α) :
    Matches (ts ++ us) s ↔ ∃ u v, s = u ++ v ∧ Matches ts u ∧ Matches us v := by
  induction ts generalizing s with
  | nil => simp [Matches]
  | cons t ts ih =>
    cases t with
    | star =>
      simp only [List.cons_append, Matches, ih]
      constructor
      · rintro ⟨u, _, rfl, v, w, rfl, h₁, h₂⟩
        exact ⟨u ++ v, w, by simp, ⟨u, v, rfl, h₁⟩, h₂⟩
      · rintro ⟨_, w, rfl, ⟨u, v, rfl, h₁⟩, h₂⟩
        exact ⟨u, v ++ w, by simp, v, w, rfl, h₁, h₂⟩
    | one p =>
      simp only [List.cons_append, Matches, ih]
      constructor
      · rintro ⟨a, _, rfl, hp, v, w, rfl, h₁, h₂⟩
        exact ⟨a :: v, w, rfl, ⟨a, v, rfl, hp, h₁⟩, h₂⟩
      · rintro ⟨_, w, rfl, ⟨a, v, rfl, hp, h₁⟩, h₂⟩
        exact ⟨a, v ++ w, rfl, hp, v, w, rfl, h₁, h₂⟩

/-! ## Segments in order -/

/-- The segments occur in `v` one after the other, without overlaps. -/
def InOrder : List (List α) → List α → Prop
  | [], _ => True
  | p :: ps, v => ∃ g w, v = g ++ (p ++ w) ∧ InOrder ps w

theorem InOrder.append_left {ps : List (List α)} {v : List α} (h : InOrder ps v) (g : List α) :
    InOrder ps (g ++ v) := by
  cases ps with
  | nil => trivial
  | cons p ps =>
    obtain ⟨g', w, rfl, hw⟩ := h
    exact ⟨g ++ g', w, by simp, hw⟩

theorem InOrder.append_right {ps : List (List α)} {v : List α} (h : InOrder ps v) (w : List α) :
    InOrder ps (v ++ w) := by
  induction ps generalizing v with
  | nil => trivial
  | cons p ps ih =>
    obtain ⟨g, u, rfl, hu⟩ := h
    exact ⟨g, u ++ w, by simp, ih hu⟩

theorem inOrder_append (ps qs : List (List α)) (v : List α) :
    InOrder (ps ++ qs) v ↔ ∃ u w, v = u ++ w ∧ InOrder ps u ∧ InOrder qs w := by
  induction ps generalizing v with
  | nil =>
    constructor
    · exact fun h => ⟨[], v, rfl, trivial, h⟩
    · rintro ⟨u, w, rfl, -, h⟩
      exact h.append_left u
  | cons p ps ih =>
    simp only [List.cons_append, InOrder, ih]
    constructor
    · rintro ⟨g, _, rfl, u, w, rfl, h₁, h₂⟩
      exact ⟨g ++ (p ++ u), w, by simp, ⟨g, u, rfl, h₁⟩, h₂⟩
    · rintro ⟨_, w, rfl, ⟨g, u, rfl, h₁⟩, h₂⟩
      exact ⟨g, u ++ w, by simp, u, w, rfl, h₁, h₂⟩

/-- Empty segments occur everywhere, so they may be left out. -/
theorem inOrder_filter_length (ps : List (List α)) (v : List α) :
    InOrder (ps.filter fun p => 0 < p.length) v ↔ InOrder ps v := by
  induction ps generalizing v with
  | nil => simp [InOrder]
  | cons p ps ih =>
    cases p with
    | nil =>
      rw [List.filter_cons_of_neg (by simp), ih]
      constructor
      · exact fun h => ⟨[], v, rfl, h⟩
      · rintro ⟨g, w, rfl, h⟩
        exact h.append_left g
    | cons a p =>
      rw [List.filter_cons_of_pos (by simp)]
      simp only [InOrder, ih]

/-- **The exchange argument.** If `p` occurs at some place after which `ps` occur in order, then
`ps` also occur in order after any earlier occurrence of `p`. -/
theorem inOrder_cons_of_leftmost {p : List α} {ps : List (List α)} {g w g' w' : List α}
    (h : g ++ (p ++ w) = g' ++ (p ++ w')) (hle : g.length ≤ g'.length) (hw' : InOrder ps w') :
    InOrder ps w := by
  have hsuf : w' <:+ w := by
    have h₁ : w <:+ g' ++ (p ++ w') := h ▸ ⟨g ++ p, by simp⟩
    have h₂ : w' <:+ g' ++ (p ++ w') := ⟨g' ++ p, by simp⟩
    have hlen := congrArg List.length h
    simp only [List.length_append] at hlen
    exact List.suffix_of_suffix_length_le h₂ h₁ (by omega)
  obtain ⟨u, rfl⟩ := hsuf
  exact hw'.append_left u

/-- Segments of which the first is also a prefix and the last also a suffix: the others occur in
order between that prefix and that suffix, so the three tests never accept an overlap. -/
theorem inOrder_anchored (s l : List α) (ps : List (List α)) (v : List α) :
    InOrder (s :: (ps ++ [l])) v ∧ s <+: v ∧ l <:+ v ↔
      ∃ x, v = s ++ (x ++ l) ∧ InOrder ps x := by
  constructor
  · rintro ⟨⟨g, w, hv, hw⟩, ⟨y, rfl⟩, hl⟩
    -- the first segment may be taken at the front
    have hy : InOrder (ps ++ [l]) y := by
      rw [← List.nil_append (s ++ y)] at hv
      exact inOrder_cons_of_leftmost hv (Nat.zero_le _) hw
    obtain ⟨u, _, rfl, hu, g', w', rfl, -⟩ := (inOrder_append ps [l] y).mp hy
    -- and the last one at the end, which is no earlier than where it was found
    have hly : l <:+ u ++ (g' ++ (l ++ w')) :=
      List.suffix_of_suffix_length_le hl (List.suffix_append _ _) (by simp; omega)
    obtain ⟨x, hx⟩ := hly
    have hux : u <+: x := by
      have h₁ : u <+: x ++ l := hx ▸ List.prefix_append _ _
      have hlen := congrArg List.length hx
      simp only [List.length_append] at hlen
      exact List.prefix_of_prefix_length_le h₁ (List.prefix_append _ _) (by omega)
    obtain ⟨z, rfl⟩ := hux
    exact ⟨u ++ z, by rw [← hx], hu.append_right z⟩
  · rintro ⟨x, rfl, hx⟩
    refine ⟨⟨[], x ++ l, rfl, ?_⟩, List.prefix_append _ _, ⟨s ++ x, by simp⟩⟩
    exact (inOrder_append ps [l] _).mpr ⟨x, l, rfl, hx, [], [], by simp, trivial⟩

/-! ## Literals -/

variable [DecidableEq α]

/-- The pattern whose letters all stand for themselves. -/
def literal (l : List α) : List (Tok α) := l.map fun c => .one (decide <| · = c)

@[simp] theorem matches_literal (l s : List α) : Matches (literal l) s ↔ s = l := by
  induction l generalizing s with
  | nil => simp [literal, Matches]
  | cons c l ih =>
    simp only [literal, List.map_cons, Matches] at ih ⊢
    constructor
    · rintro ⟨a, v, rfl, hp, h⟩
      rw [of_decide_eq_true hp, (ih v).mp h]
    · rintro rfl
      exact ⟨c, l, rfl, by simp, (ih l).mpr rfl⟩

/-- A literal followed by a star matches what the literal is a prefix of. -/
theorem matches_literal_star (l s : List α) : Matches (literal l ++ [.star]) s ↔ l <+: s := by
  rw [matches_append]
  constructor
  · rintro ⟨u, v, rfl, h, -⟩
    rw [(matches_literal l u).mp h]
    exact List.prefix_append l v
  · rintro ⟨v, rfl⟩
    exact ⟨l, v, rfl, (matches_literal l l).mpr rfl, v, [], by simp, rfl⟩

/-! ## Patterns with one wildcard letter -/

/-- The pattern in which the letter `star` is the wildcard and any other letter stands for
itself. -/
def wildcard (star : α) (pattern : List α) : List (Tok α) :=
  pattern.map fun c => if c = star then .star else .one (decide <| · = c)

theorem wildcard_append (star : α) (p q : List α) :
    wildcard star (p ++ q) = wildcard star p ++ wildcard star q :=
  List.map_append

theorem wildcard_eq_literal {star : α} {p : List α} (h : star ∉ p) :
    wildcard star p = literal p := by
  refine List.map_congr_left fun c hc => if_neg ?_
  rintro rfl
  exact h hc

theorem wildcard_cons_star (star : α) (p : List α) :
    wildcard star (star :: p) = .star :: wildcard star p := by
  simp [wildcard]

/-- A pattern stands, among others, for itself. -/
theorem matches_wildcard_self (star : α) (p : List α) : Matches (wildcard star p) p := by
  induction p with
  | nil => rfl
  | cons c p ih =>
    by_cases hc : c = star
    · subst hc
      rw [wildcard_cons_star]
      exact ⟨[c], p, rfl, ih⟩
    · simp only [wildcard, List.map_cons, if_neg hc]
      exact ⟨c, p, rfl, by simp, ih⟩

/-- What a star and the pattern after it stand for, through the segments of that pattern: the
last one is a suffix and the others occur in order before it. -/
theorem matches_star_wildcard (star : α) (p v : List α) :
    Matches (.star :: wildcard star p) v ↔
      ∃ x, v = x ++ (p.splitOn star).getLast (List.splitOn_ne_nil star p) ∧
        InOrder (p.splitOn star).dropLast x := by
  -- one segment is split off at a time, so the induction is on the length of the pattern
  induction hn : p.length using Nat.strongRecOn generalizing p v with
  | ind n ih =>
  by_cases hp : star ∈ p
  · obtain ⟨s, q, rfl, hs⟩ := List.eq_append_cons_of_mem hp
    have hsplit := List.splitOn_append_cons_self_of_not_mem hs q
    have hne := List.splitOn_ne_nil star q
    have ihq := ih q.length (by rw [← hn]; simp; omega) q
    simp only [hsplit, List.getLast_cons hne, List.dropLast_cons_of_ne_nil hne, InOrder]
    rw [wildcard_append, wildcard_eq_literal hs, wildcard_cons_star]
    change (∃ g w, v = g ++ w ∧ Matches (literal s ++ .star :: wildcard star q) w) ↔ _
    simp only [matches_append, matches_literal]
    constructor
    · rintro ⟨g, _, rfl, t, w, rfl, rfl, hw⟩
      obtain ⟨x, rfl, hx⟩ := (ihq w rfl).mp hw
      exact ⟨g ++ (t ++ x), by simp, g, x, rfl, hx⟩
    · rintro ⟨_, rfl, g, x, rfl, hx⟩
      exact ⟨g, _, by simp, s, _, rfl, rfl, (ihq _ rfl).mpr ⟨x, rfl, hx⟩⟩
  · have hsplit := List.splitOn_eq_singleton hp
    simp only [hsplit, List.getLast_singleton, List.dropLast_singleton, InOrder, and_true]
    rw [wildcard_eq_literal hp]
    simp only [Matches, matches_literal]
    constructor
    · rintro ⟨u, w, rfl, rfl⟩
      exact ⟨u, rfl⟩
    · rintro ⟨x, rfl⟩
      exact ⟨x, p, rfl, rfl⟩

/-- **The language of a pattern through its segments.** A pattern with a star stands for the
strings that begin with its first segment, end with its last and hold the others in order
between the two. -/
theorem matches_wildcard_append_cons {star : α} {s : List α} (hs : star ∉ s) (p v : List α) :
    Matches (wildcard star (s ++ star :: p)) v ↔
      ∃ x, v = s ++ (x ++ (p.splitOn star).getLast (List.splitOn_ne_nil star p)) ∧
        InOrder (p.splitOn star).dropLast x := by
  rw [wildcard_append, wildcard_eq_literal hs, wildcard_cons_star, matches_append]
  simp only [matches_literal, matches_star_wildcard]
  constructor
  · rintro ⟨_, _, rfl, rfl, x, rfl, hx⟩
    exact ⟨x, rfl, hx⟩
  · rintro ⟨x, rfl, hx⟩
    exact ⟨s, _, rfl, rfl, x, rfl, hx⟩

/-- The last segment of a pattern after a star is what follows its last star. -/
theorem exists_append_getLast_splitOn (star : α) (p : List α) :
    ∃ q, star :: p = q ++ star :: (p.splitOn star).getLast (List.splitOn_ne_nil star p) ∧
      star ∉ (p.splitOn star).getLast (List.splitOn_ne_nil star p) := by
  induction hn : p.length using Nat.strongRecOn generalizing p with
  | ind n ih =>
  by_cases hp : star ∈ p
  · obtain ⟨s, r, rfl, hs⟩ := List.eq_append_cons_of_mem hp
    obtain ⟨q, hq, hmem⟩ := ih r.length (by rw [← hn]; simp; omega) r rfl
    have hsplit := List.splitOn_append_cons_self_of_not_mem hs r
    simp only [hsplit, List.getLast_cons (List.splitOn_ne_nil star r)]
    exact ⟨star :: s ++ q, by rw [List.append_assoc, ← hq]; simp, hmem⟩
  · simp only [List.splitOn_eq_singleton hp, List.getLast_singleton]
    exact ⟨[], rfl, hp⟩

end Glob
