import Mathlib.Data.Nat.Notation

/-!
# Base64

`encode` writes bytes in the standard alphabet, with padding. `decode` reads both that alphabet and
the one for URLs, ends at the first `=`, and skips all letters that belong to neither. What was
encoded is read back as it was (`decode_encode`).
-/

namespace Base64

/-! ## Letters -/

/-- The letter for a number below 64. -/
def letter (n : ℕ) : Char :=
  if n < 26 then Char.ofNat (n + 65)
  else if n < 52 then Char.ofNat (n + 71)
  else if n < 62 then Char.ofNat (n - 4)
  else if n = 62 then '+'
  else '/'

/-- The number of a letter. -/
def sextet? (c : Char) : Option ℕ :=
  if 'A' ≤ c ∧ c ≤ 'Z' then some (c.toNat - 65)
  else if 'a' ≤ c ∧ c ≤ 'z' then some (c.toNat - 71)
  else if '0' ≤ c ∧ c ≤ '9' then some (c.toNat + 4)
  else if c = '+' ∨ c = '-' then some 62
  else if c = '/' ∨ c = '_' then some 63
  else none

theorem sextet?_letter {n : ℕ} (h : n < 64) : sextet? (letter n) = some n := by
  revert n
  decide

theorem letter_ne_pad {n : ℕ} (h : n < 64) : letter n ≠ '=' := by
  revert n
  decide

/-! ## Groups of three bytes and of four letters -/

/-- The numbers of the letters that stand for the bytes. -/
def sextets : List UInt8 → List ℕ
  | a :: b :: c :: rest =>
    a.toNat / 4 :: (a.toNat % 4 * 16 + b.toNat / 16) :: (b.toNat % 16 * 4 + c.toNat / 64) ::
      c.toNat % 64 :: sextets rest
  | [a, b] => [a.toNat / 4, a.toNat % 4 * 16 + b.toNat / 16, b.toNat % 16 * 4]
  | [a] => [a.toNat / 4, a.toNat % 4 * 16]
  | [] => []

/-- The bytes that a list of numbers below 64 stands for; bits that make no byte are dropped. -/
def octets : List ℕ → List UInt8
  | p :: q :: r :: s :: rest =>
    .ofNat (p * 4 + q / 16) :: .ofNat (q % 16 * 16 + r / 4) :: .ofNat (r % 4 * 64 + s) ::
      octets rest
  | [p, q, r] => [.ofNat (p * 4 + q / 16), .ofNat (q % 16 * 16 + r / 4)]
  | [p, q] => [.ofNat (p * 4 + q / 16)]
  | [_] | [] => []

/-- A byte put together from its parts. -/
theorem ofNat_eq {a : UInt8} {n : ℕ} (h : n = a.toNat) : UInt8.ofNat n = a := by
  rw [h, UInt8.ofNat_toNat]

theorem octets_sextets (bs : List UInt8) : octets (sextets bs) = bs := by
  induction bs using sextets.induct with
  | case1 a b c rest ih =>
    have ha := a.toNat_lt
    have hb := b.toNat_lt
    have hc := c.toNat_lt
    rw [sextets, octets, ih, ofNat_eq (a := a), ofNat_eq (a := b), ofNat_eq (a := c)] <;> omega
  | case2 a b =>
    have ha := a.toNat_lt
    have hb := b.toNat_lt
    rw [sextets, octets, ofNat_eq (a := a), ofNat_eq (a := b)] <;> omega
  | case3 a =>
    have ha := a.toNat_lt
    rw [sextets, octets, ofNat_eq (a := a)]
    omega
  | case4 => rfl

theorem lt_of_mem_sextets {bs : List UInt8} {n : ℕ} (h : n ∈ sextets bs) : n < 64 := by
  induction bs using sextets.induct with
  | case1 a b c rest ih =>
    have ha := a.toNat_lt
    have hb := b.toNat_lt
    have hc := c.toNat_lt
    simp only [sextets, List.mem_cons] at h
    rcases h with h | h | h | h | h
    · omega
    · omega
    · omega
    · omega
    · exact ih h
  | case2 a b =>
    have ha := a.toNat_lt
    have hb := b.toNat_lt
    simp only [sextets, List.mem_cons, List.not_mem_nil, or_false] at h
    omega
  | case3 a =>
    have ha := a.toNat_lt
    simp only [sextets, List.mem_cons, List.not_mem_nil, or_false] at h
    omega
  | case4 => simp [sextets] at h

/-! ## Texts -/

/-- How many `=` fill the last group. -/
def padding (bs : List UInt8) : ℕ := (3 - bs.length % 3) % 3

/-- The text that stands for the bytes. -/
def encode (bs : List UInt8) : String :=
  String.ofList ((sextets bs).map letter ++ List.replicate (padding bs) '=')

/-- The bytes a text stands for. -/
def decode (s : String) : List UInt8 :=
  octets ((s.toList.takeWhile (· ≠ '=')).filterMap sextet?)

/-- **What was encoded is read back.** -/
theorem decode_encode (bs : List UInt8) : decode (encode bs) = bs := by
  have hletters : ((sextets bs).map letter ++ List.replicate (padding bs) '=').takeWhile (· ≠ '=') =
      (sextets bs).map letter := by
    rw [List.takeWhile_append_of_pos, List.takeWhile_replicate_eq_filter]
    · simp
    · intro c hc
      obtain ⟨n, hn, rfl⟩ := List.mem_map.mp hc
      simpa using letter_ne_pad (lt_of_mem_sextets hn)
  have hsextets : ∀ l : List ℕ, (∀ n ∈ l, n < 64) → (l.map letter).filterMap sextet? = l := by
    intro l hl
    induction l with
    | nil => rfl
    | cons n l ih =>
      rw [List.map_cons, List.filterMap_cons_some (sextet?_letter (hl n List.mem_cons_self)),
        ih fun m hm => hl m (List.mem_cons_of_mem n hm)]
  rw [decode, encode, String.toList_ofList, hletters, hsextets _ fun _ => lt_of_mem_sextets,
    octets_sextets]

end Base64
