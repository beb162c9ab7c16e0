import Mathlib.Data.Nat.Notation
import Mathlib.Tactic.SplitIfs

/-!
# UTF-8

`encode` writes a text as bytes. `decode` reads bytes as text and never fails: a sequence that is no
character, up to the first byte that rules it out, is read as one replacement character, and reading
goes on with that byte. What was encoded is read back as it was (`decode_encode`).
-/

namespace Utf8

/-! ## Encoding -/

/-- The bytes of a character. -/
def encodeChar (c : Char) : List UInt8 :=
  let n := c.toNat
  if n < 0x80 then [.ofNat n]
  else if n < 0x800 then [.ofNat (0xC0 + n / 64), .ofNat (0x80 + n % 64)]
  else if n < 0x10000 then
    [.ofNat (0xE0 + n / 4096), .ofNat (0x80 + n / 64 % 64), .ofNat (0x80 + n % 64)]
  else
    [.ofNat (0xF0 + n / 262144), .ofNat (0x80 + n / 4096 % 64), .ofNat (0x80 + n / 64 % 64),
      .ofNat (0x80 + n % 64)]

/-- The bytes of a text. -/
def encode (s : String) : List UInt8 := s.toList.flatMap encodeChar

/-! ## Decoding -/

/-- A character whose first bytes have been read: its number so far, the least and the greatest next
byte, and how many bytes it owes after that one. -/
structure Pending where
  code : ℕ
  low : ℕ
  high : ℕ
  owed : ℕ

/-- What is read where no character can be. -/
def replacement : Char := '\uFFFD'

/-- The least byte that may follow a lead byte. -/
def lowAfter (lead : ℕ) : ℕ := if lead = 0xE0 then 0xA0 else if lead = 0xF0 then 0x90 else 0x80

/-- The greatest byte that may follow a lead byte. -/
def highAfter (lead : ℕ) : ℕ := if lead = 0xED then 0x9F else if lead = 0xF4 then 0x8F else 0xBF

/-- The first byte of a character: what is read, and what is pending. -/
def first (b : ℕ) : List Char × Option Pending :=
  if b < 0x80 then ([Char.ofNat b], none)
  else if 0xC2 ≤ b ∧ b < 0xE0 then ([], some ⟨b % 32, lowAfter b, highAfter b, 0⟩)
  else if 0xE0 ≤ b ∧ b < 0xF0 then ([], some ⟨b % 16, lowAfter b, highAfter b, 1⟩)
  else if 0xF0 ≤ b ∧ b < 0xF5 then ([], some ⟨b % 8, lowAfter b, highAfter b, 2⟩)
  else ([replacement], none)

/-- A byte after the first one. -/
def next (p : Pending) (b : ℕ) : List Char × Option Pending :=
  if p.low ≤ b ∧ b ≤ p.high then
    match p.owed with
    | 0 => ([Char.ofNat (p.code * 64 + b % 64)], none)
    | owed + 1 => ([], some ⟨p.code * 64 + b % 64, 0x80, 0xBF, owed⟩)
  else (replacement :: (first b).1, (first b).2)

/-- Read bytes, a character being pending or not. -/
def decodeFrom : Option Pending → List UInt8 → List Char
  | none, [] => []
  | some _, [] => [replacement]
  | none, b :: bs => (first b.toNat).1 ++ decodeFrom (first b.toNat).2 bs
  | some p, b :: bs => (next p b.toNat).1 ++ decodeFrom (next p b.toNat).2 bs

/-- The text the bytes stand for. -/
def decode (bs : List UInt8) : String := String.ofList (decodeFrom none bs)

/-! ## The round trip -/

theorem toNat_byte {n : ℕ} (h : n < 256) : (UInt8.ofNat n).toNat = n := by
  rw [UInt8.toNat_ofNat']
  exact Nat.mod_eq_of_lt h

/-- A byte that a pending character may go on with. -/
theorem next_of_mem {p : Pending} {b : ℕ} (hlow : p.low ≤ b) (hhigh : b ≤ p.high) :
    next p b = match p.owed with
      | 0 => ([Char.ofNat (p.code * 64 + b % 64)], none)
      | owed + 1 => ([], some ⟨p.code * 64 + b % 64, 0x80, 0xBF, owed⟩) :=
  if_pos ⟨hlow, hhigh⟩

/-- The last byte of a character. -/
theorem decodeFrom_tail {code low high n : ℕ} (hlow : low ≤ 0x80 + n % 64)
    (hhigh : 0x80 + n % 64 ≤ high) (hcode : code = n / 64) (bs : List UInt8) :
    decodeFrom (some ⟨code, low, high, 0⟩) (.ofNat (0x80 + n % 64) :: bs) =
      Char.ofNat n :: decodeFrom none bs := by
  rw [decodeFrom, toNat_byte (by omega), next_of_mem hlow hhigh]
  have hn : code * 64 + (0x80 + n % 64) % 64 = n := by omega
  simp only [hn, List.cons_append, List.nil_append]

/-- A byte in the middle of a character. -/
theorem decodeFrom_middle {code low high owed n : ℕ} (hlow : low ≤ 0x80 + n % 64)
    (hhigh : 0x80 + n % 64 ≤ high) (hcode : code = n / 64) (bs : List UInt8) :
    decodeFrom (some ⟨code, low, high, owed + 1⟩) (.ofNat (0x80 + n % 64) :: bs) =
      decodeFrom (some ⟨n, 0x80, 0xBF, owed⟩) bs := by
  rw [decodeFrom, toNat_byte (by omega), next_of_mem hlow hhigh]
  have hn : code * 64 + (0x80 + n % 64) % 64 = n := by omega
  simp only [hn, List.nil_append]

/-- A first byte. -/
theorem decodeFrom_first {b : ℕ} (hb : b < 256) (bs : List UInt8) :
    decodeFrom none (.ofNat b :: bs) = (first b).1 ++ decodeFrom (first b).2 bs := by
  rw [decodeFrom, toNat_byte hb]

/-- A byte may follow a lead byte if it is no less than the lead byte asks for. -/
theorem lowAfter_le {lead b : ℕ} (h : 0x80 ≤ b) (hE0 : lead = 0xE0 → 0xA0 ≤ b)
    (hF0 : lead = 0xF0 → 0x90 ≤ b) : lowAfter lead ≤ b := by
  unfold lowAfter
  split_ifs <;> omega

theorem le_highAfter {lead b : ℕ} (h : b ≤ 0xBF) (hED : lead = 0xED → b ≤ 0x9F)
    (hF4 : lead = 0xF4 → b ≤ 0x8F) : b ≤ highAfter lead := by
  unfold highAfter
  split_ifs <;> omega

theorem decodeFrom_one {n : ℕ} (h : n < 0x80) (bs : List UInt8) :
    decodeFrom none (.ofNat n :: bs) = Char.ofNat n :: decodeFrom none bs := by
  rw [decodeFrom_first (by omega), first, if_pos h]
  rfl

theorem decodeFrom_two {n : ℕ} (hlow : 0x80 ≤ n) (hhigh : n < 0x800) (bs : List UInt8) :
    decodeFrom none (.ofNat (0xC0 + n / 64) :: .ofNat (0x80 + n % 64) :: bs) =
      Char.ofNat n :: decodeFrom none bs := by
  rw [decodeFrom_first (by omega), first, if_neg (by omega), if_pos (by omega), List.nil_append,
    decodeFrom_tail (n := n)]
  · exact lowAfter_le (by omega) (by omega) (by omega)
  · exact le_highAfter (by omega) (by omega) (by omega)
  · omega

/-- The last two bytes of a character. -/
theorem decodeFrom_middle_tail {code low high n : ℕ} (hlow : low ≤ 0x80 + n / 64 % 64)
    (hhigh : 0x80 + n / 64 % 64 ≤ high) (hcode : code = n / 4096) (bs : List UInt8) :
    decodeFrom (some ⟨code, low, high, 1⟩)
      (.ofNat (0x80 + n / 64 % 64) :: .ofNat (0x80 + n % 64) :: bs) =
      Char.ofNat n :: decodeFrom none bs := by
  rw [decodeFrom_middle hlow hhigh (by omega), decodeFrom_tail (by omega) (by omega) rfl]

theorem decodeFrom_three {n : ℕ} (hlow : 0x800 ≤ n) (hhigh : n < 0x10000)
    (hvalid : n < 0xD800 ∨ 0xDFFF < n) (bs : List UInt8) :
    decodeFrom none (.ofNat (0xE0 + n / 4096) :: .ofNat (0x80 + n / 64 % 64) ::
      .ofNat (0x80 + n % 64) :: bs) = Char.ofNat n :: decodeFrom none bs := by
  rw [decodeFrom_first (by omega), first, if_neg (by omega), if_neg (by omega), if_pos (by omega),
    List.nil_append, decodeFrom_middle_tail]
  · exact lowAfter_le (by omega) (by omega) (by omega)
  · exact le_highAfter (by omega) (by omega) (by omega)
  · omega

theorem decodeFrom_four {n : ℕ} (hlow : 0x10000 ≤ n) (hhigh : n < 0x110000) (bs : List UInt8) :
    decodeFrom none (.ofNat (0xF0 + n / 262144) :: .ofNat (0x80 + n / 4096 % 64) ::
      .ofNat (0x80 + n / 64 % 64) :: .ofNat (0x80 + n % 64) :: bs) =
      Char.ofNat n :: decodeFrom none bs := by
  rw [decodeFrom_first (by omega), first, if_neg (by omega), if_neg (by omega), if_neg (by omega),
    if_pos (by omega), List.nil_append, decodeFrom_middle (n := n / 4096),
    decodeFrom_middle_tail (by omega) (by omega) rfl]
  · exact lowAfter_le (by omega) (by omega) (by omega)
  · exact le_highAfter (by omega) (by omega) (by omega)
  · omega

/-- The bytes of a character are read as that character. -/
theorem decodeFrom_encodeChar (c : Char) (bs : List UInt8) :
    decodeFrom none (encodeChar c ++ bs) = c :: decodeFrom none bs := by
  have hvalid : c.toNat < 0xD800 ∨ 0xDFFF < c.toNat ∧ c.toNat < 0x110000 := c.valid
  have hofNat : Char.ofNat c.toNat = c := Char.ofNat_toNat c
  simp only [encodeChar]
  split
  · rw [List.singleton_append, decodeFrom_one (by omega), hofNat]
  split
  · rw [List.cons_append, List.singleton_append, decodeFrom_two (by omega) (by omega), hofNat]
  split
  · rw [List.cons_append, List.cons_append, List.singleton_append,
      decodeFrom_three (by omega) (by omega) (by omega), hofNat]
  · rw [List.cons_append, List.cons_append, List.cons_append, List.singleton_append,
      decodeFrom_four (by omega) (by omega), hofNat]

/-- **What was encoded is read back.** -/
theorem decode_encode (s : String) : decode (encode s) = s := by
  have h : ∀ l : List Char, decodeFrom none (l.flatMap encodeChar) = l := by
    intro l
    induction l with
    | nil => rfl
    | cons c l ih => rw [List.flatMap_cons, decodeFrom_encodeChar, ih]
  rw [decode, encode, h, String.ofList_toList]

end Utf8
