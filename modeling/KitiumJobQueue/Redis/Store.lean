import KitiumJobQueue.Foundations.Glob
import Mathlib.Data.List.AList

/-!
# A Redis database

The part of Redis that the managers use: string keys with an optional expiry, `SET`, `GET`, `DEL`
and `KEYS`. A key is gone once its deadline is reached. `KEYS` takes a glob pattern, read here as
Redis reads it (`glob`): a star for any string, a question mark for any letter, a bracket class, a
backslash before a letter that stands for itself. The order in which `KEYS` answers is Redis' own,
hence a parameter (`Scan`).
-/

namespace KitiumJobQueue.Redis

open Glob

/-! ## Glob patterns -/

/-- `x` lies between the two ends of a range, whichever of them comes first. -/
def between (a b x : Char) : Bool := (a ≤ x && x ≤ b) || (b ≤ x && x ≤ a)

/-- The tokens of a glob pattern. The first argument is the bracket class being read, if any:
whether it is negated, and the letters it holds so far. -/
def globTokens : Option (Bool × (Char → Bool)) → List Char → List (Tok Char)
  | none, [] => []
  | none, '*' :: rest => .star :: globTokens none rest
  | none, '?' :: rest => .one (fun _ => true) :: globTokens none rest
  | none, '[' :: '^' :: rest => globTokens (some (true, fun _ => false)) rest
  | none, '[' :: rest => globTokens (some (false, fun _ => false)) rest
  | none, '\\' :: c :: rest => .one (decide <| · = c) :: globTokens none rest
  | none, c :: rest => .one (decide <| · = c) :: globTokens none rest
  | some (negated, p), [] => [.one fun x => p x != negated]
  | some (negated, p), '\\' :: c :: rest =>
    globTokens (some (negated, fun x => p x || decide (x = c))) rest
  | some (negated, p), ']' :: rest => .one (fun x => p x != negated) :: globTokens none rest
  | some (negated, p), a :: '-' :: b :: rest =>
    globTokens (some (negated, fun x => p x || between a b x)) rest
  | some (negated, p), c :: rest =>
    globTokens (some (negated, fun x => p x || decide (x = c))) rest

/-- The pattern a string is to `KEYS`. -/
def glob (pattern : String) : List (Tok Char) := globTokens none pattern.toList

/-- `KEYS pattern` answers `key`. -/
def KeyMatches (pattern key : String) : Prop := Matches (glob pattern) key.toList

instance (pattern key : String) : Decidable (KeyMatches pattern key) :=
  inferInstanceAs (Decidable (Matches _ _))

/-- The letters that do not stand for themselves in a glob pattern. -/
def IsMeta (c : Char) : Prop := c = '*' ∨ c = '?' ∨ c = '[' ∨ c = '\\'

instance : DecidablePred IsMeta := fun c =>
  inferInstanceAs (Decidable (c = '*' ∨ c = '?' ∨ c = '[' ∨ c = '\\'))

/-- A text is checked letter by letter. -/
theorem not_isMeta_of_all {text : String} (h : text.toList.all (fun c => ¬ IsMeta c) = true) :
    ∀ c ∈ text.toList, ¬ IsMeta c := by
  simpa using h

theorem globTokens_append {l : List Char} (h : ∀ c ∈ l, ¬ IsMeta c) (rest : List Char) :
    globTokens none (l ++ rest) = literal l ++ globTokens none rest := by
  induction l with
  | nil => rfl
  | cons c l ih =>
    have hc := h c List.mem_cons_self
    simp only [IsMeta, not_or] at hc
    rw [List.cons_append, globTokens, ih fun d hd => h d (List.mem_cons_of_mem c hd)]
    · rfl
    all_goals simp_all

/-- Plain text and a star at the end stand for the keys that begin with the text. -/
theorem keyMatches_append_star {text : String} (h : ∀ c ∈ text.toList, ¬ IsMeta c) (key : String) :
    KeyMatches (text ++ "*") key ↔ text.toList <+: key.toList := by
  unfold KeyMatches glob
  rw [String.toList_append, globTokens_append h]
  exact matches_literal_star text.toList key.toList

/-! ## The database -/

/-- A stored value and the time at which it expires. -/
structure Entry (V : Type) where
  value : V
  expiresAt : Option ℕ

/-- The entry has not expired. -/
def Entry.IsLive {V : Type} (e : Entry V) (now : ℕ) : Prop := ∀ t ∈ e.expiresAt, now < t

instance {V : Type} (e : Entry V) (now : ℕ) : Decidable (e.IsLive now) :=
  match h : e.expiresAt with
  | none => .isTrue (by simp [Entry.IsLive, h])
  | some t => decidable_of_iff (now < t) (by simp [Entry.IsLive, h])

/-- A database of string keys. -/
structure Store (V : Type) where
  entries : AList fun _ : String => Entry V

namespace Store

variable {V : Type}

/-- What is stored under a key, expired or not. -/
def lookup (s : Store V) (key : String) : Option (Entry V) := s.entries.lookup key

/-- `GET` -/
def get (s : Store V) (now : ℕ) (key : String) : Option V :=
  ((s.lookup key).filter fun e => e.IsLive now).map Entry.value

/-- `SET`, with the time at which the entry expires. -/
def set (s : Store V) (key : String) (value : V) (expiresAt : Option ℕ) : Store V :=
  ⟨s.entries.insert key ⟨value, expiresAt⟩⟩

/-- `DEL` -/
def del (s : Store V) (key : String) : Store V := ⟨s.entries.erase key⟩

/-- The empty database. -/
def empty : Store V := ⟨∅⟩

@[simp] theorem lookup_empty (key : String) : (empty : Store V).lookup key = none := rfl

theorem lookup_set (s : Store V) (key k : String) (value : V) (t : Option ℕ) :
    (s.set key value t).lookup k = if k = key then some ⟨value, t⟩ else s.lookup k := by
  unfold lookup set
  split
  case isTrue h => rw [h, AList.lookup_insert]
  case isFalse h => exact AList.lookup_insert_ne h

theorem lookup_del (s : Store V) (key k : String) :
    (s.del key).lookup k = if k = key then none else s.lookup k := by
  unfold lookup del
  split
  case isTrue h => rw [h, AList.lookup_erase]
  case isFalse h => exact AList.lookup_erase_ne h

theorem mem_entries {s : Store V} {key : String} {e : Entry V} :
    ⟨key, e⟩ ∈ s.entries.entries ↔ s.lookup key = some e :=
  AList.mem_lookup_iff.symm

theorem get_eq_some {s : Store V} {now : ℕ} {key : String} {value : V} :
    s.get now key = some value ↔ ∃ e, s.lookup key = some e ∧ e.IsLive now ∧ e.value = value := by
  simp [get, Option.filter_eq_some_iff, and_assoc]

theorem get_congr {s s' : Store V} {key : String} (h : s.lookup key = s'.lookup key) (now : ℕ) :
    s.get now key = s'.get now key := by
  rw [get, get, h]

end Store

/-- The order in which `KEYS` goes through a database. -/
structure Scan (V : Type) where
  order : Store V → List String
  perm : ∀ s, (order s).Perm s.entries.keys

/-- The order in which the keys lie in the database. -/
def Scan.stored {V : Type} : Scan V := ⟨fun s => s.entries.keys, fun _ => .refl _⟩

namespace Store

variable {V : Type} (scan : Scan V)

/-- `KEYS` -/
def keys (s : Store V) (now : ℕ) (pattern : String) : List String :=
  (scan.order s).filter fun k => (s.get now k).isSome ∧ KeyMatches pattern k

variable {scan}

theorem mem_order {s : Store V} {k : String} : k ∈ scan.order s ↔ (s.lookup k).isSome := by
  rw [(scan.perm s).mem_iff, lookup, AList.lookup_isSome]
  rfl

theorem mem_keys {s : Store V} {now : ℕ} {pattern k : String} :
    k ∈ s.keys scan now pattern ↔ (s.get now k).isSome ∧ KeyMatches pattern k := by
  simp only [keys, List.mem_filter, decide_eq_true_eq, mem_order, and_iff_right_iff_imp]
  rintro ⟨h, -⟩
  unfold get at h
  cases hk : s.lookup k with
  | none => simp [hk] at h
  | some e => rfl

theorem nodup_keys (s : Store V) (now : ℕ) (pattern : String) :
    (s.keys scan now pattern).Nodup :=
  ((scan.perm s).nodup_iff.mpr s.entries.nodupKeys).filter _

/-- Two databases that agree on the keys a pattern matches give the same answer to `KEYS`, up to
its order. -/
theorem keys_perm {s s' : Store V} {pattern : String}
    (h : ∀ k, KeyMatches pattern k → s.lookup k = s'.lookup k) (now : ℕ) :
    (s.keys scan now pattern).Perm (s'.keys scan now pattern) := by
  refine (List.perm_ext_iff_of_nodup (nodup_keys s now pattern) (nodup_keys s' now pattern)).mpr
    fun k => ?_
  rw [mem_keys, mem_keys]
  refine and_congr_left fun hk => ?_
  rw [get_congr (h k hk)]

end Store

end KitiumJobQueue.Redis
