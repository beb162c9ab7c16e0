import Mathlib.Data.Rat.Defs

/-!
# JSON values

Values as they are after a trip through `JSON.stringify` and `JSON.parse`: no functions, no
`undefined`. `Json.ofFields` is what is left of an object literal, whose `undefined` properties the
trip drops.
-/

/-- A JSON value. -/
inductive Json where
  | null
  | bool (b : Bool)
  | num (q : ℚ)
  | str (s : String)
  | arr (xs : List Json)
  | obj (fields : List (String × Json))

namespace Json

mutual

/-- Equality of JSON values is decidable. -/
def decEq : (a b : Json) → Decidable (a = b)
  | .null, b => match b with
    | .null => isTrue rfl
    | .bool _ | .num _ | .str _ | .arr _ | .obj _ => isFalse nofun
  | .bool x, b => match b with
    | .bool y => decidable_of_iff (x = y) (by simp)
    | .null | .num _ | .str _ | .arr _ | .obj _ => isFalse nofun
  | .num x, b => match b with
    | .num y => decidable_of_iff (x = y) (by simp)
    | .null | .bool _ | .str _ | .arr _ | .obj _ => isFalse nofun
  | .str x, b => match b with
    | .str y => decidable_of_iff (x = y) (by simp)
    | .null | .bool _ | .num _ | .arr _ | .obj _ => isFalse nofun
  | .arr x, b => match b with
    | .arr y => match decEqList x y with
      | isTrue h => isTrue (by rw [h])
      | isFalse h => isFalse fun e => h (Json.arr.inj e)
    | .null | .bool _ | .num _ | .str _ | .obj _ => isFalse nofun
  | .obj x, b => match b with
    | .obj y => match decEqFields x y with
      | isTrue h => isTrue (by rw [h])
      | isFalse h => isFalse fun e => h (Json.obj.inj e)
    | .null | .bool _ | .num _ | .str _ | .arr _ => isFalse nofun

/-- Equality of lists of JSON values is decidable. -/
def decEqList : (a b : List Json) → Decidable (a = b)
  | [], [] => isTrue rfl
  | [], _ :: _ => isFalse nofun
  | _ :: _, [] => isFalse nofun
  | a :: as, b :: bs => match decEq a b, decEqList as bs with
    | isTrue h, isTrue h' => isTrue (by rw [h, h'])
    | isFalse h, _ => isFalse fun e => h (List.cons.inj e).1
    | _, isFalse h => isFalse fun e => h (List.cons.inj e).2

/-- Equality of lists of fields is decidable. -/
def decEqFields : (a b : List (String × Json)) → Decidable (a = b)
  | [], [] => isTrue rfl
  | [], _ :: _ => isFalse nofun
  | _ :: _, [] => isFalse nofun
  | (k, a) :: as, (l, b) :: bs =>
    match instDecidableEqString k l, decEq a b, decEqFields as bs with
    | isTrue h, isTrue h', isTrue h'' => isTrue (by rw [h, h', h''])
    | isFalse h, _, _ => isFalse fun e => h (Prod.mk.inj (List.cons.inj e).1).1
    | _, isFalse h, _ => isFalse fun e => h (Prod.mk.inj (List.cons.inj e).1).2
    | _, _, isFalse h => isFalse fun e => h (List.cons.inj e).2

end

instance : DecidableEq Json := decEq

/-- An object literal, its `undefined` properties dropped. -/
def ofFields (fields : List (String × Option Json)) : Json :=
  .obj (fields.filterMap fun f => f.2.map (f.1, ·))

/-- A property of an object, `none` if the value is no object or has no such property. -/
def get? : Json → String → Option Json
  | .obj fields, k => fields.lookup k
  | .null, _ | .bool _, _ | .num _, _ | .str _, _ | .arr _, _ => none

/-- What is read of an object literal is what was put into it. -/
theorem get?_ofFields {fields : List (String × Option Json)} (h : (fields.map Prod.fst).Nodup)
    (k : String) : (ofFields fields).get? k = (fields.lookup k).join := by
  unfold ofFields get?
  induction fields with
  | nil => rfl
  | cons f fields ih =>
    obtain ⟨name, v⟩ := f
    rw [List.map_cons, List.nodup_cons] at h
    by_cases hk : k = name
    · subst hk
      cases v with
      | some v => simp
      | none =>
        have hlookup : fields.lookup k = none := List.lookup_eq_none_iff.mpr fun f hf => by
          exact bne_iff_ne.mpr fun heq => h.1 (List.mem_map.mpr ⟨f, hf, heq.symm⟩)
        simpa [hlookup] using ih h.2
    · have hk' : (k == name) = false := beq_eq_false_iff_ne.mpr hk
      cases v with
      | some v => simpa [List.lookup_cons, hk'] using ih h.2
      | none => simpa [List.lookup_cons, hk'] using ih h.2

/-- A value inside an object is smaller than the object. -/
theorem sizeOf_lt_of_mem {fields : List (String × Json)} {k : String} {v : Json}
    (h : (k, v) ∈ fields) : sizeOf v < sizeOf (Json.obj fields) := by
  have h₁ := List.sizeOf_lt_of_mem h
  simp only [Prod.mk.sizeOf_spec] at h₁
  simp only [Json.obj.sizeOf_spec]
  omega

/-- A value put into an object literal is smaller than the object. -/
theorem sizeOf_lt_ofFields {fields : List (String × Option Json)} {k : String} {v : Json}
    (h : (k, some v) ∈ fields) : sizeOf v < sizeOf (ofFields fields) :=
  sizeOf_lt_of_mem (k := k) (List.mem_filterMap.mpr ⟨(k, some v), h, rfl⟩)

end Json
