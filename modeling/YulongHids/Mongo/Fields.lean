import YulongHids.Golang.Strings
import YulongHids.Mongo.Collection

/-!
# Fields of documents

The values of a document, and the update operators `$set`, `$addToSet` and `$pull` on a field that is
given by a dotted path. An update that the store refuses, because a component of the path is not a
field name, or the path leads through a value without fields, or the operator needs an array, is
`none`.
-/

namespace YulongHids.Mongo

open Golang

/-- A value of a document. -/
inductive Value where
  | null
  | bool (b : Bool)
  | int (n : ℤ)
  | string (s : GoString)
  | array (elems : List Value)
  | doc (fields : List (GoString × Value))

/-- The value is the string `s`. -/
def Value.isString (s : GoString) : Value → Bool
  | .string s' => s' == s
  | _ => false

/-- What an operator makes of the value at its path: a field may be missing, before and after. -/
abbrev FieldOp := Option Value → Option (Option Value)

/-- `$set`. -/
def setOp (v : Value) : FieldOp := fun _ => some (some v)

/-- `$addToSet` with a string. -/
def addToSetOp (s : GoString) : FieldOp
  | none => some (some (.array [.string s]))
  | some (.array elems) =>
    some (some (.array (if elems.any (·.isString s) then elems else elems ++ [.string s])))
  | some _ => none

/-- `$pull` of a string. -/
def pullOp (s : GoString) : FieldOp
  | none => some none
  | some (.array elems) => some (some (.array (elems.filter fun v => !v.isString s)))
  | some _ => none

/-- Set a field, behind the others if it is a new one. -/
def setField (k : GoString) (v : Value) : List (GoString × Value) → List (GoString × Value)
  | [] => [(k, v)]
  | (k', v') :: fields => if k' = k then (k, v) :: fields else (k', v') :: setField k v fields

/-- Set an element; an array that is too short is filled up with null. -/
def setElem (elems : List Value) (i : ℕ) (v : Value) : List Value :=
  (elems ++ List.replicate (i + 1 - elems.length) Value.null).set i v

/-- The index that a component of a path stands for. -/
def arrayIndex (k : GoString) : Option ℕ :=
  match parseUint k with
  | .error _ => none
  | .ok i => if itoa i = k then some i else none

/-- Apply an operator at a path. The values on the way are made where they are missing. -/
def updateAt (op : FieldOp) : List GoString → Option Value → Option (Option Value)
  | [], v => op v
  | k :: path, none => (updateAt op path none).map (Option.map fun v => .doc [(k, v)])
  | k :: path, some (.doc fields) =>
    (updateAt op path (fields.lookup k)).map fun v =>
      some (.doc (v.elim fields fun v => setField k v fields))
  | k :: path, some (.array elems) =>
    match arrayIndex k with
    | none => none
    | some i =>
      (updateAt op path elems[i]?).map fun v =>
        some (.array (v.elim elems fun v => setElem elems i v))
  | _ :: _, some _ => none

/-- The components of a path that the store accepts. -/
def fieldName (k : GoString) : Bool := k != [] && k.head? != some 36

/-- Apply an operator at a dotted path without zero bytes. -/
def updateField (op : FieldOp) (path : GoString) (v : Option Value) : Option (Option Value) :=
  if (split path 46).all fieldName then updateAt op (split path 46) v else none

/-- A field of a value, if the value is a document and has it. -/
def Value.field (v : Value) (k : GoString) : Option Value :=
  match v with
  | .doc fields => fields.lookup k
  | _ => none

section Lookup

variable {k k' : GoString} {v : Value} {fields : List (GoString × Value)}

theorem lookup_setField (k : GoString) (v : Value) (fields : List (GoString × Value)) :
    (setField k v fields).lookup k = some v := by
  induction fields with
  | nil => simp [setField]
  | cons p fields ih =>
    obtain ⟨k1, v1⟩ := p
    by_cases h : k1 = k
    · simp [setField, h]
    · have hne : (k == k1) = false := by simpa using Ne.symm h
      simp [setField, h, List.lookup_cons, hne, ih]

theorem lookup_setField_ne (hk : k' ≠ k) : (setField k v fields).lookup k' = fields.lookup k' := by
  have hkk : (k' == k) = false := by simpa using hk
  induction fields with
  | nil => simp [setField, List.lookup_cons, hkk]
  | cons p fields ih =>
    obtain ⟨k1, v1⟩ := p
    by_cases h : k1 = k
    · simp [setField, h, List.lookup_cons, hkk]
    · simp [setField, h, List.lookup_cons, ih]

end Lookup

section UpdateAt

variable {op : FieldOp} {k k' : GoString} {path : List GoString} {v : Value}
  {w : Option Value} {fields : List (GoString × Value)}

/-- An update of a document below the field `k` is an update of that field. -/
theorem updateAt_doc (h : updateAt op (k :: path) (some (.doc fields)) = some w) :
    ∃ fields' u, w = some (.doc fields') ∧ updateAt op path (fields.lookup k) = some u ∧
      fields'.lookup k = u.or (fields.lookup k) ∧ ∀ k' ≠ k, fields'.lookup k' = fields.lookup k' := by
  rw [updateAt, Option.map_eq_some_iff] at h
  obtain ⟨u, hu, rfl⟩ := h
  cases u with
  | none => exact ⟨fields, none, rfl, hu, by simp, fun _ _ => rfl⟩
  | some v =>
    exact ⟨setField k v fields, some v, rfl, hu, by simp [lookup_setField],
      fun k' hk => lookup_setField_ne hk⟩

theorem updateAt_array {elems : List Value}
    (h : updateAt op (k :: path) (some (.array elems)) = some w) :
    ∃ elems', w = some (.array elems') := by
  unfold updateAt at h
  cases hi : arrayIndex k with
  | none => rw [hi] at h; cases h
  | some i =>
    rw [hi] at h
    obtain ⟨u, -, rfl⟩ := Option.map_eq_some_iff.mp h
    exact ⟨_, rfl⟩

/-- A value that an update leaves behind was made by the operator, or has fields or elements. -/
theorem updateAt_made {P : Value → Prop} (hdoc : ∀ fields, P (.doc fields))
    (harray : ∀ elems, P (.array elems)) (hop : ∀ v u, op v = some (some u) → P u) {u : Value}
    (h : updateAt op path w = some (some u)) : P u := by
  cases path with
  | nil => exact hop w u h
  | cons k path =>
    cases w with
    | none =>
      obtain ⟨u', -, hu'⟩ := Option.map_eq_some_iff.mp h
      obtain ⟨v, -, rfl⟩ := Option.map_eq_some_iff.mp hu'
      exact hdoc _
    | some v =>
      cases v with
      | doc fields =>
        obtain ⟨fields', _, hu, _⟩ := updateAt_doc h
        exact Option.some.inj hu ▸ hdoc fields'
      | array elems =>
        obtain ⟨elems', hu⟩ := updateAt_array h
        exact Option.some.inj hu ▸ harray elems'
      | _ => cases h

/-- An operator that removes no value removes none at the end of a path. -/
theorem updateAt_present (hop : ∀ v u, op (some v) = some u → u.isSome)
    (h : updateAt op path (some v) = some w) : w.isSome := by
  cases path with
  | nil => exact hop v w h
  | cons k path =>
    cases v with
    | doc fields =>
      obtain ⟨fields', _, rfl, _⟩ := updateAt_doc h
      rfl
    | array elems =>
      obtain ⟨elems', rfl⟩ := updateAt_array h
      rfl
    | _ => cases h

/-- At a missing value, what an operator does is done at the end of the path. -/
theorem updateAt_missing (path : List GoString) (u : Option Value) (hop : op none = some u) :
    ∃ u', updateAt op path none = some u' ∧ (u'.isSome ↔ u.isSome) := by
  induction path with
  | nil => exact ⟨u, hop, Iff.rfl⟩
  | cons k path ih =>
    obtain ⟨u', hu', hiff⟩ := ih
    refine ⟨u'.map fun v => .doc [(k, v)], ?_, ?_⟩
    · rw [updateAt, hu', Option.map_some]
    · rw [Option.isSome_map, hiff]

end UpdateAt

end YulongHids.Mongo
