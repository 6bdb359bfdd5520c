import YulongHids.Mongo.Fields
import YulongHids.Mongo.ObjectId

/-!
# The configuration of the console

`Config` (`web/models/config.go`) with its updates by id, and the handlers of `ConfigController`
(`web/controllers/config.go`).
-/

namespace YulongHids.Web

open Golang Mongo

/-- `Config`, a document of the `config` collection; `dic` may be missing. -/
structure Config where
  id : ObjectId
  type : GoString
  dic : Option Value

abbrev Configs := Collection Config

/-- `Config.FindOne` with a type: a `Config{}` if there is none. -/
def Configs.findOne (c : Configs) (type : GoString) : Config :=
  (one c (·.type == type)).getD ⟨[], [], none⟩

/-- `ConfigTypeMap`. -/
def configTypeMap : List (GoString × List GoString) := [
  (str "bool", ["udp", "lan", "learn", "switch", "onlyhigh", "offlinecheck"].map str),
  (str "int", ["cycle"].map str)]

/-- `ValueInListMap`. -/
def valueInListMap (key : GoString) (m : List (GoString × List GoString)) : GoString :=
  ((m.find? fun p => p.2.contains key).map Prod.fst).getD []

/-- `strconv.ParseBool`, `false` for an error. -/
def parseBool (s : GoString) : Bool := (["1", "t", "T", "true", "TRUE", "True"].map str).contains s

/-- `KeyType`. -/
def keyType (key value : GoString) : Value :=
  let typestr := valueInListMap key configTypeMap
  if typestr = str "int" then .int (atoi value).1
  else if typestr = str "bool" then .bool (parseBool value)
  else .string value

/-- `strings.Trim(value, " ") == ""`. -/
def blank (value : GoString) : Bool := value.all (· == 32)

/-- `UpdateId` with an operator on `dic.key`, for a key without zero bytes, with `false` for an
error. -/
def Configs.updateDic (c : Configs) (mid : ObjectId) (key : GoString) (op : FieldOp) :
    Configs × Bool :=
  match one c (·.id == mid) with
  | none => (c, false)
  | some d =>
    match updateField op key d.dic with
    | none => (c, false)
    | some dic => (update c (·.id == mid) fun d => { d with dic := dic }, true)

/-- The frame of the three updates: `none` for the panic of `ObjectIdHex`. -/
def Configs.changeOne (op : FieldOp) (c : Configs) (id key value : GoString) :
    Option (Configs × Bool) :=
  if blank value then some (c, false)
  else (objectIdHex id).map fun mid => c.updateDic mid key op

/-- The three updates for a key with a zero byte. The driver writes a path as a C string and does not
look for zero bytes in it, so that the store reads what is behind the first one as further elements.
`raw` is the document that it makes of the one with the id, `none` if it refuses the update; an id
does not change. -/
def Configs.changeRaw (raw : Config → Option Config) (c : Configs) (id value : GoString) :
    Option (Configs × Bool) :=
  if blank value then some (c, false)
  else (objectIdHex id).map fun mid =>
    match (one c (·.id == mid)).bind raw with
    | none => (c, false)
    | some d => (update c (·.id == mid) fun old => { d with id := old.id }, true)

/-- `EditByID`. -/
def Configs.editByID (c : Configs) (id key value : GoString) : Option (Configs × Bool) :=
  c.changeOne (setOp (keyType key value)) id key value

/-- `DelOne`. -/
def Configs.delOne (c : Configs) (id key value : GoString) : Option (Configs × Bool) :=
  c.changeOne (pullOp value) id key value

/-- `AddOne`. -/
def Configs.addOne (c : Configs) (id key value : GoString) : Option (Configs × Bool) :=
  c.changeOne (addToSetOp value) id key value

/-! ## `ConfigController` -/

structure EditCfgForm where
  id : GoString
  key : GoString
  input : GoString
  deriving DecidableEq

/-- What `json.Unmarshal` makes of a body: the form, which it fills as far as it gets, and whether it
reports an error. -/
structure Body where
  form : EditCfgForm
  failed : Bool
  /-- What the store makes of a document if the key has a zero byte. -/
  raw : Config → Option Config := fun _ => none

/-- The answer of a handler. -/
inductive Reply where
  | editCfgFailure
  | status (res : Bool)
  deriving DecidableEq

/-- The change that a form asks for, of the document `id`. -/
def Body.change (b : Body) (c : Configs) (id : GoString)
    (change : EditCfgForm → Option (Configs × Bool)) : Option (Configs × Bool) :=
  if b.form.key.contains 0 then c.changeRaw b.raw id b.form.input else change b.form

/-- The frame of the three handlers: the collection and the answer, `none` for a panic. -/
def Body.handle (b : Body) (c : Configs) (id : GoString)
    (change : EditCfgForm → Option (Configs × Bool)) : Option (Configs × Reply) :=
  if b.failed then some (c, .editCfgFailure)
  else (b.change c id change).map fun p => (p.1, .status p.2)

/-- `ConfigController.Edit`. -/
def configEdit (c : Configs) (b : Body) : Option (Configs × Reply) :=
  b.handle c b.form.id fun j => c.editByID j.id j.key j.input

/-- `ConfigController.Del`. -/
def configDel (c : Configs) (b : Body) : Option (Configs × Reply) :=
  b.handle c b.form.id fun j => c.delOne j.id j.key j.input

/-- The tags for the two lists that `Add` supports. -/
def listID (c : Configs) (id : GoString) : GoString :=
  if id = str "blacklist" ∨ id = str "whitelist" then hexEncode (c.findOne id).id else id

/-- `ConfigController.Add`. -/
def configAdd (c : Configs) (b : Body) : Option (Configs × Reply) :=
  b.handle c (listID c b.form.id) fun j => c.addOne (listID c j.id) j.key j.input

/-- The collection of a handler that may have panicked. -/
def afterHandler (c : Configs) (r : Option (Configs × Reply)) : Configs := (r.map Prod.fst).getD c

section Update

variable {c c' : Configs} {mid : ObjectId} {key id value : GoString} {op : FieldOp} {res : Bool}

/-- What an update of one document does: nothing, or it changes the `dic` of the first document with
the id. -/
theorem Configs.updateDic_cases (h : c.updateDic mid key op = (c', res)) :
    (c' = c ∧ res = false) ∨ ∃ d dic, one c (·.id == mid) = some d ∧
      updateField op key d.dic = some dic ∧ res = true ∧
      c' = update c (·.id == mid) fun d => { d with dic := dic } := by
  unfold updateDic at h
  cases hd : one c (·.id == mid) with
  | none =>
    rw [hd, Prod.mk.injEq] at h
    exact Or.inl ⟨h.1.symm, h.2.symm⟩
  | some d =>
    simp only [hd] at h
    cases hdic : updateField op key d.dic with
    | none =>
      rw [hdic, Prod.mk.injEq] at h
      exact Or.inl ⟨h.1.symm, h.2.symm⟩
    | some dic =>
      rw [hdic, Prod.mk.injEq] at h
      exact Or.inr ⟨d, dic, rfl, hdic, h.2.symm, h.1.symm⟩

/-- An accepted change is one update of the document with the id in the form. -/
theorem Configs.changeOne_cases (h : c.changeOne op id key value = some (c', res)) :
    (c' = c ∧ res = false) ∨ ∃ mid, blank value = false ∧ objectIdHex id = some mid ∧
      c.updateDic mid key op = (c', res) := by
  unfold changeOne at h
  split at h
  · rw [Option.some.injEq, Prod.mk.injEq] at h
    exact Or.inl ⟨h.1.symm, h.2.symm⟩
  · next hblank =>
    obtain ⟨mid, hmid, hup⟩ := Option.map_eq_some_iff.mp h
    exact Or.inr ⟨mid, by simpa using hblank, hmid, hup⟩

/-- An accepted update with a zero byte in its key replaces the document with the id, too. -/
theorem Configs.changeRaw_cases {raw : Config → Option Config}
    (h : c.changeRaw raw id value = some (c', res)) :
    (c' = c ∧ res = false) ∨ ∃ mid d d', blank value = false ∧ objectIdHex id = some mid ∧
      one c (·.id == mid) = some d ∧ raw d = some d' ∧ res = true ∧
      c' = update c (·.id == mid) fun old => { d' with id := old.id } := by
  unfold changeRaw at h
  split at h
  · rw [Option.some.injEq, Prod.mk.injEq] at h
    exact Or.inl ⟨h.1.symm, h.2.symm⟩
  · next hblank =>
    obtain ⟨mid, hmid, hup⟩ := Option.map_eq_some_iff.mp h
    cases hraw : (one c (·.id == mid)).bind raw with
    | none =>
      rw [hraw, Prod.mk.injEq] at hup
      exact Or.inl ⟨hup.1.symm, hup.2.symm⟩
    | some d' =>
      rw [hraw, Prod.mk.injEq] at hup
      obtain ⟨d, hd, hd'⟩ := Option.bind_eq_some_iff.mp hraw
      exact Or.inr ⟨mid, d, d', by simpa using hblank, hmid, hd, hd', hup.2.symm, hup.1.symm⟩

theorem Body.change_of_not_contains {b : Body} {change : EditCfgForm → Option (Configs × Bool)}
    (h : b.form.key.contains 0 = false) : b.change c id change = change b.form := by
  rw [Body.change, h]
  rfl

theorem Body.handle_cases {b : Body} {change : EditCfgForm → Option (Configs × Bool)} {r : Reply}
    (h : b.handle c id change = some (c', r)) :
    (c' = c ∧ r = .editCfgFailure) ∨
      b.failed = false ∧ ∃ res, r = .status res ∧ b.change c id change = some (c', res) := by
  unfold handle at h
  split at h
  · rw [Option.some.injEq, Prod.mk.injEq] at h
    exact Or.inl ⟨h.1.symm, h.2.symm⟩
  · next hf =>
    obtain ⟨⟨c1, res⟩, hc, heq⟩ := Option.map_eq_some_iff.mp h
    obtain ⟨rfl, rfl⟩ := Prod.mk.inj heq
    exact Or.inr ⟨by simpa using hf, res, rfl, hc⟩

end Update

end YulongHids.Web
