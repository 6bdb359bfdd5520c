import YulongHids.Web.Config
import YulongHids.Web.Download

/-!
# Whether the console is installed

`HasInstall` (`web/controllers/install.go`) finds out how far the installation got from three
collections. Here are the handlers that change them: `RuleController.Post`
(`web/controllers/rule.go`), the ones of `ConfigController`, and `FileController.Upload`
(`web/controllers/file.go`). The task and the notice controller write to other collections.
-/

namespace YulongHids.Web

open Golang Mongo

/-- A document of the `rules` collection. -/
structure RuleDoc where
  id : ObjectId
  fields : List (GoString × Value)

/-- The collections that `HasInstall` reads. -/
structure ConsoleDB where
  config : Configs
  rules : Collection RuleDoc
  file : Collection File

def installStep : ℕ := 4

/-- `v == nil` for a value of a map. -/
def isNil : Option Value → Bool
  | none => true
  | some .null => true
  | some _ => false

/-- `v == ""` for a value of a map. -/
def isEmptyString (v : Option Value) : Bool := v.any (·.isString [])

/-- `HasInstall`, `none` for the panic at a `dic` that is not a document. -/
def hasInstall (db : ConsoleDB) : Option ℕ :=
  match (db.config.findOne (str "server")).dic with
  | none => some 1
  | some .null => some 1
  | some (.doc fields) =>
    let publickey := fields.lookup (str "publickey")
    let firstRule := one db.rules fun _ => true
    if publickey.isSome ∧ firstRule.isNone then some 2
    else if firstRule.isSome ∧ db.file.length = 0 then some 3
    else if 0 < db.file.length ∧ (isEmptyString publickey || isNil publickey) then some 4
    else if !isEmptyString publickey then some 42
    else some 0
  | some _ => none

/-- `File.Update`. -/
def fileUpdate (files : Collection File) (f : File) : Collection File :=
  let selector := fileSelector f.system f.platform f.type
  match one files selector with
  | none => insert files f
  | some _ => update files selector fun _ => f

/-- A request that reached its handler, with what the handler reads of it. A body without the fields
that a handler asserts is `none`: it panics. `ruleAdd` has the documents that `InsertMany` stored,
all of the list or those before the one it failed at; `fileUpload` the MD5 of the file, empty if the
file could not be saved or read. -/
inductive ConsoleRequest where
  | ruleEnable (body : Option (GoString × Bool))
  | ruleAdd (stored : List RuleDoc)
  | ruleDel (body : Option GoString)
  | configEdit (body : Body)
  | configDel (body : Body)
  | configAdd (body : Body)
  | fileUpload (system platform md5 : GoString)
  | task
  | notice

/-- The rules after `RuleController.Post`. -/
def enableRule (rules : Collection RuleDoc) (idstr : GoString) (status : Bool) :
    Collection RuleDoc :=
  match objectIdHex idstr with
  | none => rules
  | some id => update rules (·.id == id) fun d =>
      { d with fields := setField (str "enabled") (.bool status) d.fields }

def removeRule (rules : Collection RuleDoc) (idstr : GoString) : Collection RuleDoc :=
  match objectIdHex idstr with
  | none => rules
  | some id => rules.filter fun d => d.id != id

/-- `FileUpload` accepts the request. -/
def uploadAccepted (system platform md5 : GoString) : Bool :=
  systemArray.contains system && platformArray.contains platform && md5 != []

/-- The handlers. -/
def ConsoleDB.handle (db : ConsoleDB) : ConsoleRequest → ConsoleDB
  | .ruleEnable none => db
  | .ruleEnable (some (idstr, status)) => { db with rules := enableRule db.rules idstr status }
  | .ruleAdd stored => { db with rules := db.rules ++ stored }
  | .ruleDel none => db
  | .ruleDel (some idstr) => { db with rules := removeRule db.rules idstr }
  | .configEdit b => { db with config := afterHandler db.config (configEdit db.config b) }
  | .configDel b => { db with config := afterHandler db.config (configDel db.config b) }
  | .configAdd b => { db with config := afterHandler db.config (configAdd db.config b) }
  | .fileUpload system platform md5 =>
    if uploadAccepted system platform md5 then
      { db with file := fileUpdate db.file ⟨platform, system, str "agent", md5⟩ }
    else db
  | .task => db
  | .notice => db

/-- The state after a sequence of requests. -/
def ConsoleDB.handleAll (db : ConsoleDB) (rs : List ConsoleRequest) : ConsoleDB :=
  rs.foldl ConsoleDB.handle db

/-! ## What keeps the installer closed -/

/-- `HasInstall() > InstallStep`. -/
def Installed (db : ConsoleDB) : Prop := ∃ n ∈ hasInstall db, installStep < n

/-- The public key of the server document. -/
def ConsoleDB.publickey (db : ConsoleDB) : Option Value :=
  (db.config.findOne (str "server")).dic.bind fun dic => dic.field (str "publickey")

/-- The arguments of a change lead to the field `publickey` of the server document. -/
def HitsKey (c : Configs) (id key value : GoString) : Prop :=
  blank value = false ∧ key.contains 0 = false ∧ (split key 46).all fieldName = true ∧
    (split key 46).head? = some (str "publickey") ∧
    ∃ mid d, objectIdHex id = some mid ∧ one c (·.id == mid) = some d ∧
      one c (·.type == str "server") = some d

/-- An update of the document `id` that the store accepts although its key has a zero byte. -/
def Body.Injects (b : Body) (c : Configs) (id : GoString) : Prop :=
  b.failed = false ∧ b.form.key.contains 0 = true ∧ blank b.form.input = false ∧
    ∃ mid d, objectIdHex id = some mid ∧ one c (·.id == mid) = some d ∧ (b.raw d).isSome

/-- A request of which the store reads more than a path and a value. -/
def Injects (db : ConsoleDB) : ConsoleRequest → Prop
  | .configEdit b | .configDel b => b.Injects db.config b.form.id
  | .configAdd b => b.Injects db.config (listID db.config b.form.id)
  | _ => False

/-- A request does not remove the last rule. If there is no rule, no file or no public key, it does
not make the first one. No key that the store accepts has a zero byte. -/
def KeepsInstall (db : ConsoleDB) : ConsoleRequest → Prop
  | .ruleAdd stored => db.rules = [] → stored = []
  | .ruleDel (some idstr) =>
    db.rules ≠ [] → ¬ ∃ id, objectIdHex idstr = some id ∧ ∀ d ∈ db.rules, d.id = id
  | .configEdit b =>
    ¬ b.Injects db.config b.form.id ∧ (db.publickey = none → b.failed = false →
      ¬ HitsKey db.config b.form.id b.form.key b.form.input)
  | .configDel b => ¬ b.Injects db.config b.form.id
  | .configAdd b =>
    ¬ b.Injects db.config (listID db.config b.form.id) ∧ (db.publickey = none → b.failed = false →
      ¬ HitsKey db.config (listID db.config b.form.id) b.form.key b.form.input)
  | .fileUpload system platform md5 => db.file = [] → uploadAccepted system platform md5 = false
  | _ => True

end YulongHids.Web
