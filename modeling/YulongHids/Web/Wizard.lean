import YulongHids.Transition.Run
import YulongHids.Web.Archive

/-!
# The steps of the installation

`InstallController.Post` (`web/controllers/install.go`): the collections are filled with their first
documents, the files for the hosts are uploaded, a pair of keys is made, and the configuration gets
the keys and the first entries of the whitelist. A request finds out first how far the installation
got; what it does then may come behind what other requests do in the meantime. Which of the steps of
the operating system and of the store fail is part of a request.
-/

namespace YulongHids.Web

open Golang Mongo Transition

/-! ## The first step -/

/-- A field whose value is a list of strings. -/
def listField (key : String) (elems : List String) : GoString × Value :=
  (str key, .array (elems.map fun s => .string (str s)))

def stringField (key value : String) : GoString × Value := (str key, .string (str value))

def boolField (key : String) (value : Bool) : GoString × Value := (str key, .bool value)

/-- `DefualtConfig`: the types of the documents with their `dic`. -/
def defaultConfig : List (GoString × Value) := [
  (str "client", .doc [(str "cycle", .int 2), boolField "udp" false, boolField "lan" false,
    listField "monitorPath" ["%windows%", "%system32%", "%web%", "/etc/", "/bin/", "/sbin/",
      "/usr/bin/", "/usr/sbin/"]]),
  (str "server", .doc [boolField "learn" true, boolField "offlinecheck" false,
    stringField "publickey" "", stringField "privatekey" "", stringField "cert" ""]),
  (str "intelligence", .doc [boolField "switch" false,
    stringField "ipapi" "http://127.0.0.1/api/?ip=\x7b$ip\x7d",
    stringField "fileapi" "http://127.0.0.1/api/?hash=\x7b$hash\x7d", stringField "regex" "black"]),
  (str "notice", .doc [boolField "switch" false, boolField "onlyhigh" true,
    stringField "api" "http://127.0.0.1/test/?text=\x7b$info\x7d"]),
  (str "whitelist", .doc [listField "file" [], listField "ip" [], listField "process" [],
    listField "other" []]),
  (str "blacklist", .doc [listField "file" [], listField "ip" [],
    listField "process" ["mssecsvc\\.exe", "tasksche\\.exe"], listField "other" []]),
  (str "filter", .doc [
    listField "file" ["^c:\\\\windows\\\\temp$", "\\.(png|js|css|jpg|gif|wolff|svg)$"],
    listField "ip" [], listField "process" ["c:\\\\windows\\\\system32\\\\wbem\\\\wmiprvse.exe"]]),
  (str "web", .doc [stringField "tfakey" ""])]

/-- The documents that `Insert` stores, with the ids that they get: fewer than all if it fails. -/
def defaultDocs (ids : List ObjectId) : Configs :=
  List.zipWith (fun id d => ⟨id, d.1, some d.2⟩) ids defaultConfig

/-! ## The keys -/

/-- The files `private.pem` and `public.pem`, and the key and the certificate that the console serves
HTTPS with; `none` for no file. -/
structure KeyFiles where
  privatePem : Option GoString
  publicPem : Option GoString
  httpsKey : Option GoString
  httpsCert : Option GoString

/-- How far `GenRsaKey` gets: nowhere, or the private key is written in part, or the public key cannot
be created, or it is written in part, or both are written. -/
inductive KeyGen where
  | nothing
  | privateBroken (part : GoString)
  | privateOnly (privateKey : GoString)
  | publicBroken (privateKey part : GoString)
  | pair (privateKey publicKey : GoString)

/-- `GenRsaKey`, with `true` for no error. -/
def genRsaKey (k : KeyFiles) : KeyGen → KeyFiles × Bool
  | .nothing => (k, false)
  | .privateBroken part => ({ k with privatePem := some part }, false)
  | .privateOnly privateKey => ({ k with privatePem := some privateKey }, false)
  | .publicBroken privateKey part =>
    ({ k with privatePem := some privateKey, publicPem := some part }, false)
  | .pair privateKey publicKey =>
    ({ k with privatePem := some privateKey, publicPem := some publicKey }, true)

/-- `ReadFile` without its error: the bytes that are read, `none` if the file cannot be opened. -/
def readFile (file : Option GoString) (read : Option ℕ) : GoString :=
  match file, read with
  | some content, some k => content.take k
  | _, _ => []

/-- What `configJOSN` holds: `none` where an assertion of its type fails. -/
structure ConfigBody where
  ip : Option (List (Option GoString))
  process : Option (List (Option GoString))
  cert : Option GoString

/-- How the steps of `updateHTTPSKeys` go. -/
structure KeySteps where
  renamed : Bool
  certWritten : Bool
  readPrivate : Option ℕ
  readPublic : Option ℕ
  storesPrivate : Bool
  storesPublic : Bool

/-- One of the loops of `toConfig`, with `false` for a panic. -/
def addEntries (idstr key : GoString) : List (Option GoString) → Configs → Configs × Bool
  | [], c => (c, true)
  | none :: _, c => (c, false)
  | some entry :: rest, c =>
    if blank entry then addEntries idstr key rest c
    else
      match c.addOne idstr key entry with
      | none => (c, false)
      | some (c', _) => addEntries idstr key rest c'

/-- The id of the document of a type, as `Hex` writes it. -/
def Configs.idOf (c : Configs) (type : GoString) : GoString := hexEncode (c.findOne type).id

/-- `toConfig`, with `false` for a panic. -/
def toConfig (c : Configs) (iplst prolist : List (Option GoString)) (certText : GoString) :
    Configs × Bool :=
  let idstr := c.idOf (str "whitelist")
  match addEntries idstr (str "ip") iplst c with
  | (c, false) => (c, false)
  | (c, true) =>
    match addEntries idstr (str "process") prolist c with
    | (c, false) => (c, false)
    | (c, true) =>
      match c.editByID (c.idOf (str "server")) (str "cert") certText with
      | none => (c, false)
      | some (c', _) => (c', true)

/-- `EditByID` for the document `id`, where the store may fail; `none` for a panic. -/
def Configs.storeKey (c : Configs) (id key value : GoString) (stores : Bool) : Option Configs :=
  (c.editByID id key value).map fun p => if stores then p.1 else c

/-- `updateHTTPSKeys`, with `none` for a panic. -/
def updateHTTPSKeys (c : Configs) (k : KeyFiles) (cert : GoString) (o : KeySteps) :
    (Configs × KeyFiles) × Option Bool :=
  match k.privatePem with
  | none => ((c, k), some false)
  | some key =>
    if o.renamed = false then ((c, k), some false)
    else
      let k := { k with privatePem := none, httpsKey := some key }
      if o.certWritten = false then ((c, k), some false)
      else
        let k := { k with httpsCert := some cert }
        let serverID := c.idOf (str "server")
        match c.storeKey serverID (str "privatekey") (readFile k.httpsKey o.readPrivate)
            o.storesPrivate with
        | none => ((c, k), none)
        | some c =>
          match c.storeKey serverID (str "publickey") (readFile k.publicPem o.readPublic)
              o.storesPublic with
          | none => ((c, k), none)
          | some c => ((c, k), some true)

/-! ## The requests -/

/-- A request to `/install`, with its step and what it meets. -/
inductive WizardRequest where
  | initDB (indexed : Bool) (ids : List ObjectId)
  /-- The documents that `InsertMany` stores, and whether it reports an error. -/
  | initRules (stored : List RuleDoc) (failed : Bool)
  /-- Whether the file was received and saved, and its entries if it is an archive. -/
  | saveFile (system platform : GoString) (saved : Bool) (archive : Option (List ZipEntry))
  /-- The text of the error of `openssl`, or the certificate that it wrote. -/
  | createKey (gen : KeyGen) (openssl : Except GoString GoString)
  | addConfig (body : ConfigBody) (o : KeySteps)
  /-- A request of another step or action. -/
  | other

/-- The answer. -/
inductive WizardReply where
  | step (status : Bool) (msg : GoString)
  | cert (cert msg : GoString)
  | code (status : ℕ) (msg : GoString)
  | panic

/-- `Failure` and `Succeed`. -/
def failureMsg : GoString := str "您的操作失败，请检查输入是否非法"

def succeedMsg : GoString := str "操作成功"

/-- The collections, the stored files for the hosts, the keys, and how far the installation was when
the requests that are under way looked. -/
structure Wizard where
  db : ConsoleDB
  stored : FileName → Option (List UInt8)
  keys : KeyFiles
  checked : List ℕ

namespace Wizard

/-- Nothing is installed. -/
def start : Wizard := ⟨⟨[], [], []⟩, fun _ => none, ⟨none, none, none, none⟩, []⟩

/-- The ids of new documents are new. -/
def Possible (s : Wizard) : WizardRequest → Prop
  | .initDB _ ids =>
    (s.db.config.map Config.id ++ ids).Nodup ∧ ids.length ≤ 8 ∧ ∀ id ∈ ids, id.length = 12
  | _ => True

instance (s : Wizard) : (r : WizardRequest) → Decidable (s.Possible r)
  | .initDB _ ids => inferInstanceAs (Decidable
      ((s.db.config.map Config.id ++ ids).Nodup ∧ ids.length ≤ 8 ∧ ∀ id ∈ ids, id.length = 12))
  | .initRules _ _ => .isTrue trivial
  | .saveFile _ _ _ _ => .isTrue trivial
  | .createKey _ _ => .isTrue trivial
  | .addConfig _ _ => .isTrue trivial
  | .other => .isTrue trivial

/-- `initDB` -/
def initDB (s : Wizard) (indexed : Bool) (ids : List ObjectId) : Wizard × WizardReply :=
  if indexed = false then (s, .step false (str "create index error"))
  else
    let s := { s with db := { s.db with config := s.db.config ++ defaultDocs ids } }
    if ids.length < 8 then (s, .step false (str "init config error"))
    else (s, .step true (str "init mongodb doned"))

def initRules (s : Wizard) (stored : List RuleDoc) (failed : Bool) : Wizard × WizardReply :=
  ({ s with db := { s.db with rules := s.db.rules ++ stored } },
    if failed then .step false (str "初始化规则失败") else .step true (str "初始化规则成功"))

/-- `saveFile` -/
def saveFile (s : Wizard) (system platform : GoString) (saved : Bool)
    (archive : Option (List ZipEntry)) : Wizard × WizardReply :=
  if !(systemArray.contains system) || !(platformArray.contains platform) || !saved then
    (s, .code 0 failureMsg)
  else
    match archive with
    | none => (s, .code 0 failureMsg)
    | some entries =>
      let (p, ret) := deCompressAll ⟨s.stored, s.db.file⟩ system platform entries
      let s := { s with stored := p.stored, db := { s.db with file := p.records } }
      match ret with
      | .nil => (s, .code 1 succeedMsg)
      | .error _ => (s, .code 0 failureMsg)
      | .panic => (s, .panic)

def createKey (s : Wizard) (gen : KeyGen) (openssl : Except GoString GoString) :
    Wizard × WizardReply :=
  let (keys, made) := genRsaKey s.keys gen
  let s := { s with keys := keys }
  if made then
    match openssl with
    | .error err => (s, .cert [] err)
    | .ok cert => (s, .cert cert (str "yes"))
  else (s, .step false (str "Create key Error"))

def addConfig (s : Wizard) (body : ConfigBody) (o : KeySteps) : Wizard × WizardReply :=
  match body.ip, body.process, body.cert with
  | some iplst, some prolist, some cert =>
    match toConfig s.db.config iplst prolist cert with
    | (c, false) => ({ s with db := { s.db with config := c } }, .panic)
    | (c, true) =>
      let ((c, keys), res) := updateHTTPSKeys c s.keys cert o
      let s := { s with keys := keys, db := { s.db with config := c } }
      match res with
      | none => (s, .panic)
      | some false => (s, .step false (str "更新https文件时可能发生错误"))
      | some true => (s, .step true (str "HTTPS证书及基础配置已经更新，请重启web服务"))
  | _, _, _ => (s, .panic)

/-- `Post`, behind `HasInstall`. -/
def post (s : Wizard) (currentStep : ℕ) (r : WizardRequest) : Wizard × WizardReply :=
  if installStep < currentStep then (s, .step false (str "already Install"))
  else
    match r with
    | .initDB indexed ids => if currentStep = 1 then s.initDB indexed ids else (s, .step false (str "error"))
    | .initRules stored failed =>
      if currentStep = 2 then s.initRules stored failed else (s, .step false (str "error"))
    | .saveFile system platform saved archive =>
      if 2 < currentStep then s.saveFile system platform saved archive
      else (s, .step false (str "error"))
    | .createKey gen openssl =>
      if currentStep = 4 then s.createKey gen openssl else (s, .step false (str "error"))
    | .addConfig body o =>
      if currentStep = 4 then s.addConfig body o else (s, .step false (str "error"))
    | .other => (s, .step false (str "error"))

end Wizard

/-- A request looks how far the installation got, or a request that found `currentStep` goes on. -/
inductive WizardEvent where
  | check
  | post (currentStep : ℕ) (r : WizardRequest)

def Wizard.step (s : Wizard) : WizardEvent → Option Wizard
  | .check => (hasInstall s.db).map fun n => { s with checked := n :: s.checked }
  | .post currentStep r =>
    if currentStep ∈ s.checked ∧ s.Possible r then
      some { (s.post currentStep r).1 with checked := s.checked.erase currentStep }
    else none

/-! ## What the installation is for -/

/-- A field of the server document. -/
def Configs.serverField (c : Configs) (key : GoString) : Option Value :=
  (c.findOne (str "server")).dic.bind fun dic => dic.field key

/-- The step behind a step. -/
def nextStep : ℕ → ℕ
  | 4 => 42
  | n => n + 1

/-- A pair of keys that a request of the run made. -/
def Generated (es : List WizardEvent) (privateKey publicKey : GoString) : Prop :=
  ∃ currentStep openssl, .post currentStep (.createKey (.pair privateKey publicKey) openssl) ∈ es

/-- A request that makes keys makes none or a pair that is not blank. One that stores keys stores both
whole, or none of the two. -/
def WholeKeys (s : Wizard) : WizardEvent → Prop
  | .post _ (.createKey gen _) =>
    gen = .nothing ∨ ∃ p q, gen = .pair p q ∧ blank p = false ∧ blank q = false
  | .post _ (.addConfig _ o) =>
    (o.storesPrivate = false ∧ o.storesPublic = false) ∨
      (o.storesPrivate = true ∧ o.storesPublic = true ∧
        (∀ p, s.keys.privatePem = some p → readFile (some p) o.readPrivate = p) ∧
          ∀ q, s.keys.publicPem = some q → readFile (some q) o.readPublic = q)
  | _ => True

end YulongHids.Web
