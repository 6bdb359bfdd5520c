import YulongHids.Agent.Filters
import YulongHids.Agent.Users
import YulongHids.Golang.Md5

/-!
# File events on Linux

The event loop of `StartFileMonitor` (`agent/monitor/file_linux.go`) and `getFileMD5`
(`agent/monitor/lib.go`). The file of an event can change between any two of the calls that look at
it, so each of them has its own result here.
-/

namespace YulongHids.Agent

open Golang

/-- What `os.Stat` tells of a path. -/
structure FileInfo where
  size : ℕ
  isDir : Bool

def fileSize : ℕ := 20480000

structure FileEvent where
  name : GoString
  /-- `event.Op.String()`. -/
  action : GoString

/-- What the calls for one event come to, in their order; `none` is an error. -/
structure FileViews where
  /-- `os.Stat` of the loop. -/
  stat : Option FileInfo
  /-- `os.Stat` of `getFileMD5`. -/
  hashStat : Option FileInfo
  /-- `os.Open` and `io.Copy`. A directory can be opened, but not copied. -/
  content : Option (List UInt8)
  /-- The owner in the buffer of `get_id`, an older one if its `stat` fails. -/
  uid : UInt32
  passwd : Option GoString

structure FileConfig where
  pathList : List GoString
  /-- `Config.Filter.File`. -/
  filterFile : List GoString

structure FileInput where
  cfg : FileConfig
  event : FileEvent
  views : FileViews

/-- What `getFileMD5` comes to. -/
inductive FileHash where
  | hash (h : GoString)
  | error
  | panic

def md5Text (content : List UInt8) : GoString := hexEncode (md5 content)

/-- `getFileMD5`. The size is read before the error is looked at, from a nil interface if there is
one. -/
def getFileMD5 (v : FileViews) : FileHash :=
  match v.hashStat with
  | none => .panic
  | some fileinfo =>
    if fileSize ≤ fileinfo.size then .error
    else
      match v.content with
      | none => .error
      | some content => .hash (md5Text content)

/-- `resultdata` when it is sent. -/
def fileRecord (e : FileEvent) (hash user : GoString) : Record :=
  (∅ : Record)
    |>.insert (str "source") (str "file")
    |>.insert (str "action") e.action
    |>.insert (str "path") e.name
    |>.insert (str "hash") hash
    |>.insert (str "user") user

section Loop

variable (txt : TextLib)

/-- The three tests of the name of an event. -/
def nameListed (cfg : FileConfig) (e : FileEvent) : Bool :=
  inArray txt [str "c:\\windows\\temp"] (txt.toLower e.name) false ||
    inArray txt cfg.pathList (txt.toLower e.name) false ||
    inArray txt cfg.filterFile (txt.toLower e.name) true

/-- The end of an iteration. -/
def sendFile (i : FileInput) (hash user : GoString) : Turn :=
  if isFileWhite txt i.cfg.filterFile (fileRecord i.event hash user) then .skip
  else .send (fileRecord i.event hash user)

/-- The owner of the file, and the end. -/
def fileOwner (i : FileInput) (hash : GoString) : Turn :=
  match getFileUser i.views.uid i.views.passwd with
  | .panic => .panic
  | .error => sendFile txt i hash []
  | .found user => sendFile txt i hash user

/-- The test of a hash. -/
def hashListed (i : FileInput) (h : GoString) : Bool :=
  inArray txt i.cfg.filterFile (txt.toLower h) false

/-- The hash of a file that is no directory, and the rest. -/
def fileContent (i : FileInput) (f : FileInfo) : Turn :=
  if f.size ≤ fileSize then
    match getFileMD5 i.views with
    | .panic => .panic
    | .error => fileOwner txt i []
    | .hash h => if hashListed txt i h then .skip else fileOwner txt i h
  else fileOwner txt i []

/-- One iteration. -/
def fileTurn (i : FileInput) : Turn :=
  if nameListed txt i.cfg i.event then .skip
  else if i.event.name = [] then .skip
  else
    match i.views.stat with
    | none => sendFile txt i [] []
    | some f => if f.isDir then sendFile txt i [] [] else fileContent txt i f

def fileTurns (inputs : List FileInput) : List Turn := turnsOf (fileTurn txt) inputs

/-! ## Events that are to be reported -/

/-- The event passes the tests of its name. -/
def Noted (i : FileInput) : Prop := nameListed txt i.cfg i.event = false ∧ i.event.name ≠ []

/-- The file shows a size that is to be hashed, and then its content. -/
structure Hashed (i : FileInput) (h : GoString) : Prop where
  stat : ∃ f, i.views.stat = some f ∧ f.isDir = false ∧ f.size ≤ fileSize
  again : ∃ f, i.views.hashStat = some f ∧ f.size < fileSize
  content : ∃ c, i.views.content = some c ∧ h = md5Text c

/-- A record of the file with this hash is not on the white list. -/
def Unlisted (i : FileInput) (h : GoString) : Prop :=
  isFileWhite txt i.cfg.filterFile (fileRecord i.event h []) = false

/-- What is to come of an event: no panic, and a record with the path and the action of the file unless
its name or its hash is listed. A file that one of the calls does not find has no hash. -/
structure Handled (i : FileInput) (t : Turn) : Prop where
  no_panic : t ≠ .panic
  reported : Noted txt i → Unlisted txt i [] →
    (∀ h, Hashed i h → hashListed txt i h = false ∧ Unlisted txt i h) →
    ∃ r, t = .send r ∧ r.get (str "path") = i.event.name ∧ r.get (str "action") = i.event.action

/-- A file that is to be hashed is still there for `getFileMD5`, and when the owner is looked up the
passwd file has a newline or cannot be read. -/
structure ViewsOk (i : FileInput) : Prop where
  hashStat : ∀ f, i.views.stat = some f → f.isDir = false → f.size ≤ fileSize →
    i.views.hashStat ≠ none
  passwd : ∀ f, i.views.stat = some f → f.isDir = false →
    (∀ h, Hashed i h → hashListed txt i h = false) → ∀ dat, i.views.passwd = some dat → 10 ∈ dat

end Loop

end YulongHids.Agent
