import YulongHids.Golang.Md5
import YulongHids.Transition.Run
import YulongHids.Web.Install

/-!
# Publishing files

The two ways in which the console stores a file for the hosts and records its hash: `FileUpload`
(`web/controllers/file.go`) and the archive of the installation, `saveFile` and `deCompressZip`
(`web/controllers/install.go`). Which of their steps fail is part of a request.
-/

namespace YulongHids.Web

open Golang Mongo

/-- The parts of the name `{system}-{platform}-{type}` of a stored file. -/
structure FileName where
  system : GoString
  platform : GoString
  type : GoString
  deriving DecidableEq

def FileName.selector (n : FileName) : File → Bool := fileSelector n.system n.platform n.type

/-- The directory of the files and the collection of their records. -/
structure Published where
  stored : FileName → Option (List UInt8)
  records : Collection File

/-- A file is written, over an old one of the name. -/
def Published.write (p : Published) (n : FileName) (content : List UInt8) : Published :=
  { p with stored := Function.update p.stored n (some content) }

/-- How the steps behind the writing of a file go. `read` is the number of bytes that are hashed
before a read error, whose text `io.Copy` returns to nobody, and `none` if the file cannot be
opened. -/
structure RecordSteps where
  read : Option ℕ
  updateFails : Bool
  insertFails : Bool

/-- `GetFileMD5Hash`. -/
def getFileMD5Hash (content : List UInt8) : Option ℕ → GoString
  | none => []
  | some k => hexEncode (md5 (content.take k))

/-- `File.Update`. The error of `Insert` is not looked at. -/
def File.update (f : File) (files : Collection File) (o : RecordSteps) : Collection File × Bool :=
  if o.updateFails then (files, false)
  else if (one files (fileSelector f.system f.platform f.type)).isNone && o.insertFails then
    (files, true)
  else (fileUpdate files f, true)

/-- The ways in which `deCompressZip` returns an error. -/
inductive ZipError where
  | typeNotAllow
  | notCreated
  | notCopied
  | md5Null
  | modelInsert
  deriving DecidableEq

inductive ZipRet where
  | nil
  | error (err : ZipError)
  | panic
  deriving DecidableEq

/-- `toDB` -/
def toDB (p : Published) (n : FileName) (content : List UInt8) (o : RecordSteps) :
    Published × ZipRet :=
  let md5 := getFileMD5Hash content o.read
  if md5 = [] then (p, .error .md5Null)
  else
    let (records, res) := File.update ⟨n.platform, n.system, n.type, md5⟩ p.records o
    ({ p with records := records }, if res then .nil else .error .modelInsert)

/-- What a caller that only asks for success keeps of a return. A panic ends the request as an error
does. -/
def succeeds (ret : Published × ZipRet) : Published × Bool := (ret.1, decide (ret.2 = .nil))

/-- The end of both ways: hash the file that was stored, and record the hash. -/
def recordHash (p : Published) (n : FileName) (content : List UInt8) (o : RecordSteps) :
    Published × Bool :=
  succeeds (toDB p n content o)

/-- `FileUpload`, and whether it reports success. `form` is what `SaveToFile` stored, `none` if it
failed; an error while it copies is not looked at either. -/
def fileUpload (p : Published) (system platform : GoString) (form : Option (List UInt8))
    (o : RecordSteps) : Published × Bool :=
  if system ∉ systemArray ∨ platform ∉ platformArray then (p, false)
  else
    match form with
    | none => (p, false)
    | some content =>
      let n : FileName := ⟨system, platform, str "agent"⟩
      recordHash (p.write n content) n content o

/-- `FileName2Type` (`web/settings/settings.go`). -/
def fileName2Type : List (GoString × GoString) :=
  [(str "agent", str "agent"), (str "data", str "data"), (str "daemon", str "daemon"),
    (str "agent.exe", str "agent"), (str "data.zip", str "data"), (str "daemon.exe", str "daemon")]

/-- What happens to an entry of an archive: it cannot be opened, its file cannot be created, the copy
stops with an error, or it is complete. -/
inductive EntryFile where
  | notOpened
  | notCreated
  | broken (content : List UInt8)
  | copied (content : List UInt8) (o : RecordSteps)

structure ZipEntry where
  name : GoString
  file : EntryFile

/-- `deCompress2dest`. A name without a type is a panic, before it is compared with `TypeArray`; an
entry that cannot be opened is passed over. -/
def deCompressEntry (p : Published) (system platform : GoString) (f : ZipEntry) :
    Published × ZipRet :=
  match f.file, fileName2Type.lookup f.name with
  | .notOpened, _ => (p, .nil)
  | _, none => (p, .panic)
  | file, some rtype =>
    let n : FileName := ⟨system, platform, rtype⟩
    if f.name ∉ typeArray then (p, .error .typeNotAllow)
    else
      match file with
      | .notOpened => (p, .nil)
      | .notCreated => (p, .error .notCreated)
      | .broken content => (p.write n content, .error .notCopied)
      | .copied content o => toDB (p.write n content) n content o

/-- `deCompressZip` behind `OpenReader`. -/
def deCompressAll (p : Published) (system platform : GoString) : List ZipEntry → Published × ZipRet
  | [] => (p, .nil)
  | f :: fs =>
    match deCompressEntry p system platform f with
    | (p', .nil) => deCompressAll p' system platform fs
    | stop => stop

/-- `deCompress2dest`, and whether it returns no error. -/
def deCompress2dest (p : Published) (system platform : GoString) (f : ZipEntry) :
    Published × Bool :=
  succeeds (deCompressEntry p system platform f)

/-- `deCompressZip`, and whether it returns no error. -/
def deCompressZip (p : Published) (system platform : GoString) (fs : List ZipEntry) :
    Published × Bool :=
  succeeds (deCompressAll p system platform fs)

/-- `saveFile`. `archive` is `none` if the archive cannot be saved or read. -/
def saveFile (p : Published) (system platform : GoString) (archive : Option (List ZipEntry)) :
    Published × Bool :=
  if system ∉ systemArray ∨ platform ∉ platformArray then (p, false)
  else
    match archive with
    | none => (p, false)
    | some fs => deCompressZip p system platform fs

inductive UploadRequest where
  | agent (system platform : GoString) (form : Option (List UInt8)) (o : RecordSteps)
  | zip (system platform : GoString) (archive : Option (List ZipEntry))

def Published.handle (p : Published) : UploadRequest → Published × Bool
  | .agent system platform form o => fileUpload p system platform form o
  | .zip system platform archive => saveFile p system platform archive

/-- The state after a request. -/
def publishStep (p : Published) (r : UploadRequest) : Option Published := some (p.handle r).1

/-! ## What publishing is for -/

/-- The files that a request is about. -/
def UploadRequest.names : UploadRequest → List FileName
  | .agent system platform _ _ => [⟨system, platform, str "agent"⟩]
  | .zip system platform archive =>
    (archive.getD []).filterMap fun f =>
      (fileName2Type.lookup f.name).map fun rtype => ⟨system, platform, rtype⟩

/-- A record, if there is one for a stored file, has its hash. -/
def Published.Matches (p : Published) : Prop :=
  ∀ n content f, p.stored n = some content → one p.records n.selector = some f →
    f.hash = hexEncode (md5 content)

/-- There are a file and a record of the name. -/
def Published.Present (p : Published) (n : FileName) : Prop :=
  (p.stored n).isSome ∧ (one p.records n.selector).isSome

/-! ## When a request is carried out right -/

/-- The record that is there already, if there is one, has the hash of `content`. -/
def Published.Recorded (p : Published) (n : FileName) (content : List UInt8) : Prop :=
  ∀ f, one p.records n.selector = some f → f.hash = hexEncode (md5 content)

/-- The steps behind the writing of `content` go well: where the record is not updated, the one that
is there has the hash of `content` already; where it is, the whole file was hashed, and a record
that is missing can be inserted. -/
def RecordSteps.Right (o : RecordSteps) (p : Published) (n : FileName) (content : List UInt8) :
    Prop :=
  if o.read = none ∨ o.updateFails = true then p.Recorded n content
  else getFileMD5Hash content o.read = hexEncode (md5 content) ∧
    (o.insertFails = true → (one p.records n.selector).isSome)

def EntryFile.Right (p : Published) (n : FileName) : EntryFile → Prop
  | .notOpened => p.Present n
  | .notCreated => True
  | .broken content => p.Recorded n content
  | .copied content o => o.Right p n content

/-- Every entry that is reached goes well in the state that the entries before it leave. -/
def ArchiveRight (p : Published) (system platform : GoString) : List ZipEntry → Prop
  | [] => True
  | f :: fs =>
    (∀ rtype, fileName2Type.lookup f.name = some rtype →
      f.file.Right p ⟨system, platform, rtype⟩) ∧
    ((deCompress2dest p system platform f).2 = true →
      ArchiveRight (deCompress2dest p system platform f).1 system platform fs)

/-- A request that is not refused for its system or platform goes well with every file it stores. -/
def UploadRequest.Right (p : Published) : UploadRequest → Prop
  | .agent system platform form o =>
    system ∈ systemArray ∧ platform ∈ platformArray →
      ∀ content, form = some content → o.Right p ⟨system, platform, str "agent"⟩ content
  | .zip system platform archive =>
    system ∈ systemArray ∧ platform ∈ platformArray →
      ArchiveRight p system platform (archive.getD [])

end YulongHids.Web
