import YulongHids.Golang.Md5

/-!
# Downloading the agent

`downFile`, `DownAgent`, `FileMD5String` and `CheckAgentHash` (`daemon/install/lib.go`). The outcome
of every step that may fail is data, one `Attempt` for each turn of the loop of `DownAgent`.
-/

namespace YulongHids.Daemon

open Golang

/-- What comes of a request whose body is read to its end. -/
inductive Answer where
  | requestError (err : GoString)
  | bodyError (err : GoString)
  | body (text : GoString)
  deriving DecidableEq

/-- One download and one check: the errors of `HTTPClient.Do`, `os.Create` and `os.Stat` by their
text, and what is received and read. -/
structure Attempt where
  request : Option GoString
  create : Option GoString
  /-- The bytes of the body that reach the file; `io.Copy` is not checked. -/
  copied : List UInt8
  /-- The announced length, -1 if there is none. -/
  contentLength : ℤ
  stat : Option GoString
  /-- How many bytes of the file `FileMD5String` can read, `none` if it cannot open it. -/
  readable : Option ℕ
  /-- The answer of the console to the check of a hash. -/
  check : GoString → Answer

/-- Where the file under the agent's path comes from. -/
inductive Origin where
  | installed
  | downloaded
  deriving DecidableEq

structure AgentFile where
  origin : Origin
  content : List UInt8
  deriving DecidableEq

abbrev Disk := Option AgentFile

/-- How a call of a function with an `error` result ends. -/
inductive Ret where
  | nil
  | error (text : GoString)
  | panic
  deriving DecidableEq

/-- `downFile`. When the size is wrong there is no error whose text could be logged, and the call of
`err.Error()` panics. -/
def downFile (a : Attempt) (disk : Disk) : Ret × Disk :=
  match a.request with
  | some err => (.error err, disk)
  | none =>
    match a.create with
    | some err => (.error err, disk)
    | none =>
      match a.stat with
      | some _ => (.error (str "downfile error"), some ⟨.downloaded, a.copied⟩)
      | none =>
        if (a.copied.length : ℤ) ≠ a.contentLength then (.panic, some ⟨.downloaded, a.copied⟩)
        else (.nil, some ⟨.downloaded, a.copied⟩)

/-- `FileMD5String`, without its error: `DownAgent` drops it. -/
def fileMD5String (a : Attempt) (disk : Disk) : GoString :=
  match disk, a.readable with
  | some file, some n => hexEncode (md5 (file.content.take n))
  | _, _ => []

/-- `CheckAgentHash`. The hash, a text already, is put into the URL with the verb `%x`. -/
def checkAgentHash (a : Attempt) (fileHash : GoString) : Bool :=
  match a.check (hexEncode fileHash) with
  | .body result => str "1" == result
  | _ => false

/-- The loop of `DownAgent`, with `times` turns left and `i` turns done. -/
def downLoop (attempt : ℕ → Attempt) : ℕ → ℕ → Disk → Ret × Disk
  | 0, _, disk => (.error (str "Agent Download Error"), disk)
  | times + 1, i, disk =>
    match downFile (attempt i) disk with
    | (.panic, disk) => (.panic, disk)
    | (.error _, disk) => downLoop attempt times (i + 1) disk
    | (.nil, disk) =>
      if checkAgentHash (attempt i) (fileMD5String (attempt i) disk) then (.nil, disk)
      else downLoop attempt times (i + 1) disk

def downAgent (attempt : ℕ → Attempt) (disk : Disk) : Ret × Disk := downLoop attempt 3 0 disk

/-! ## The attempts -/

/-- The steps of `downFile` all succeed and the whole body arrives. -/
structure Attempt.Stored (a : Attempt) : Prop where
  request : a.request = none
  create : a.create = none
  stat : a.stat = none
  complete : (a.copied.length : ℤ) = a.contentLength

/-- The body that arrives has not the announced length. -/
structure Attempt.Crashes (a : Attempt) : Prop where
  request : a.request = none
  create : a.create = none
  stat : a.stat = none
  incomplete : (a.copied.length : ℤ) ≠ a.contentLength

/-- The answer to the check of the file the attempt stores. -/
def Attempt.answer (a : Attempt) : Answer :=
  a.check (hexEncode (fileMD5String a (some ⟨.downloaded, a.copied⟩)))

/-- The attempt stores a body and its check is answered with 1. -/
def Attempt.Passes (a : Attempt) : Prop := a.Stored ∧ a.answer = .body (str "1")

/-- Attempt `i` is the first one with `p`, and no earlier one crashes. -/
structure FirstAttempt (attempt : ℕ → Attempt) (p : Attempt → Prop) (i : ℕ) : Prop where
  lt : i < 3
  holds : p (attempt i)
  earlier : ∀ j < i, ¬ p (attempt j) ∧ ¬ (attempt j).Crashes

/-! ## The turns of the loop -/

/-- A turn of the loop of `DownAgent`: what `downFile` returned, and whether the file was checked
with success. -/
structure Turn where
  download : Ret
  passed : Bool
  deriving DecidableEq

def turn (a : Attempt) (disk : Disk) : Turn × Disk :=
  match downFile a disk with
  | (.nil, disk) => (⟨.nil, checkAgentHash a (fileMD5String a disk)⟩, disk)
  | (ret, disk) => (⟨ret, false⟩, disk)

/-- The turns that the loop makes. -/
def downTurns (attempt : ℕ → Attempt) : ℕ → ℕ → Disk → List Turn
  | 0, _, _ => []
  | times + 1, i, disk =>
    let t := turn (attempt i) disk
    if t.1.passed ∨ t.1.download = .panic then [t.1]
    else t.1 :: downTurns attempt times (i + 1) t.2

/-- What the loop returns after these turns. -/
def retOf (turns : List Turn) : Ret :=
  if turns.any (·.passed) then .nil
  else if turns.any (·.download = .panic) then .panic
  else .error (str "Agent Download Error")

/-- What the daemon should do with a broken download: no call of `downFile` panics, it returns nil
for a complete body only, and every turn that fails is followed by another one, up to three. -/
structure RetriesBroken (attempt : ℕ → Attempt) (disk : Disk) : Prop where
  noPanic : ∀ t ∈ downTurns attempt 3 0 disk, t.download ≠ .panic
  complete : ∀ i before after, downFile (attempt i) before = (.nil, after) →
    ∃ file, after = some file ∧ (file.content.length : ℤ) = (attempt i).contentLength ∧
      ∀ body : List UInt8, (body.length : ℤ) = (attempt i).contentLength →
        file.content <+: body → file.content = body
  atMost : (downTurns attempt 3 0 disk).length ≤ 3
  next : ∀ k t, (downTurns attempt 3 0 disk)[k]? = some t → t.passed = false → k + 1 < 3 →
    k + 1 < (downTurns attempt 3 0 disk).length
  fails : (∀ t ∈ downTurns attempt 3 0 disk, t.passed = false) →
    ∃ err, (downAgent attempt disk).1 = .error err

end YulongHids.Daemon
