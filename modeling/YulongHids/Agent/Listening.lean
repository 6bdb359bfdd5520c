import YulongHids.Server.Intelligence
import YulongHids.Web.QueryString

/-!
# Listening ports on Linux

`GetListening` (`agent/collect/listen_linux.go`) reads the output of `ss -nltp`: a heading, a line
for each socket, and at the end of a line, where it is visible, the process that listens.
-/

namespace YulongHids.Agent

open Golang
open Server (replaceFirst)
open Web (trimUnicode)

/-- A record of the type `listening`. -/
structure ListenRecord where
  proto : GoString
  address : GoString
  pid : GoString
  name : GoString
  deriving DecidableEq

/-- `FindSubmatch` of the expression `users:\(\("(.*?)",(.*?),.*?\)`: its two groups. Each `.*?` ends
at the first place where the next letters of the expression occur. -/
def usersSubmatch (s : GoString) : Option (GoString × GoString) := do
  let (_, s) ← cut (str "users:((\"") s
  let (name, s) ← cut (str "\",") s
  let (users, s) ← cut (str ",") s
  let _ ← cut (str ")") s
  some (name, users)

/-- The fields of a line. -/
def ssFields (info : GoString) : List GoString := split (replaceSpaces (trimUnicode info)) 32

def listenAddress (s3 : GoString) : GoString :=
  if contains s3 (str "::") then replaceFirst (str "::") (str "0.0.0.0") s3
  else replaceFirst (str "*") (str "0.0.0.0") s3

/-- The second group without `pid=`, `none` for an index out of range. -/
def listenPid (users : GoString) : Option GoString :=
  if contains users (str "=") then (splitN users 61 2)[1]? else some users

/-- The loop of `GetListening`, `none` for a panic: when the expression does not match, the match is
nil. -/
def listenLoop : List GoString → List ListenRecord → Option (List ListenRecord)
  | [], resultData => some resultData
  | info :: rest, resultData =>
    if contains info (str "127.0.0.1") then listenLoop rest resultData
    else
      let s := ssFields info
      if s.length < 6 then listenLoop rest resultData
      else
        let address := listenAddress (s.getD 3 [])
        if resultData.any (·.address == address) then listenLoop rest resultData
        else
          match usersSubmatch (s.getD 5 []) with
          | none => none
          | some (name, users) =>
            match listenPid users with
            | none => none
            | some pid => listenLoop rest (resultData ++ [⟨str "TCP", address, pid, name⟩])

/-- The lines without the first and the last. -/
def ssLines (listeningStr : GoString) : List GoString :=
  ((split listeningStr 10).take ((split listeningStr 10).length - 1)).drop 1

def getListening (listeningStr : GoString) : Option (List ListenRecord) :=
  if (split listeningStr 10).length < 2 then some [] else listenLoop (ssLines listeningStr) []

/-! ## Lines that are safe -/

/-- A line of a socket with a process column that is not local. -/
def Listens (info : GoString) : Prop :=
  contains info (str "127.0.0.1") = false ∧ 6 ≤ (ssFields info).length

def addressOf (info : GoString) : GoString := listenAddress ((ssFields info).getD 3 [])

/-- A process column shows a process: its name in quotes and two items separated by commas. -/
def ShowsProcess (s : GoString) : Prop :=
  ∃ before name users more rest, s = before ++ (str "users:((\"" ++ (name ++ (str "\"," ++
    (users ++ (str "," ++ (more ++ (str ")" ++ rest)))))))

/-- The first line of every address shows its process. -/
def ProcessesShown (lines : List GoString) : Prop :=
  ∀ p info rest, lines = p ++ info :: rest → Listens info →
    (∀ x ∈ p, Listens x → addressOf x ≠ addressOf info) → ShowsProcess ((ssFields info).getD 5 [])

end YulongHids.Agent
