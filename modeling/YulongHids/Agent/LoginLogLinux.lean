import YulongHids.Golang.Strings
import YulongHids.Transition.Run

/-!
# Login records on Linux

`GetLoginLog` (`agent/collect/loginlog_linux.go`) reads the successful logins from `wtmp` and the
failed ones from the output of `lastb`. Both start from `Lasttime`, the latest time among the records
that the server has stored for the host (`QueryLogLastTime`, `server/models/es.go`).

Times are in seconds since 1970. The texts in which agent and server exchange them have the precision
of a second too, and are not modelled.
-/

namespace YulongHids.Agent

open Golang Transition

/-- `utmp`, an entry of one of the two logs. -/
structure Utmp where
  utType : ℕ
  utUser : GoString
  utHost : GoString
  tvSec : ℕ

/-- A record of the type `loginlog`. -/
structure LoginRecord where
  status : Bool
  remote : GoString
  username : GoString
  time : ℤ
  deriving DecidableEq

/-- `Lasttime`, where `none` is "all". -/
abbrev Lasttime := Option ℤ

/-- The `timestamp` of `getLast`. -/
def timestamp (t : Lasttime) : ℤ := t.getD 615147123

def remoteHost (wtmp : Utmp) : GoString := trimRight wtmp.utHost 0

def lastRecord (wtmp : Utmp) : LoginRecord :=
  ⟨true, remoteHost wtmp, trimRight wtmp.utUser 0, wtmp.tvSec⟩

/-- The loop of `getLast`. -/
def getLast (t : Lasttime) : List Utmp → List LoginRecord
  | [] => []
  | wtmp :: rest =>
    if wtmp.utType = 7 ∧ timestamp t < wtmp.tvSec then
      if remoteHost wtmp = [] then getLast t rest else lastRecord wtmp :: getLast t rest
    else getLast t rest

/-- The record of a line of `lastb`; the third and the fourth field are the host and the time. -/
def lastbLine (parseTime : GoString → ℤ) (v : GoString) : Option LoginRecord :=
  let s := split (replaceSpaces (trimSpace v)) 32
  if s.length < 4 then none
  else some ⟨false, s.getD 2 [], s.getD 0 [], parseTime (s.getD 3 [])⟩

/-- `getLastb` on the output of the command, `none` if the slice without its last three lines is out
of range. -/
def getLastb (parseTime : GoString → ℤ) (out : GoString) : Option (List LoginRecord) :=
  let logList := split out 10
  if logList.length < 3 then none
  else some ((logList.take (logList.length - 3)).filterMap (lastbLine parseTime))

/-! ## Polls -/

/-- What `getLastb` calls: the output of `lastb` for the entries of `btmp`, from a time on if one is
given, and `time.Parse` with the layout of its times. -/
structure LastbLib where
  lastb : List Utmp → Lasttime → GoString
  parseTime : GoString → ℤ

/-- A poll between its two reads: the result of the first, and for the statements the lengths of the
logs when it started. -/
structure OpenPoll where
  resultData : List LoginRecord
  wtmpLen : ℕ
  btmpLen : ℕ

/-- The logs of a host and the login records that the server has stored for it. For the statements:
the latest time of a login so far, and how much of the logs the last complete poll has read. -/
structure LoginState where
  wtmp : List Utmp
  btmp : List Utmp
  poll : Option OpenPoll
  stored : List LoginRecord
  now : ℕ
  wtmpRead : ℕ
  btmpRead : ℕ

/-- `QueryLogLastTime`. -/
def LoginState.lasttime (s : LoginState) : Lasttime := (s.stored.map LoginRecord.time).max?

/-- What `lastb` prints for an entry: its line, and in it the name and the host, which may be
shortened. -/
structure LastbFormat where
  line : Utmp → GoString
  user : Utmp → GoString
  host : Utmp → GoString

/-- A text with no space in it. -/
def IsWord (w : GoString) : Prop := w ≠ [] ∧ ∀ b ∈ w, ¬ (9 ≤ b ∧ b ≤ 13) ∧ b ≠ 32

instance (w : GoString) : Decidable (IsWord w) :=
  @instDecidableAnd _ _ inferInstance (List.decidableBAll _ w)

def blanks (n : ℕ) : GoString := List.replicate (n + 1) 32

/-- Name, terminal, host and time, with blanks between them, and what follows. -/
def lastbText (user tty host time : GoString) (gaps : ℕ × ℕ × ℕ) (rest : GoString) : GoString :=
  user ++ (blanks gaps.1 ++ (tty ++ (blanks gaps.2.1 ++ (host ++ (blanks gaps.2.2 ++
    (time ++ 32 :: rest))))))

/-- The line of an entry has these columns, and its time is the time of the entry. -/
def HasColumns (lib : LastbLib) (fmt : LastbFormat) (u : Utmp) : Prop :=
  ∃ tty time gaps rest, fmt.line u = lastbText (fmt.user u) tty (fmt.host u) time gaps rest ∧
    IsWord (fmt.user u) ∧ IsWord tty ∧ IsWord (fmt.host u) ∧ IsWord time ∧
    lib.parseTime time = u.tvSec

/-- The record of a failed login. -/
def failedRecord (fmt : LastbFormat) (u : Utmp) : LoginRecord :=
  ⟨false, fmt.host u, fmt.user u, u.tvSec⟩

end YulongHids.Agent
