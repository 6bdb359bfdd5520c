import YulongHids.Golang.Strings
import YulongHids.Text.Words

/-!
# Crontab entries

`GetCrontab` (`agent/collect/crontab_linux.go`). The format of the files is that of `crontab(5)`:
an entry has five schedule fields, a user in the system crontab only, and a command, with blanks and
tabs between them.
-/

namespace YulongHids.Agent

open Golang Text

/-- A record of the type `crontab`. -/
structure CronRecord where
  command : GoString
  user : GoString
  rule : GoString
  deriving DecidableEq

/-- The body of the loop over `/etc/crontab`. -/
def systemRecord (info : GoString) : Option CronRecord :=
  if str "#" <+: info ∨ info.count 32 < 6 then none
  else
    let s := splitN info 32 7
    let rule := splitHead (32 :: s.getD 5 []) info
    some { command := s.getD 6 [], user := s.getD 5 [], rule := rule }

/-- The body of the loop over a file of `/var/spool/cron`. -/
def userRecord (name info : GoString) : Option CronRecord :=
  if str "#" <+: info ∨ info.count 32 < 5 then none
  else
    let s := splitN info 32 6
    let rule := splitHead (32 :: s.getD 5 []) info
    some { command := s.getD 5 [], user := name, rule := rule }

/-- An entry of the spool directory. -/
inductive SpoolItem where
  | dir
  | unreadable
  | file (dat : GoString)

/-- The system crontab and the spool directory, `none` if they cannot be read. -/
structure CronFiles where
  crontab : Option GoString
  spool : Option (List (GoString × SpoolItem))

def spoolRecords (f : GoString × SpoolItem) : List CronRecord :=
  match f.2 with
  | .file dat => (split dat 10).filterMap (userRecord f.1)
  | _ => []

def getCrontab (files : CronFiles) : List CronRecord :=
  match files.crontab with
  | none => []
  | some dat =>
    let resultData := (split dat 10).filterMap systemRecord
    match files.spool with
    | none => resultData
    | some dir => resultData ++ dir.flatMap spoolRecords

/-! ## The format of the files -/

def cronSpace (b : UInt8) : Bool := b == 32 || b == 9

/-- Blanks and tabs. -/
def IsSpace (s : GoString) : Prop := ∀ b ∈ s, cronSpace b = true

def IsGap (s : GoString) : Prop := s ≠ [] ∧ IsSpace s

/-- A word on a line. -/
def IsCronWord (w : GoString) : Prop := w ≠ [] ∧ ∀ b ∈ w, cronSpace b = false ∧ b ≠ 10

/-- A schedule field has neither the mark of a comment nor that of an assignment. -/
def IsCronField (w : GoString) : Prop := IsCronWord w ∧ 35 ∉ w ∧ 61 ∉ w

/-- The rest of a line from the command on. -/
def IsCommand (s : GoString) : Prop := 10 ∉ s ∧ s.head?.any (fun b => !cronSpace b) = true

instance (s : GoString) : Decidable (IsSpace s) := List.decidableBAll _ s

instance (s : GoString) : Decidable (IsGap s) := inferInstanceAs (Decidable (_ ∧ _))

instance (w : GoString) : Decidable (IsCronWord w) :=
  @instDecidableAnd _ _ inferInstance (List.decidableBAll _ w)

instance (w : GoString) : Decidable (IsCronField w) := inferInstanceAs (Decidable (_ ∧ _))

instance (s : GoString) : Decidable (IsCommand s) := inferInstanceAs (Decidable (_ ∧ _))

/-- Five fields, each with the space behind it. -/
structure Schedule where
  parts : List (GoString × GoString)
  five : parts.length = 5
  formed : ∀ p ∈ parts, IsCronField p.1 ∧ IsGap p.2

def Schedule.fields (s : Schedule) : List GoString := s.parts.map Prod.fst

def Schedule.text (s : Schedule) : GoString := s.parts.flatMap fun p => p.1 ++ p.2

/-- An entry of the system crontab. -/
structure SystemEntry where
  schedule : Schedule
  user : GoString
  gap : GoString
  command : GoString
  formed : IsCronWord user ∧ IsGap gap ∧ IsCommand command

/-- An entry of a user's crontab. -/
structure UserEntry where
  schedule : Schedule
  command : GoString
  formed : IsCommand command

def SystemEntry.text (e : SystemEntry) : GoString :=
  e.schedule.text ++ (e.user ++ (e.gap ++ e.command))

def UserEntry.text (e : UserEntry) : GoString := e.schedule.text ++ e.command

def IsComment (s : GoString) : Prop :=
  ∃ indent text, s = indent ++ 35 :: text ∧ IsSpace indent ∧ 10 ∉ text

def IsAssignment (s : GoString) : Prop :=
  ∃ indent name gap value, s = indent ++ (name ++ (gap ++ 61 :: value)) ∧ IsSpace indent ∧
    (IsCronWord name ∧ 61 ∉ name ∧ name.head? ≠ some 35) ∧ IsSpace gap ∧ 10 ∉ value

/-- A line of a crontab: an entry, or one that is empty, a comment or an assignment. -/
inductive CronLine (ε : Type) where
  | entry (e : ε)
  | other (text : GoString) (h : IsSpace text ∨ IsComment text ∨ IsAssignment text)

def CronLine.text {ε : Type} (entryText : ε → GoString) : CronLine ε → GoString
  | .entry e => entryText e
  | .other text _ => text

/-- What is to be reported for a line. -/
def systemWanted : CronLine SystemEntry → Option (Schedule × GoString × GoString)
  | .entry e => some (e.schedule, e.user, e.command)
  | .other .. => none

def userWanted (name : GoString) : CronLine UserEntry → Option (Schedule × GoString × GoString)
  | .entry e => some (e.schedule, name, e.command)
  | .other .. => none

/-- A record for an entry: its user, its command, and a rule with its five fields. -/
def CronRecord.Reports (r : CronRecord) (e : Schedule × GoString × GoString) : Prop :=
  r.user = e.2.1 ∧ r.command = e.2.2 ∧ Text.fields cronSpace r.rule = e.1.fields

/-! ## Where the parser follows the format -/

/-- The gaps of the schedule have five blanks in all, and the last one ends with a blank. -/
def Schedule.Aligned (s : Schedule) : Prop := s.text.count 32 = 5 ∧ s.text.getLast? = some 32

/-- Behind a blank, `key` does not occur in the line before the position `n`. -/
def NotBefore (key line : GoString) (n : ℕ) : Prop := ∀ t, t ++ 32 :: key <+: line → n ≤ t.length + 1

/-- The line is passed over. -/
def Skipped (info : GoString) (blanks : ℕ) : Prop := str "#" <+: info ∨ info.count 32 < blanks

def SystemLineOk : CronLine SystemEntry → Prop
  | .entry e => e.schedule.Aligned ∧ e.gap = [32] ∧
      NotBefore e.user e.text e.schedule.text.length
  | .other text _ => Skipped text 6

def UserLineOk : CronLine UserEntry → Prop
  | .entry e => e.schedule.Aligned ∧ NotBefore e.command e.text e.schedule.text.length
  | .other text _ => Skipped text 5

/-- A file of the spool directory, given by its lines. -/
inductive SpoolFile where
  | dir
  | unreadable
  | file (lines : List (CronLine UserEntry))

def SpoolFile.item : SpoolFile → SpoolItem
  | .dir => .dir
  | .unreadable => .unreadable
  | .file lines => .file (join (lines.map (CronLine.text UserEntry.text)) [10])

def SpoolFile.lines : SpoolFile → List (CronLine UserEntry)
  | .file lines => lines
  | _ => []

/-- The files with these lines. -/
def cronFiles (crontab : List (CronLine SystemEntry)) (spool : List (GoString × SpoolFile)) :
    CronFiles where
  crontab := some (join (crontab.map (CronLine.text SystemEntry.text)) [10])
  spool := some (spool.map fun f => (f.1, f.2.item))

/-- What is to be reported, in order. -/
def cronWanted (crontab : List (CronLine SystemEntry)) (spool : List (GoString × SpoolFile)) :
    List (Schedule × GoString × GoString) :=
  crontab.filterMap systemWanted ++ spool.flatMap fun f => f.2.lines.filterMap (userWanted f.1)

end YulongHids.Agent
