import YulongHids.Agent.Filters
import YulongHids.Server.Warning

/-!
# What the entries of the lists mean

The lists are documented once (`docs/help.md`) for the black list, the white list and the filter of
the agent. `BlackFilter` and `WhiteFilter` of the server take their own choices.
-/

namespace YulongHids.Server

open Golang

section Meaning

variable (txt : TextLib)

/-- An expression matches. -/
def Matches (e s : GoString) : Prop := ∃ re, txt.compile e = some re ∧ re s = true

/-- An entry for processes: a regular expression for the name or the command. -/
def MatchesProcess (e : GoString) (v : Record) : Prop :=
  Matches txt e (txt.toLower (v.get (str "name"))) ∨
    Matches txt e (txt.toLower (v.get (str "command")))

/-- An entry for files: a hash, or a regular expression for the path. -/
def MatchesFile (e : GoString) (v : Record) : Prop :=
  if Agent.isHash e = true then txt.toLower e = txt.toLower (v.get (str "hash"))
  else Matches txt e (txt.toLower (v.get (str "path")))

/-- A record is on one of the lists for processes, addresses and files. -/
def Documented (lists : FilterLists) (type : GoString) (v : Record) : Prop :=
  (type = str "process" ∧ ∃ e ∈ lists.process, MatchesProcess txt e v) ∨
    (type = str "connection" ∧ cutPort (v.get (str "remote")) ∈ lists.ip) ∨
    (type = str "loginlog" ∧ v.get (str "remote") ∈ lists.ip) ∨
    (type = str "file" ∧ ∃ e ∈ lists.file, MatchesFile txt e v)

/-- The filter of the agent for a record of the three kinds that have one. The monitor had `before` as
its record before. -/
def agentFilter (lists : FilterLists) (c : Check) (before : Record) : Bool :=
  if c.info.type = str "process" then
    Agent.processFiltered txt lists.process c.info.system before c.v
  else if c.info.type = str "connection" then
    Agent.ipFiltered txt lists.ip (cutPort (c.v.get (str "remote")))
  else Agent.fileFiltered txt lists.file c.v

/-- The list for everything else alone. -/
def FilterLists.onlyOther (lists : FilterLists) : FilterLists := ⟨[], [], [], lists.other⟩

/-- Both filters of the server find exactly the records that are on a list, and find what the agent
finds. A record of another kind is a matter of the list for the others. -/
def AsDocumented (lists : FilterLists) (before : Record) (c : Check) : Prop :=
  (c.whiteFilter txt lists = true ↔ Documented txt lists c.info.type c.v ∨
      c.info.type ∉ ["process", "connection", "loginlog", "file"].map str ∧
        c.whiteFilter txt lists.onlyOther = true) ∧
    ((c.blackFilter txt lists).alerts ≠ [] ↔ c.whiteFilter txt lists = true) ∧
    (c.info.type ∈ ["process", "connection", "file"].map str →
      (c.whiteFilter txt lists = true ↔ agentFilter txt lists c before = true))

/-- The choices of the server and of the agent do not matter for a record. -/
structure ChoicesAgree (lists : FilterLists) (before : Record) (c : Check) : Prop where
  /-- The command is not matched at all: a process on the list is there by its name too, and not by
  the empty entry alone. -/
  process : c.info.type = str "process" → (∃ e ∈ lists.process, MatchesProcess txt e c.v) →
    ∃ e ∈ lists.process, e ≠ [] ∧ Matches txt e (txt.toLower (c.v.get (str "name")))
  /-- On Linux the agent looks at the process before: it is on the list exactly if this one is. -/
  processBefore : c.info.type = str "process" → c.info.system ≠ str "windows" →
    ((∃ e ∈ lists.process, MatchesProcess txt e before) ↔
      ∃ e ∈ lists.process, MatchesProcess txt e c.v)
  /-- An address is searched for in lower case. -/
  connection : c.info.type = str "connection" →
    (txt.toLower (cutPort (c.v.get (str "remote"))) ∈ lists.ip ↔
      cutPort (c.v.get (str "remote")) ∈ lists.ip)
  loginlog : c.info.type = str "loginlog" →
    (txt.toLower (c.v.get (str "remote")) ∈ lists.ip ↔ c.v.get (str "remote") ∈ lists.ip)
  /-- Of a file only the hash is searched for, in lower case: a file on the list is there by it too. -/
  file : c.info.type = str "file" → (∃ e ∈ lists.file, MatchesFile txt e c.v) →
    txt.toLower (c.v.get (str "hash")) ∈ lists.file
  /-- What is found in this way has the form of a hash, or is on the list anyway. -/
  hash : c.info.type = str "file" → txt.toLower (c.v.get (str "hash")) ∈ lists.file →
    Agent.isHash (txt.toLower (c.v.get (str "hash"))) = true ∨
      ∃ e ∈ lists.file, MatchesFile txt e c.v
  /-- The agent takes every entry for an expression, too: a file whose path a hash matches is on the
  list anyway. -/
  path : c.info.type = str "file" →
    (∃ e ∈ lists.file, Agent.isHash e = true ∧ Matches txt e (txt.toLower (c.v.get (str "path")))) →
    ∃ e ∈ lists.file, MatchesFile txt e c.v
  /-- The entries for files are matched against the commands of scheduled tasks. -/
  crontab : c.info.type = str "crontab" →
    ∀ e ∈ lists.file, e ≠ [] → ¬ Matches txt e (txt.toLower (c.v.get (str "command")))

end Meaning

end YulongHids.Server
