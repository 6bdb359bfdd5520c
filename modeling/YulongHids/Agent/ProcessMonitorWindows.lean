import YulongHids.Agent.ProcessMonitor

/-!
# The Windows process monitor of the agent

The read loop of `StartProcessMonitor` (`agent/monitor/process_windows.go`). A message has five
fields with `|` between them. The command is not among them and is asked of WMI with the vendored
client, `Query` and `loadEntity` (`wmi.go`), whose value for it may be null.
-/

namespace YulongHids.Agent

open Golang

/-! ## The query -/

/-- What `GetProperty` and `Value` come to for a column of a row. -/
inductive WmiColumn where
  | missing
  | null
  | text (s : GoString)
  | other

/-- The columns of a row of the class `Win32_Process` that are asked for. -/
structure WmiRow where
  name : WmiColumn
  commandLine : WmiColumn

/-- `process`; `none` is the nil pointer. -/
structure WinProcess where
  name : GoString
  commandLine : Option GoString

/-- One turn of the loop of `loadEntity`, for a field that is a string or, with `isPtr`, a pointer to
one: `none` for a mismatch that ends the loop, else the string and whether the column is missing. The
client is the default one, for which a null leaves a pointer to the empty string. -/
def loadField (isPtr : Bool) : WmiColumn → Option (GoString × Bool)
  | .missing => some ([], true)
  | .null => if isPtr then some ([], false) else none
  | .text s => some (s, false)
  | .other => none

/-- `loadEntity`: the entity, and whether a mismatch is reported. The pointer of a field is made in
front of everything else. -/
def loadEntity (row : WmiRow) : WinProcess × Bool :=
  match loadField false row.name with
  | none => (⟨[], none⟩, true)
  | some (name, missing) =>
    match loadField true row.commandLine with
    | none => (⟨name, some []⟩, true)
    | some (commandLine, missing') => (⟨name, some commandLine⟩, missing || missing')

/-- `wmi.Query`: what it leaves in `dst`, and whether it returns an error. The rows are `none` if one
of the calls to get them fails; a mismatch is returned behind the last row. -/
def wmiQuery : Option (List WmiRow) → List WinProcess × Bool
  | none => ([], true)
  | some rows => (rows.map fun row => (loadEntity row).1, rows.any fun row => (loadEntity row).2)

/-- `getProcessInfo`, `none` for `false`. -/
def getProcessInfo (rows : Option (List WmiRow)) : Option WinProcess :=
  match wmiQuery rows with
  | (info :: _, false) => some info
  | _ => none

/-! ## The loop -/

/-- A datagram, and the rows that the query for a process number has when it is handled. -/
structure WinMessage where
  datagram : List UInt8
  rows : GoString → Option (List WmiRow)

/-- `proList`: the fields of `buf[0:n-1]`. -/
def winProList (buf : List UInt8) : List GoString := split buf.dropLast 124

/-- The record built from the fields of a message, with the name and the command of the process. -/
def winProcessRecord (p : List GoString) (name command : GoString) : Record :=
  (∅ : Record)
    |>.insert (str "source") (str "process")
    |>.insert (str "name") name
    |>.insert (str "pid") (p.getD 2 [])
    |>.insert (str "parentname") (p.getD 3 [])
    |>.insert (str "ppid") (p.getD 4 [])
    |>.insert (str "command") command
    |>.insert (str "info") []

/-- The end of an iteration: here the filter is applied to the new record. -/
def winReport (txt : TextLib) (filter : List GoString) (r : Record) : Turn :=
  if filtered txt filter r then .skip else .send r

/-- One iteration of the loop. The slice, the index 4 and the pointer to the command line may each
panic. -/
def winTurn (txt : TextLib) (filter : List GoString) (getpid : ℤ) (m : WinMessage) : Turn :=
  let buf := readFromUDP m.datagram
  if buf = [] then .panic
  else
    let p := winProList buf
    if p.length ≤ 4 then .panic
    else if (atoi (p.getD 4 [])).1 = getpid then .skip
    else
      match getProcessInfo (m.rows (p.getD 2 [])) with
      | none => winReport txt filter (winProcessRecord p (p.getD 1 []) [])
      | some info =>
        match info.commandLine with
        | none => .panic
        | some command => winReport txt filter (winProcessRecord p info.name command)

/-- The iterations of the loop, up to one that panics. -/
def winTurns (txt : TextLib) (filter : List GoString) (getpid : ℤ) (messages : List WinMessage) :
    List Turn :=
  turnsOf (winTurn txt filter getpid) messages

/-- The fields of a datagram, as far as it fits into the buffer. -/
def winFields (datagram : List UInt8) : List GoString := winProList (readFromUDP datagram)

/-- A message with at least five fields. -/
structure WinMessage.Sound (m : WinMessage) : Prop where
  nonempty : m.datagram ≠ []
  fields : 5 ≤ (winFields m.datagram).length

end YulongHids.Agent
