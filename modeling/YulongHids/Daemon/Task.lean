import YulongHids.Daemon.Supervision
import YulongHids.Daemon.Update
import YulongHids.Text.Shell

/-!
# The tasks of the daemon

`Task.Run` and its handlers (`daemon/task/task.go`, `daemon/task/kill.go`), with `KillAgent` and
`CmdExec` (`daemon/common/common.go`).
-/

namespace YulongHids.Daemon

open Golang

/-- A run of a shell command: the error, and what it prints. -/
structure CommandRun where
  err : Option GoString
  out : List UInt8

/-- What the tasks meet. -/
structure TaskEnv where
  /-- Whether `runtime.GOOS` is `windows`. -/
  windows : Bool
  agentStatus : Bool
  cmd : Cmd
  /-- The error of `Process.Kill` on a process that was not reaped. -/
  killError : Option GoString
  command : GoString → CommandRun
  /-- `ConvertString` of the decoder for `gbk`. -/
  convertString : GoString → GoString
  /-- Whether the command that is to end the processes of a name ends them. -/
  ended : GoString → Bool
  update : UpdateEnv
  /-- The content of the agent's file, if there is one. -/
  installed : Option (List UInt8)
  /-- The error of `os.Remove`. -/
  remove : GoString → Option GoString

section Actions

variable (env : TaskEnv)

/-- `KillAgent`, `none` for the panic on a nil process. -/
def killAgent : Option (Option GoString) :=
  if env.agentStatus then
    if env.cmd.hasProcess then
      some (if env.cmd = .reaped then some (str "os: process already finished") else env.killError)
    else none
  else some none

/-- `CmdExec` -/
def cmdExec (cmd : GoString) : GoString × Option GoString :=
  match (env.command cmd).err with
  | some err => ([], some err)
  | none =>
    (if env.windows then env.convertString (env.command cmd).out else (env.command cmd).out, none)

/-- `[a-zA-Z0-1\\.\\-_]` -/
def nameByte (c : UInt8) : Bool :=
  (97 ≤ c && c ≤ 122) || (65 ≤ c && c ≤ 90) || (48 ≤ c && c ≤ 49) || c == 46 || c == 45 || c == 95

/-- The match of a process name: one byte or more, all of them of that class. -/
def nameMatches (processName : GoString) : Bool :=
  processName != [] && processName.all nameByte

/-- The command that ends the processes of a name. -/
def killCommand (processName : GoString) : GoString :=
  if env.windows then str "taskkill.exe /f /im " ++ processName
  else str "kill -9 $(pidof " ++ processName ++ str ")"

/-- `KillProcess` -/
def killProcess (processName : GoString) : GoString :=
  if nameMatches processName then (cmdExec env (killCommand env processName)).1 else []

/-- Whether `agentUpdate` gets to its call of `KillAgent`. -/
def updateKills : Bool :=
  match env.installed with
  | none => false
  | some content =>
    env.update.openError.isNone && env.update.answer content == .body (str "1")

/-- `agentUpdate` with the panic that `KillAgent` may bring into it. -/
def updateAgent : Option (Bool × Option GoString) × Disk :=
  if updateKills env && (killAgent env).isNone then (none, env.installed.map installedFile)
  else agentUpdate env.update (env.installed.map installedFile)

end Actions

structure Task where
  type : GoString
  command : GoString
  result : Record

/-- The task that `tcpPipe` builds. -/
def newTask (type command : GoString) : Task where
  type := type
  command := command
  result := (∅ : Record) |>.insert (str "status") (str "false") |>.insert (str "data") []

section Handlers

variable (env : TaskEnv) (t : Task)

/-- `reload`: the result afterwards, `none` if there is none because the daemon panics. -/
def Task.reload : Option Record :=
  let result := t.result.insert (str "status") (str "true")
  match killAgent env with
  | none => none
  | some none => some result
  | some (some err) =>
    some (result |>.insert (str "status") (str "false") |>.insert (str "data") err)

def Task.kill : Record :=
  let redata := killProcess env t.command
  if redata ≠ [] then
    t.result |>.insert (str "status") (str "true") |>.insert (str "data") redata
  else t.result

def Task.update : Option Record :=
  match (updateAgent env).1 with
  | none => none
  | some (_, some err) => some (t.result.insert (str "data") err)
  | some (true, none) =>
    some (t.result |>.insert (str "status") (str "true") |>.insert (str "data") (str "更新完毕"))
  | some (false, none) =>
    some (t.result |>.insert (str "status") (str "true")
      |>.insert (str "data") (str "已经是最新版本"))

def Task.delete : Record :=
  match env.remove t.command with
  | none =>
    t.result |>.insert (str "status") (str "true")
      |>.insert (str "data") (t.command ++ str " 删除成功")
  | some err => t.result.insert (str "data") err

/-- `Run`, up to the encoding of the result. `quit` and `uninstall` end the daemon. -/
def Task.run : Option Record :=
  if t.type = str "reload" then t.reload env
  else if t.type = str "quit" then none
  else if t.type = str "kill" then some (t.kill env)
  else if t.type = str "uninstall" then none
  else if t.type = str "update" then t.update env
  else if t.type = str "delete" then some (t.delete env)
  else some t.result

end Handlers

/-! ## What the tasks are for -/

/-- The tasks whose result tells whether they took effect. -/
inductive ReportedTask where
  | reload
  | kill
  | update
  | delete

def ReportedTask.type : ReportedTask → GoString
  | .reload => str "reload"
  | .kill => str "kill"
  | .update => str "update"
  | .delete => str "delete"

/-- An attempt that stores a body whose check is answered with 1. -/
def Replaces (a : Attempt) : Prop := a.Stored ∧ a.answer = .body (str "1")

/-- An agent that ran was killed; the processes of the name were ended; the agent is the one that the
console has, by its own answer or by a download; the file was removed. -/
def TookEffect (env : TaskEnv) (command : GoString) : ReportedTask → Prop
  | .reload => env.agentStatus = true ∧ env.cmd = .running ∧ env.killError = none
  | .kill => nameMatches command = true ∧ env.ended command = true
  | .update =>
    (∃ content, env.installed = some content ∧ env.update.openError = none ∧
      env.update.answer content = .body (str "0")) ∨
    ∃ i, FirstAttempt env.update.attempt Replaces i ∧
      (updateAgent env).2 = some ⟨.downloaded, (env.update.attempt i).copied⟩
  | .delete => env.remove command = none

/-- The result says truly whether the task took effect. -/
def ReportsTruly (env : TaskEnv) (command : GoString) (task : ReportedTask) : Prop :=
  ∃ result, (newTask task.type command).run env = some result ∧
    (result.get (str "status") = str "true" ∧ TookEffect env command task ∨
      result.get (str "status") = str "false" ∧ ¬ TookEffect env command task)

/-- How the commands behave for a name that is passed to them: their exit status tells whether the
processes were ended; if so, `kill` of Linux prints nothing and `taskkill.exe` prints a message, and a
text that is not empty is not empty when it is decoded. -/
structure Conventional (env : TaskEnv) : Prop where
  status : ∀ name, nameMatches name = true →
    ((env.command (killCommand env name)).err = none ↔ env.ended name = true)
  quiet : env.windows = false → ∀ name, nameMatches name = true →
    (env.command (killCommand env name)).err = none →
    (env.command (killCommand env name)).out = []
  message : env.windows = true → ∀ name, nameMatches name = true →
    (env.command (killCommand env name)).err = none →
    (env.command (killCommand env name)).out ≠ []
  decode : ∀ s, env.convertString s = [] ↔ s = []

/-- What has to hold for a true report. For `reload`: the status is true, the command has a process,
and if that has exited already, its `Kill` fails. For `kill`: on Linux nothing is ended. For `update`:
the console says 0, or it says 1, no nil process is signalled, and the removal fails or an attempt
succeeds before one crashes. -/
def Reportable (env : TaskEnv) (command : GoString) : ReportedTask → Prop
  | .reload => env.agentStatus = true ∧ env.cmd.hasProcess = true ∧
    ∀ st, env.cmd = .exited st → env.killError ≠ none
  | .kill => env.windows = true ∨ nameMatches command = false ∨ env.ended command = false
  | .update => ∀ content, env.installed = some content → env.update.openError = none →
    ∀ result, env.update.answer content = .body result → result = str "0" ∨
      result = str "1" ∧ (env.agentStatus = true → env.cmd.hasProcess = true) ∧
        (env.update.remove ≠ none ∨ ∃ i, FirstAttempt env.update.attempt Replaces i)
  | .delete => True

/-! ## The command of the kill task -/

/-- The program that `CmdExec` starts, with its arguments. -/
def cmdArgs (windows : Bool) (cmd : GoString) : List GoString :=
  if windows then str "cmd" :: split (str "/c " ++ cmd) 32 else [str "/bin/sh", str "-c", cmd]

/-- What `KillProcess` starts, `none` if it refuses the name. -/
def killArgs (env : TaskEnv) (processName : GoString) : Option (List GoString) :=
  if nameMatches processName then some (cmdArgs env.windows (killCommand env processName)) else none

/-- An ASCII letter or digit, or one of `.`, `-` and `_`. -/
def plainByte (c : UInt8) : Bool :=
  (97 ≤ c && c ≤ 122) || (65 ≤ c && c ≤ 90) || (48 ≤ c && c ≤ 57) || c == 46 || c == 45 || c == 95

def PlainName (s : GoString) : Prop := s ≠ [] ∧ ∀ b ∈ s, plainByte b = true

/-- The command is the one to end processes, and the name is one word of it. -/
def OneWord (windows : Bool) (args : List GoString) (s : GoString) : Prop :=
  if windows then
    args = [str "cmd", str "/c", str "taskkill.exe", str "/f", str "/im", s] ∧
      Shell.cmdWords (join args (str " ")) = some args
  else
    ∃ line, args = [str "/bin/sh", str "-c", line] ∧
      Shell.posixWords line =
        some [.text (str "kill"), .text (str "-9"), .substitution [str "pidof", s]]

/-- A command is run for the plain names and for no other text, and it is the one meant. -/
structure KillsPlainNames (env : TaskEnv) (s : GoString) : Prop where
  runs : (∃ args, killArgs env s = some args) ↔ PlainName s
  word : ∀ args, killArgs env s = some args → OneWord env.windows args s

end YulongHids.Daemon
