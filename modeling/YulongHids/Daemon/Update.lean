import YulongHids.Daemon.Install

/-!
# Updating the agent

`agentUpdate` (`daemon/task/update.go`): ask the console whether the installed agent is current, and
replace it if not.
-/

namespace YulongHids.Daemon

open Golang

/-- The outcomes of the steps of `agentUpdate`. The error that `common.KillAgent` returns is not
looked at; its panic is that of `updateAgent`. -/
structure UpdateEnv where
  /-- The error of `os.Open` on a file that exists. -/
  openError : Option GoString
  /-- How many bytes of the installed agent are read; `io.Copy` is not checked. -/
  readable : ℕ
  /-- The answer of the console to the check of a hash. -/
  check : GoString → Answer
  /-- The error of `os.Remove`. -/
  remove : Option GoString
  attempt : ℕ → Attempt

/-- The answer to the check of the installed agent. -/
def UpdateEnv.answer (env : UpdateEnv) (content : List UInt8) : Answer :=
  env.check (hexEncode (md5 (content.take env.readable)))

/-- `agentUpdate` where its call of `common.KillAgent` returns: its two results, `none` for a panic,
and the agent's file afterwards. The `err` that takes the result of `DownAgent` is declared inside
the block; the `err` that the last `return` sees is still nil. -/
def agentUpdate (env : UpdateEnv) (disk : Disk) : Option (Bool × Option GoString) × Disk :=
  match disk with
  | none => (some (false, some (str "no such file or directory")), disk)
  | some file =>
    match env.openError with
    | some err => (some (false, some err), disk)
    | none =>
      match env.answer file.content with
      | .requestError err => (some (false, some err), disk)
      | .bodyError err => (some (false, some err), disk)
      | .body result =>
        if result = str "1" then
          match env.remove with
          | some err => (some (false, some err), disk)
          | none =>
            match downAgent env.attempt none with
            | (.nil, disk) => (some (true, none), disk)
            | (.error _, disk) => (some (false, none), disk)
            | (.panic, disk) => (none, disk)
        else (some (false, none), disk)

/-! ## What an update is for -/

/-- The file of an agent that was there before the update. -/
def installedFile (content : List UInt8) : AgentFile := ⟨.installed, content⟩

/-- A truthful and atomic update of an agent, given its result and the file it left. -/
structure Truthful (env : UpdateEnv) (installed : Option (List UInt8))
    (run : Option (Bool × Option GoString) × Disk) : Prop where
  updated : run.1 = some (true, none) →
    ∃ i < 3, (env.attempt i).Stored ∧ run.2 = some ⟨.downloaded, (env.attempt i).copied⟩
  current : run.1 = some (false, none) →
    (∃ content, installed = some content ∧ env.answer content = .body (str "0")) ∧
      run.2 = installed.map installedFile
  kept : run.1 ≠ some (true, none) → run.2 = installed.map installedFile

end YulongHids.Daemon
