import YulongHids.Transition.Run

/-!
# The supervision of the agent

The loop of `program.run` (`daemon/daemon.go`) starts the agent and waits for it; the tasks `reload`,
`quit` and `update` (`daemon/task`) kill it. They share `common.Cmd` and `common.AgentStatus`; the mutex
`common.M` keeps a start of the agent and an update apart. There is one thread for all tasks.
-/

namespace YulongHids.Daemon

inductive ExitStatus where
  | code (n : ℕ)
  | killed
deriving DecidableEq

/-- Whether `Wait` returns no error. -/
def ExitStatus.success (st : ExitStatus) : Bool := st == .code 0

/-- What `common.Cmd` points to. Its `Process` is nil before `Start`, and stays nil if that fails. -/
inductive Cmd where
  | null
  | made
  | failed
  | running
  | exited (st : ExitStatus)
  | reaped
deriving DecidableEq

/-- Whether `Cmd.Process` is a process, and not nil. -/
def Cmd.hasProcess : Cmd → Bool
  | .running | .exited _ | .reaped => true
  | .null | .made | .failed => false

/-- Started and not reaped. -/
def Cmd.live : Cmd → Bool
  | .running | .exited _ => true
  | .null | .made | .failed | .reaped => false

/-- The process after `Process.Kill`. -/
def Cmd.kill : Cmd → Cmd
  | .running => .exited .killed
  | cmd => cmd

/-- Where the loop is: behind the statement of that name. -/
inductive Loop where
  | sleep
  | locked
  | command
  | started
  | failed
  | unlocked
  | waiting
  | waitError
deriving DecidableEq

inductive TaskType where
  | reload
  | quit
  | update
deriving DecidableEq

/-- What the thread of the tasks does next; `quit` has its own copy of `KillAgent`. -/
inductive TaskThread where
  | accept
  | readStatus (t : TaskType)
  | kill (t : TaskType)
  | download
deriving DecidableEq

/-- The daemon ends with the `panic` of `quit`, or when it signals a nil process. -/
inductive Running where
  | running
  | quit
  | nilProcess
deriving DecidableEq

structure Supervision where
  cmd : Cmd
  agentStatus : Bool
  loop : Loop
  task : TaskThread
  daemon : Running
deriving DecidableEq

def supervision : Supervision := ⟨.null, false, .sleep, .accept, .running⟩

/-- The loop holds `common.M` from its `Lock` to its `Unlock`. -/
def Loop.holds : Loop → Bool
  | .locked | .command | .started | .failed => true
  | .sleep | .unlocked | .waiting | .waitError => false

/-- `agentUpdate` holds `common.M` from before `KillAgent` to its end. -/
def TaskThread.holds : TaskThread → Bool
  | .readStatus t | .kill t => t == .update
  | .download => true
  | .accept => false

/-- The state behind `KillAgent`. -/
def Supervision.killed (s : Supervision) : TaskType → Supervision
  | .reload => { s with task := .accept }
  | .quit => { s with daemon := .quit }
  | .update => { s with task := .download }

inductive SupervisionEvent where
  | lock
  | command
  | start (ok : Bool)
  | unlock
  | setStatus
  | wait
  | clearStatus
  | exit (st : ExitStatus)
  | task (t : TaskType)
  | readStatus
  | kill
  | downloaded

/-- One step of the loop, of the agent, or of the thread of the tasks. -/
def Supervision.stepRunning (s : Supervision) : SupervisionEvent → Option Supervision
  | .lock =>
    if s.loop = .sleep ∧ s.task.holds = false then some { s with loop := .locked } else none
  | .command => if s.loop = .locked then some { s with cmd := .made, loop := .command } else none
  | .start ok =>
    if s.loop = .command then
      if ok then some { s with cmd := .running, loop := .started }
      else some { s with cmd := .failed, loop := .failed }
    else none
  | .unlock =>
    match s.loop with
    | .started => some { s with loop := .unlocked }
    | .failed => some { s with loop := .sleep }
    | _ => none
  | .setStatus =>
    if s.loop = .unlocked then some { s with agentStatus := true, loop := .waiting } else none
  | .wait =>
    match s.loop, s.cmd with
    | .waiting, .exited st =>
      some { s with cmd := .reaped, loop := if st.success then .sleep else .waitError }
    | _, _ => none
  | .clearStatus =>
    if s.loop = .waitError then some { s with agentStatus := false, loop := .sleep } else none
  | .exit st => if s.cmd = .running then some { s with cmd := .exited st } else none
  | .task t =>
    if s.task = .accept ∧ (t = .update → s.loop.holds = false) then
      some { s with task := .readStatus t }
    else none
  | .readStatus =>
    match s.task with
    | .readStatus t => some (if s.agentStatus then { s with task := .kill t } else s.killed t)
    | _ => none
  | .kill =>
    match s.task with
    | .kill t =>
      some (if s.cmd.hasProcess then { s with cmd := s.cmd.kill }.killed t
        else { s with daemon := .nilProcess })
    | _ => none
  | .downloaded => if s.task = .download then some { s with task := .accept } else none

/-- Nothing happens any more when the daemon has ended. -/
def Supervision.step (s : Supervision) (e : SupervisionEvent) : Option Supervision :=
  if s.daemon = .running then s.stepRunning e else none

/-- The loop is neither starting the agent nor reaping it. -/
def Loop.settled : Loop → Bool
  | .sleep | .locked | .waiting => true
  | .command | .started | .failed | .unlocked | .waitError => false

/-- The status is that of the agent, and no nil process was signalled. -/
structure ViewRight (s : Supervision) : Prop where
  status : s.loop.settled = true → (s.agentStatus = true ↔ s.cmd.live = true)
  signal : s.daemon ≠ .nilProcess

/-- The agent that is reaped did not exit with 0, and a task that found the status true kills no `Cmd`
that the loop has made since and did not start. -/
def Supervision.Careful (s : Supervision) : SupervisionEvent → Prop
  | .wait => s.cmd ≠ .exited (.code 0)
  | .kill => s.cmd ≠ .made ∧ s.cmd ≠ .failed
  | _ => True

/-- The agent that is reaped did not exit with 0, and the loop makes no new `Cmd` while a task is
between its look at the status and its signal. -/
def Supervision.Unraced (s : Supervision) : SupervisionEvent → Prop
  | .wait => s.cmd ≠ .exited (.code 0)
  | .command => ∀ t, s.task ≠ .kill t
  | _ => True

end YulongHids.Daemon
