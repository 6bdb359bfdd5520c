import YulongHids.Agent.ProcessMonitor
import YulongHids.SyscallHook.Execve

/-!
# Exec events from the kernel to the agent

The two ends of one format: `monitor_execve_hook` writes a message, `StartProcessMonitor` reads the
datagram it arrives in.
-/

namespace YulongHids.Agent

open Golang SyscallHook

/-- No string of the event has the separator in it. -/
structure SeparatorFree (e : ExecEvent) : Prop where
  path : 1 ∉ e.path
  args : 1 ∉ e.args
  comm : 1 ∉ e.parentComm
  env : 1 ∉ e.env

/-- The three fields that the kernel fills in. -/
structure KernelFields (e : ExecEvent) (r : Record) : Prop where
  pid : r.get (str "pid") = itoa e.tgid
  parentname : r.get (str "parentname") = e.parentComm
  ppid : r.get (str "ppid") = itoa e.parentTgid

/-- A record that shows the whole event; the captured environment may have lost a blank at its
end. -/
structure Shows (e : ExecEvent) (r : Record) : Prop extends KernelFields e r where
  name : r.get (str "name") = e.path
  command : r.get (str "command") = e.path ++ str " " ++ e.args
  info : r.get (str "info") = e.env ∨ r.get (str "info") ++ str " " = e.env

/-- An agent without a process filter sends exactly one record for the event, and it shows the
event. -/
def Recorded (txt : TextLib) (getpid : ℤ) (e : ExecEvent) : Prop :=
  ∃ r, startProcessMonitor txt [] getpid [e.datagram] = ⟨[r], false⟩ ∧ Shows e r

/-- If the message gets to the test of the parent, then the test does not discard it, and every
record made of it has the fields of the kernel, whatever the filter and the state of the loop. -/
structure Unforged (txt : TextLib) (getpid : ℤ) (e : ExecEvent) : Prop where
  kept : 6 ≤ (messageFields e.datagram).length →
    (atoi ((messageFields e.datagram).getD 4 [])).1 ≠ getpid
  fields : ∀ filter resultdata r,
    monitorTurn txt filter getpid resultdata (readFromUDP e.datagram) = .send r → KernelFields e r

/-- The fields that the path and the arguments make up for the agent; without a separator in them
these are the two. -/
def userFields (e : ExecEvent) : List GoString := split (e.path ++ 1 :: e.args) 1

def kernelTexts (e : ExecEvent) : List GoString :=
  [itoa e.tgid, e.parentComm, itoa e.parentTgid]

end YulongHids.Agent
