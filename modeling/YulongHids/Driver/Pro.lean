import YulongHids.Golang.Strings
import YulongHids.Transition.Mailbox

/-!
# The driver and the agent's reader

`ProcessCreateMon` (`driver/pro.c`) reports a process through one buffer and one event; the loop of
`CapturePrecess` (`agent/monitor/process_windows.go`) takes the reports from there. Callbacks of
different processors run at the same time, and nobody acknowledges anything.
-/

namespace YulongHids.Driver

open Golang Transition

/-- A call of `ProcessCreateMon`: its arguments, and the name in each of the two process objects,
`none` if the object is not found. -/
structure ProcessCallback where
  hParentId : ℕ
  pId : ℕ
  bCreate : Bool
  name : Option GoString
  parentName : Option GoString

/-- What `ProcessCreateMon` writes to `outBuf`, if it writes. -/
def ProcessCallback.report (showTerminateProcess : Bool) (c : ProcessCallback) : Option GoString :=
  match c.name, c.parentName with
  | some name, some parentName =>
    if c.bCreate then
      some (str "process|" ++ name ++ str "|" ++ itoa c.pId ++ str "|" ++ parentName ++ str "|" ++
        itoa c.hParentId ++ str "\n")
    else if showTerminateProcess then some (str "process_over|" ++ itoa c.pId ++ str "\n")
    else none
  | _, _ => none

/-- A text in `outBuf`, with the number of the callback that wrote it there (which the driver does not
have). -/
structure Message where
  number : ℕ
  text : GoString
deriving DecidableEq

/-- The globals of the driver, the loop of the agent and what it sent on. `gpEventObject` is `none` for
`NULL`, else it tells whether the event is signalled; `outBuf` is `none` while it is still zero.
`filled` counts the callbacks that wrote `outBuf` and did not get to their `KeSetEvent` yet. -/
structure State where
  outBuf : Option Message
  gpEventObject : Option Bool
  showTerminateProcess : Bool
  filled : ℕ
  loop : Reader
  sent : List (Option Message)
  callbacks : List ProcessCallback

/-- The state after `DriverEntry`. -/
def driverEntry : State := ⟨none, none, false, 0, .reset, [], []⟩

/-- `IOCTL_PASSEVENT` with a new event. -/
def State.passEvent (s : State) : State := { s with gpEventObject := some false }

/-- `IOCTL_PASSEVSTRUCT`. -/
def State.passEvStruct (s : State) (showTerminateProcess : Bool) : State :=
  { s with showTerminateProcess := showTerminateProcess }

/-- The state in which the loop of `CapturePrecess` begins. -/
def attached : State := driverEntry.passEvent.passEvStruct false

inductive Event where
  | processCreateMon (c : ProcessCallback)
  | keSetEvent
  | resetEvent
  | waitForSingleObject
  | passBuf

/-- The first step of a callback, up to its `sprintf`. -/
def State.fill (s : State) (c : ProcessCallback) : State :=
  match c.report s.showTerminateProcess with
  | none => { s with callbacks := s.callbacks ++ [c] }
  | some text =>
    { s with
      outBuf := some ⟨s.callbacks.length, text⟩
      filled := s.filled + 1
      callbacks := s.callbacks ++ [c] }

/-- One step of a callback or of the loop. The event resets itself when the wait is over; the last
step is the `DeviceIoControl` with the `sendto` behind it. -/
def step (s : State) : Event → Option State
  | .processCreateMon c => some (s.fill c)
  | .keSetEvent =>
    if s.filled = 0 then none
    else some { s with gpEventObject := s.gpEventObject.map fun _ => true, filled := s.filled - 1 }
  | .resetEvent =>
    if s.loop = .reset then
      some { s with gpEventObject := s.gpEventObject.map fun _ => false, loop := .wait }
    else none
  | .waitForSingleObject =>
    if s.loop = .wait ∧ s.gpEventObject = some true then
      some { s with gpEventObject := some false, loop := .read }
    else none
  | .passBuf =>
    if s.loop = .read then some { s with sent := s.sent ++ [s.outBuf], loop := .reset } else none

/-- The buffer and the event as a mailbox. -/
def State.box (s : State) : Mailbox Message where
  slot := s.outBuf
  signalled := s.gpEventObject == some true
  owed := s.filled
  reader := s.loop
  received := s.sent

/-- The loop has caught up: it waits, every callback is through, and the event is not signalled. -/
def State.CaughtUp (s : State) : Prop := s.box.Quiet

/-- The report of every process that was created has been sent exactly once. -/
def State.DeliveredOnce (s : State) : Prop :=
  ∀ i c, s.callbacks[i]? = some c → c.bCreate = true →
    ∃ text, c.report s.showTerminateProcess = some text ∧ s.sent.count (some ⟨i, text⟩) = 1

/-- `outBuf` has a report that was not sent on yet. -/
def State.Unread (s : State) : Prop := s.box.Unread

/-- A callback for a new process finds both process objects and no report that was not sent on; the
loop reads no report twice, and clears no signal of a report that no other callback is about to
signal. -/
def State.Taken (s : State) : Event → Prop
  | .processCreateMon c =>
    c.bCreate = true → c.name.isSome = true ∧ c.parentName.isSome = true ∧ ¬ s.Unread
  | .resetEvent => s.Unread → s.gpEventObject = some true → s.filled ≠ 0
  | .passBuf => s.Unread
  | _ => True

end YulongHids.Driver
