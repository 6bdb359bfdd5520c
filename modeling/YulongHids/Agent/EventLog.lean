import YulongHids.Agent.LoginLogWindows

/-!
# Reading the event log

`winEventLog` (`agent/collect/loginlog_windows.go`) reads from a subscription to a Windows event log.
Where the service rejects the number of events asked for, `eventHandles` subscribes anew and asks for
half of it. `EventHandles` of the vendored `wineventlog` package stands between it and the system.

What the system answers is data: the answers to each call of `eventHandles` stand in an `Attempt`.
-/

namespace YulongHids.Agent.EventLog

open Golang

/-- Values of type `error`: an error number of the system, or a text of the program. -/
inductive WinError where
  | errno (n : ℕ)
  | errorf (text : GoString)
  deriving DecidableEq

def errorNoMoreItems : WinError := .errno 259

def rpcSInvalidBound : WinError := .errno 1734

def errorInvalidOperation : WinError := .errno 4317

abbrev EvtHandle := ℕ

/-- What a call of `EventHandles` comes to. -/
inductive Outcome where
  | handles (eventHandles : List EvtHandle)
  | error (err : WinError)
  | panic
  deriving DecidableEq

/-! ## The vendored package -/

/-- What `_EvtNext` leaves: an error, `numRead`, and the handles at the start of the array; and
whether the array could be made. -/
structure EvtNext where
  makes : Bool
  err : Option WinError
  written : List EvtHandle
  numRead : ℕ

/-- `EventHandles`. The size is passed to the system as a `uint32`. -/
def Win.eventHandles (evtNext : EvtHandle → ℕ → EvtNext) (subscription : EvtHandle)
    (maxHandles : ℤ) : Outcome :=
  if maxHandles < 1 then .error (.errorf (str "maxHandles must be greater than 0"))
  else
    let next := evtNext subscription (maxHandles.toNat % 2 ^ 32)
    if !next.makes then .panic
    else match next.err with
      | some err =>
        if err = errorInvalidOperation ∧ next.numRead = 0 then .error errorNoMoreItems
        else .error err
      | none =>
        let unwritten := List.replicate (maxHandles.toNat - next.written.length) 0
        let array := (next.written ++ unwritten).take maxHandles.toNat
        if next.numRead ≤ array.length then .handles (array.take next.numRead) else .panic

/-! ## The log -/

/-- The fields of `winEventLog` that change, and `maxRead`; of `renderBuf` its length. -/
structure WinEventLog where
  subscription : EvtHandle
  maxRead : ℤ
  lastRead : ℕ
  renderBuf : ℕ

/-- What the system answers to one call of `eventHandles`. -/
structure Attempt where
  eventHandles : EvtHandle → ℤ → Outcome
  close : EvtHandle → Option WinError
  createBookmark : ℕ → Except WinError EvtHandle
  createEvent : Except WinError ℕ
  subscribe : ℕ → EvtHandle → Except WinError EvtHandle

/-- `Open`. That no event could be created is not reported. -/
def WinEventLog.openAt (l : WinEventLog) (a : Attempt) (recordNumber : ℕ) :
    WinEventLog × Option WinError :=
  match a.createBookmark recordNumber with
  | .error err => (l, some err)
  | .ok bookmark =>
    match a.createEvent with
    | .error _ => (l, none)
    | .ok signalEvent =>
      match a.subscribe signalEvent bookmark with
      | .error err => (l, some err)
      | .ok subscriptionHandle => ({ l with subscription := subscriptionHandle }, none)

/-- `Close`. -/
def WinEventLog.close (l : WinEventLog) (a : Attempt) : Option WinError :=
  a.close l.subscription

/-- The three results of `eventHandles`; `none` for a nil slice. -/
structure Returned where
  handles : Option (List EvtHandle)
  maxRead : ℤ
  err : Option WinError

/-- How a call of `eventHandles` goes on. -/
inductive Next where
  | returns (l : WinEventLog) (r : Returned)
  | panics (l : WinEventLog)
  | again (l : WinEventLog) (maxRead : ℤ)

/-- The body of `eventHandles`, up to the call of itself. -/
def WinEventLog.next (l : WinEventLog) (a : Attempt) (maxRead : ℤ) : Next :=
  match a.eventHandles l.subscription maxRead with
  | .panic => .panics l
  | .handles handles => .returns l ⟨some handles, maxRead, none⟩
  | .error err =>
    if err = errorNoMoreItems then .returns l ⟨none, maxRead, none⟩
    else if err = rpcSInvalidBound then
      match l.close a with
      | some err => .returns l ⟨none, 0, some err⟩
      | none =>
        match l.openAt a l.lastRead with
        | (l', some err) => .returns l' ⟨none, 0, some err⟩
        | (l', none) => .again l' (maxRead.tdiv 2)
    else .returns l ⟨none, 0, some err⟩

/-- A call of `EventHandles`. -/
structure Call where
  subscription : EvtHandle
  maxHandles : ℤ
  outcome : Outcome

/-- A finished run of `eventHandles`: its calls of `EventHandles`, the log afterwards, and the results,
`none` after a panic. -/
structure Run where
  calls : List Call
  log : WinEventLog
  returned : Option Returned

/-- `eventHandles`; `none` where the fuel does not last. -/
def eventHandles (env : ℕ → Attempt) : ℕ → ℕ → WinEventLog → ℤ → Option Run
  | 0, _, _, _ => none
  | fuel + 1, i, l, maxRead =>
    let call : Call := ⟨l.subscription, maxRead, (env i).eventHandles l.subscription maxRead⟩
    match l.next (env i) maxRead with
    | .returns l' r => some ⟨[call], l', some r⟩
    | .panics l' => some ⟨[call], l', none⟩
    | .again l' maxRead' =>
      (eventHandles env fuel (i + 1) l' maxRead').map fun run => { run with calls := call :: run.calls }

/-! ## Reading -/

inductive RenderError where
  | insufficientBuffer (requiredSize : ℕ)
  | other

/-- What `render` wrote to `outputBuf`, and its error. -/
structure Render where
  output : List UInt8
  err : Option RenderError

/-- What `Read` meets besides the answers to `eventHandles`: the rendering of a handle into a buffer
of some length, and the record of an XML text. -/
structure Rendering where
  render : EvtHandle → ℕ → Render
  buildRecordFromXML : List UInt8 → Option WinEvent

/-- The rendering of a handle, once more where the buffer was too short; and the buffer afterwards. -/
def Rendering.renderTwice (s : Rendering) (h : EvtHandle) (renderBuf : ℕ) : Render × ℕ :=
  match (s.render h renderBuf).err with
  | some (.insufficientBuffer size) => (s.render h size, size)
  | _ => (s.render h renderBuf, renderBuf)

/-- One turn of the loop of `Read`. -/
def Rendering.readHandle (s : Rendering) (st : WinEventLog × List WinEvent) (h : EvtHandle) :
    WinEventLog × List WinEvent :=
  let (rendered, renderBuf) := s.renderTwice h st.1.renderBuf
  let l := { st.1 with renderBuf := renderBuf }
  if rendered.err.isSome && rendered.output.isEmpty then (l, st.2)
  else match s.buildRecordFromXML rendered.output with
    | none => (l, st.2)
    | some r => ({ l with lastRead := r.recordID }, st.2 ++ [r])

/-- What `Read` did: its results, the handles that it closed, and the log afterwards. -/
structure ReadRun where
  records : List WinEvent
  err : Option WinError
  closed : List EvtHandle
  log : WinEventLog

/-- `Read` after a run of `eventHandles`, `none` after a panic. -/
def Rendering.readAfter (s : Rendering) (run : Run) : Option ReadRun := do
  let returned ← run.returned
  let handles := returned.handles.getD []
  if returned.err.isSome || handles.isEmpty then some ⟨[], returned.err, [], run.log⟩
  else
    let (l, records) := handles.foldl s.readHandle (run.log, [])
    some ⟨records, none, handles, l⟩

/-- `Read`, with the fuel of `eventHandles`. -/
def Rendering.read (s : Rendering) (env : ℕ → Attempt) (fuel : ℕ) (l : WinEventLog) :
    Option (Option ReadRun) :=
  (eventHandles env fuel 0 l l.maxRead).map s.readAfter

/-! ## What the calls rely on -/

/-- `EventHandles` answers a bound below 1 with an error of its own. -/
def Attempt.Refuses (a : Attempt) : Prop :=
  ∀ subscription maxHandles, maxHandles < 1 →
    ∃ err, a.eventHandles subscription maxHandles = .error err ∧ err ≠ rpcSInvalidBound

/-- The attempt calls the vendored `EventHandles`. -/
def Attempt.Vendored (a : Attempt) : Prop :=
  ∃ evtNext, a.eventHandles = Win.eventHandles evtNext

end YulongHids.Agent.EventLog
