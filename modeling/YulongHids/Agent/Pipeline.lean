import YulongHids.Golang.Channel
import YulongHids.Server.Models
import YulongHids.Transition.History

/-!
# The threads that send records

In an agent (`agent/client/agent.go`) three monitors send records into one channel, `monitor` takes
them out and sends each to a server, `getInfo` sends the lists that changed, and `configRefresh` closes
the client and makes a new one when the list of the servers changed. The last three share the mutex of
the agent, which is modelled step by step.
-/

namespace YulongHids.Agent

open Golang Server Transition

/-- The three monitors. -/
inductive Producer where
  | netSniff
  | processMonitor
  | fileMonitor
  deriving DecidableEq

/-- The two threads that send. -/
inductive Sender where
  | monitor
  | getInfo
  deriving DecidableEq

/-- How far a sender is with its data: before `Mutex.Lock`, behind it, behind the assignment to
`PutData`, behind `put`. -/
inductive Stage where
  | idle
  | ready (data : DataInfo)
  | locked (data : DataInfo)
  | assigned
  | sent

/-- How far `configRefresh` is with a new list: before `Mutex.Lock`, behind it, behind `Close`, behind
`newClient`. -/
inductive RefreshStage where
  | idle
  | ready (serverList : List GoString)
  | locked (serverList : List GoString)
  | closed (serverList : List GoString)
  | renewed

/-- The threads, and the fields `Mutex`, `PutData` and `Client` of the agent. A client is known by its
servers, `none` if it was closed. -/
structure Pipeline where
  resultChan : BufChan (Producer × Record) 16
  stage : Sender → Stage
  refresh : RefreshStage
  mutex : Bool
  putData : DataInfo
  client : Option (List GoString)

inductive PipelineEvent where
  /-- A monitor sends a record into the channel. -/
  | produce (p : Producer) (data : Record)
  /-- `monitor` takes a record out of the channel. -/
  | receive (now : ℕ)
  /-- `getInfo` finds that the list of a type has changed. -/
  | changed (k : GoString) (v : List Record)
  /-- `configRefresh` finds that the list of the servers has changed. -/
  | refresh (serverList : List GoString)
  | lock (w : Sender)
  | assign (w : Sender)
  | put (w : Sender)
  | unlock (w : Sender)
  | lockRefresh
  | close
  | newClient
  | unlockRefresh

/-- What `monitor` makes of a record: it adds the time and takes out the type. -/
def monitorData (localIP goos : GoString) (now : ℕ) (data : Record) : DataInfo :=
  let data := data.insert (str "time") (itoa now)
  ⟨localIP, Record.get data (str "source"), goos, [data.erase (str "source")], 0⟩

namespace Pipeline

variable (localIP goos : GoString)

/-- The agent after `init`, with the servers of its first client. -/
def start (servers : List GoString) : Pipeline :=
  ⟨BufChan.empty, fun _ => .idle, .idle, false, ⟨[], [], [], [], 0⟩, some servers⟩

def setStage (s : Pipeline) (w : Sender) (stage : Stage) : Pipeline :=
  { s with stage := Function.update s.stage w stage }

def step (s : Pipeline) : PipelineEvent → Option Pipeline
  | .produce p data => (s.resultChan.send (p, data)).map fun c => { s with resultChan := c }
  | .receive now =>
    match s.stage .monitor, s.resultChan.recv with
    | .idle, some (r, c) =>
      some ({ s with resultChan := c }.setStage .monitor
        (.ready (monitorData localIP goos now r.2)))
    | _, _ => none
  | .changed k v =>
    match s.stage .getInfo with
    | .idle => some (s.setStage .getInfo (.ready ⟨localIP, k, goos, v, 0⟩))
    | _ => none
  | .refresh serverList =>
    match s.refresh with
    | .idle => some { s with refresh := .ready serverList }
    | _ => none
  | .lock w =>
    match s.stage w, s.mutex with
    | .ready data, false => some ({ s with mutex := true }.setStage w (.locked data))
    | _, _ => none
  | .assign w =>
    match s.stage w with
    | .locked data => some ({ s with putData := data }.setStage w .assigned)
    | _ => none
  | .put w =>
    match s.stage w with
    | .assigned => some (s.setStage w .sent)
    | _ => none
  | .unlock w =>
    match s.stage w with
    | .sent => some ({ s with mutex := false }.setStage w .idle)
    | _ => none
  | .lockRefresh =>
    match s.refresh, s.mutex with
    | .ready serverList, false => some { s with mutex := true, refresh := .locked serverList }
    | _, _ => none
  | .close =>
    match s.refresh with
    | .locked serverList => some { s with client := none, refresh := .closed serverList }
    | _ => none
  | .newClient =>
    match s.refresh with
    | .closed serverList => some { s with client := some serverList, refresh := .renewed }
    | _ => none
  | .unlockRefresh =>
    match s.refresh with
    | .renewed => some { s with mutex := false, refresh := .idle }
    | _ => none

end Pipeline

/-! ## What a run did -/

/-- A record that is taken out of the channel, with the time. -/
def received (s : Pipeline) : PipelineEvent → List ((Producer × Record) × ℕ)
  | .receive now => s.resultChan.values.head?.toList.map fun r => (r, now)
  | _ => []

end YulongHids.Agent
