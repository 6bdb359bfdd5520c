import YulongHids.Golang.Channel
import YulongHids.Server.Task
import YulongHids.Transition.Run

/-!
# Task dispatchers on one queue

`TaskThread` and the calls of `sendTask` that it starts (`server/action/task.go`), step by step, for
several servers on one database. A server puts a value into the channel `threadpool` before it starts
a call, and the call takes one out when it returns.
-/

namespace YulongHids.Server

open Golang Mongo

deriving instance DecidableEq for Queue

/-! ## A call of `sendTask` -/

/-- What a call does next. A call that has returned still has its deferred receive to do. -/
inductive SendStage where
  | marshal
  | dial (data : GoString)
  | encrypt (data : GoString)
  | exchange (encryptData : GoString)
  | unmarshal (msg : GoString)
  | insert (res : TaskResult)
  | saveError (errMsg : GoString)
  | returned

/-- A call with its item, what its steps meet, whether `json.Marshal` succeeds, and how far it is. -/
structure SendCall where
  task : Queue
  env : SendEnv
  marshals : Bool
  stage : SendStage

/-- One step of a call: what it does next, and the collection `task_result` afterwards. -/
def SendCall.next (call : SendCall) (results : Collection TaskResult) :
    SendStage × Collection TaskResult :=
  match call.stage with
  | .marshal =>
    if call.marshals then (.dial (call.env.marshal (sendData call.task)), results)
    else (.returned, results)
  | .dial data =>
    match call.env.dial (call.task.ip ++ str ":65512") with
    | some err => (.saveError err, results)
    | none => (.encrypt data, results)
  | .encrypt data =>
    match call.env.rsaEncrypt data with
    | .error err => (.saveError err, results)
    | .ok encryptData => (.exchange encryptData, results)
  | .exchange encryptData =>
    match readString (call.env.exchange encryptData) with
    | .error err => (.saveError err, results)
    | .ok msg => (.unmarshal msg, results)
  | .unmarshal msg =>
    match call.env.unmarshal msg with
    | .error err => (.saveError err, results)
    | .ok res =>
      (.insert { res with taskID := call.task.taskID, time := call.env.now, ip := call.task.ip },
        results)
  | .insert res =>
    match call.env.insert results res with
    | (results', none) => (.returned, results')
    | (results', some err) => (.saveError err, results')
  | .saveError errMsg => (.returned, Server.saveError call.env call.task errMsg results)
  | .returned => (.returned, results)

/-- A call and the collection `task_result` after one step. -/
def SendCall.step (p : SendCall × Collection TaskResult) : SendCall × Collection TaskResult :=
  ({ p.1 with stage := (p.1.next p.2).1 }, (p.1.next p.2).2)

/-- A bound on the steps that are left. -/
def SendStage.remaining : SendStage → ℕ
  | .marshal => 7
  | .dial _ => 6
  | .encrypt _ => 5
  | .exchange _ => 4
  | .unmarshal _ => 3
  | .insert _ => 2
  | .saveError _ => 1
  | .returned => 0

/-! ## Servers -/

/-- What the loop of `TaskThread` does next, with the `res` of its last `Apply`. -/
inductive TaskLoop where
  | find
  | send (res : Queue)
  | spawn (res : Queue)

/-- The item that a loop holds. -/
def TaskLoop.held : TaskLoop → List Queue
  | .find => []
  | .send res => [res]
  | .spawn res => [res]

/-- The slots that a loop has taken for a call that it has not started yet. -/
def TaskLoop.taken : TaskLoop → ℕ
  | .spawn _ => 1
  | _ => 0

/-- A server: its loop, its channel, and its calls of `sendTask` until their deferred receive. -/
structure TaskServer where
  loop : TaskLoop
  threadpool : TokenChan 100
  calls : List SendCall

def TaskServer.new : TaskServer := ⟨.find, .empty, []⟩

/-- The items that the calls of a server work on. -/
def TaskServer.tasks (server : TaskServer) : List Queue := server.calls.map SendCall.task

/-- The servers `ι`, the collections `queue` and `task_result`, and since the start, what was put into
the queue and the items of all calls that were started. -/
structure TaskSystem (ι : Type*) where
  servers : ι → TaskServer
  queue : Collection Queue
  results : Collection TaskResult
  put : List Queue
  handed : List Queue

inductive TaskEvent (ι : Type*) where
  /-- The console puts an item into the queue. -/
  | put (item : Queue)
  /-- `Apply` removes nothing: there is no item, or it fails. -/
  | findNone (sv : ι)
  /-- `Apply` removes an item and leaves it in `res`. -/
  | find (sv : ι) (item : Queue)
  /-- `Apply` removes an item, but its answer is lost, and `res` stays empty. -/
  | findLost (sv : ι) (item : Queue)
  /-- `threadpool <- true`. -/
  | send (sv : ι)
  /-- `go sendTask(res, threadpool)`. -/
  | spawn (sv : ι) (env : SendEnv) (marshals : Bool)
  /-- A step of the `n`-th call. -/
  | call (sv : ι) (n : ℕ)
  /-- The deferred `<-threadpool` of the `n`-th call, which ends with it. -/
  | free (sv : ι) (n : ℕ)
  /-- The server ends and is started again. -/
  | restart (sv : ι)

namespace TaskSystem

variable {ι : Type*} [DecidableEq ι]

/-- New servers on a queue. -/
def start (ι : Type*) (queue : Collection Queue) (results : Collection TaskResult) : TaskSystem ι :=
  ⟨fun _ => .new, queue, results, queue, []⟩

def setServer (s : TaskSystem ι) (sv : ι) (server : TaskServer) : TaskSystem ι :=
  { s with servers := Function.update s.servers sv server }

def step (s : TaskSystem ι) : TaskEvent ι → Option (TaskSystem ι)
  | .put item => some { s with queue := Mongo.insert s.queue item, put := s.put ++ [item] }
  | .findNone sv =>
    match (s.servers sv).loop with
    | .find => some s
    | _ => none
  | .find sv item =>
    match (s.servers sv).loop with
    | .find =>
      if item ∈ s.queue then
        let loop := if item.ip = [] then TaskLoop.find else .send item
        some { s.setServer sv { s.servers sv with loop := loop } with queue := s.queue.erase item }
      else none
    | _ => none
  | .findLost sv item =>
    match (s.servers sv).loop with
    | .find => if item ∈ s.queue then some { s with queue := s.queue.erase item } else none
    | _ => none
  | .send sv =>
    match (s.servers sv).loop with
    | .send res =>
      (s.servers sv).threadpool.send.map fun threadpool =>
        s.setServer sv { s.servers sv with loop := .spawn res, threadpool := threadpool }
    | _ => none
  | .spawn sv env marshals =>
    match (s.servers sv).loop with
    | .spawn res =>
      let call : SendCall := ⟨res, env, marshals, .marshal⟩
      let calls := (s.servers sv).calls ++ [call]
      some { s.setServer sv { s.servers sv with loop := .find, calls := calls } with
        handed := s.handed ++ [call.task] }
    | _ => none
  | .call sv n =>
    (s.servers sv).calls[n]?.map fun call =>
      let calls := (s.servers sv).calls.set n (SendCall.step (call, s.results)).1
      { s.setServer sv { s.servers sv with calls := calls } with
        results := (SendCall.step (call, s.results)).2 }
  | .free sv n =>
    match (s.servers sv).calls[n]?.map SendCall.stage with
    | some .returned =>
      (s.servers sv).threadpool.recv.map fun threadpool =>
        let calls := (s.servers sv).calls.eraseIdx n
        s.setServer sv { s.servers sv with threadpool := threadpool, calls := calls }
    | _ => none
  | .restart sv => some (s.setServer sv .new)

end TaskSystem

/-! ## What the dispatchers are for -/

/-- Every value in the channel of a server stands for one of its calls, or for the one that its loop
is about to start. -/
def TaskServer.Accounted (server : TaskServer) : Prop :=
  server.threadpool.len = server.calls.length + server.loop.taken

/-- No item is handed over more often than it was put, counting what is in the queue and in the hands
of the loops. -/
def TaskSystem.HandedOnce {ι : Type*} [Fintype ι] (s : TaskSystem ι) : Prop :=
  ∀ item, s.handed.count item + ∑ sv, (s.servers sv).loop.held.count item + s.queue.count item ≤
    s.put.count item

/-- The calls that there are were started. -/
def TaskSystem.Started {ι : Type*} [Fintype ι] (s : TaskSystem ι) : Prop :=
  ∀ item, ∑ sv, (s.servers sv).tasks.count item ≤ s.handed.count item

end YulongHids.Server
