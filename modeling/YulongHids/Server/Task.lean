import YulongHids.Golang.Strings
import YulongHids.Mongo.Collection

/-!
# The task dispatcher of the server

`TaskThread`, `sendTask` and `saveError` (`server/action/task.go`) and the console's view of the
results, `TaskController.Get` (`web/controllers/task.go`). The thread takes one item after the other
from the `queue` collection, sends it to the daemon of its host and stores what came of it in
`task_result`.
-/

namespace YulongHids.Server

open Golang Mongo

/-- `queue`, one command for one host. `id` is the item's own key, `taskID` that of the task. -/
structure Queue where
  id : ObjectId
  taskID : ObjectId
  ip : GoString
  type : GoString
  command : GoString
  time : ℕ

def Queue.zero : Queue := ⟨[], [], [], [], [], 0⟩

structure TaskResult where
  taskID : ObjectId
  ip : GoString
  status : GoString
  data : GoString
  time : ℕ
  deriving DecidableEq

/-- The steps of `sendTask` that may fail. Errors are given by their text. -/
structure SendEnv where
  /-- `json.Marshal` of a map of strings, which never fails. -/
  marshal : Record → GoString
  /-- `net.DialTimeout`: the error, if the connection is not made. -/
  dial : GoString → Option GoString
  rsaEncrypt : GoString → Except GoString GoString
  /-- What the daemon sends after it got the line with the encrypted data, and the error with which
  the connection ends. -/
  exchange : GoString → GoString × GoString
  /-- `json.Unmarshal` into an empty `taskResult`. -/
  unmarshal : GoString → Except GoString TaskResult
  /-- `time.Now()`. -/
  now : ℕ
  /-- The error of an insert into `task_result`, if it fails. -/
  insertError : TaskResult → Option GoString

/-- `c.Insert(&res)` on `task_result`: the collection afterwards, and the error. -/
def SendEnv.insert (env : SendEnv) (results : Collection TaskResult) (res : TaskResult) :
    Collection TaskResult × Option GoString :=
  match env.insertError res with
  | some err => (results, some err)
  | none => (Mongo.insert results res, none)

/-- `saveError`. Its first field, the `TaskID` of the result, gets the item's `ID`. -/
def saveError (env : SendEnv) (task : Queue) (errMsg : GoString)
    (results : Collection TaskResult) : Collection TaskResult :=
  (env.insert results ⟨task.id, task.ip, str "false", errMsg, env.now⟩).1

/-- `reader.ReadString('\n')`: everything up to the first line feed, or the error. -/
def readString (received : GoString × GoString) : Except GoString GoString :=
  if 10 ∈ received.1 then .ok (received.1.takeWhile (· ≠ 10) ++ [10]) else .error received.2

def sendData (task : Queue) : Record :=
  (∅ : Record)
    |>.insert (str "type") task.type
    |>.insert (str "command") task.command

/-- `sendTask`: the collection `task_result` afterwards. -/
def sendTask (env : SendEnv) (task : Queue) (results : Collection TaskResult) :
    Collection TaskResult :=
  match env.dial (task.ip ++ str ":65512") with
  | some err => saveError env task err results
  | none =>
    match env.rsaEncrypt (env.marshal (sendData task)) with
    | .error err => saveError env task err results
    | .ok encryptData =>
      match readString (env.exchange encryptData) with
      | .error err => saveError env task err results
      | .ok msg =>
        match env.unmarshal msg with
        | .error err => saveError env task err results
        | .ok res =>
          match env.insert results { res with taskID := task.taskID, time := env.now, ip := task.ip } with
          | (results', none) => results'
          | (results', some err) => saveError env task err results'

/-- One turn of the loop of `TaskThread`, with the `sendTask` it starts: the collections `queue` and
`task_result` afterwards. From an empty queue `res` stays the zero item. -/
def taskThread (env : SendEnv) (queue : Collection Queue) (results : Collection TaskResult) :
    Collection Queue × Collection TaskResult :=
  let res := (findAndRemove queue fun _ => true).1.getD Queue.zero
  let queue' := (findAndRemove queue fun _ => true).2
  if res.ip = [] then (queue', results) else (queue', sendTask env res results)

/-- The list of results that `TaskController.Get` shows for a task, latest first. -/
def taskResults (results : Collection TaskResult) (taskid : ObjectId) (start limit : ℕ) :
    List TaskResult :=
  find results (fun r => r.taskID == taskid) (fun a b => decide (b.time ≤ a.time)) start limit

/-! ## What the dispatcher is for -/

/-- The daemon answered the item with a line that decodes. -/
def SendEnv.Answers (env : SendEnv) (task : Queue) : Prop :=
  env.dial (task.ip ++ str ":65512") = none ∧
    ∃ encryptData msg res, env.rsaEncrypt (env.marshal (sendData task)) = .ok encryptData ∧
      readString (env.exchange encryptData) = .ok msg ∧ env.unmarshal msg = .ok res

/-- One result was added, it belongs to the item's task and host, and the console finds it. -/
def Attributed (task : Queue) (results results' : Collection TaskResult) : Prop :=
  ∃ r, results' = results ++ [r] ∧ r.taskID = task.taskID ∧ r.ip = task.ip ∧
    r ∈ taskResults results' task.taskID 0 0

end YulongHids.Server
