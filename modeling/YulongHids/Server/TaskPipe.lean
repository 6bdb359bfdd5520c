import YulongHids.Golang.Base64
import YulongHids.Golang.Json
import YulongHids.Server.Rsa
import YulongHids.Server.Task
import YulongHids.Daemon.TaskPipe

/-!
# A task connection of the server

The parts that `sendTask` (`server/action/task.go`) is made of: `rsaEncrypt` (`server/action/rsa.go`),
the line it writes, and the reading of the daemon's answer into a `taskResult`.
-/

namespace YulongHids.Server

open Golang Mongo

/-- `rsaEncrypt`, with the key that is made of the text of the private key or the error. -/
def rsaEncrypt (random : Option (List (Except GoString ℕ))) (key : Except GoString PrivateKey)
    (origData : GoString) : Option (Except GoString (List UInt8)) :=
  match key with
  | .error err => some (.error err)
  | .ok pri => priKeyEncrypt random pri origData

/-- The line that is sent to the daemon. -/
def taskLine (encryptData : List UInt8) : GoString := Base64.encodeToString encryptData ++ [10]

/-! ## The answer -/

/-- A name without its case, as fields are found by it: the letters of ASCII and the two letters
that are folded to `s` and `k`. -/
def foldName (name : GoString) : GoString :=
  (runes name).flatMap fun r =>
    if r.value = some 0x17F then str "s"
    else if r.value = some 0x212A then str "k"
    else r.bytes.map lowerByte

/-- How the fields of `taskResult` that are not strings read a value, `none` for an error. -/
structure FieldDecoders where
  objectId : Json → Option ObjectId
  time : Json → Option ℕ

/-- A member of the answer that is read into a field of type `string`. -/
def unmarshalString (old : GoString) : Json → Option GoString
  | .string s => some s
  | .null => some old
  | _ => none

def unmarshalField (decoders : FieldDecoders) (res : TaskResult) (member : GoString × Json) :
    Option TaskResult :=
  let name := foldName member.1
  if name = str "taskid" then (decoders.objectId member.2).map fun v => { res with taskID := v }
  else if name = str "ip" then (unmarshalString res.ip member.2).map fun v => { res with ip := v }
  else if name = str "status" then
    (unmarshalString res.status member.2).map fun v => { res with status := v }
  else if name = str "data" then (unmarshalString res.data member.2).map fun v => { res with data := v }
  else if name = str "time" then (decoders.time member.2).map fun v => { res with time := v }
  else some res

/-- `json.Unmarshal` into an empty `taskResult`, `none` for an error. -/
def unmarshalResult (decoders : FieldDecoders) (msg : GoString) : Option TaskResult :=
  match Json.decode msg with
  | some (.object members) => members.foldlM (unmarshalField decoders) ⟨[], [], [], [], 0⟩
  | some .null => some ⟨[], [], [], [], 0⟩
  | _ => none

/-- The steps of `sendTask` are those of the libraries, and the other end of the connection answers
the line by `daemon`. -/
structure SendEnv.Connected (env : SendEnv) (random : Option (List (Except GoString ℕ)))
    (key : Except GoString PrivateKey) (decoders : FieldDecoders)
    (daemon : GoString → GoString × GoString) : Prop where
  marshal : env.marshal = Json.marshalMap
  encrypt : ∀ origData r, Server.rsaEncrypt random key origData = some r →
    env.rsaEncrypt origData = r
  exchange : ∀ encryptData, env.exchange encryptData = daemon (taskLine encryptData)
  unmarshal : ∀ msg res, unmarshalResult decoders msg = some res → env.unmarshal msg = .ok res
  unmarshalError : ∀ msg, unmarshalResult decoders msg = none → ∃ err, env.unmarshal msg = .error err

/-- The other end of a connection to the daemon: what it writes before the connection ends with `err`,
nothing if the daemon ends first. -/
def daemonEnd (denv : Daemon.TaskEnv) (key : Daemon.ParsedKey) (err : GoString) (sent : GoString) :
    GoString × GoString :=
  ((Daemon.tcpPipe denv key sent).getD [], err)

/-- What should be recorded for a task that is sent to a daemon with the public key of a modulus of
`k` bytes: the result of its `Run` if the daemon lives on, and otherwise the error of the connection. A
task that is too long is not sent. -/
def taskRecord (env : SendEnv) (denv : Daemon.TaskEnv) (k : ℕ) (err : GoString) (task : Queue) :
    TaskResult :=
  if (Json.marshalMap (sendData task)).length ≤ k - 11 then
    match (Daemon.newTask (coerceUTF8 task.type) (coerceUTF8 task.command)).run denv with
    | some result =>
      ⟨task.taskID, task.ip, coerceUTF8 (result.get (str "status")),
        coerceUTF8 (result.get (str "data")), env.now⟩
    | none => ⟨task.id, task.ip, str "false", err, env.now⟩
  else ⟨task.id, task.ip, str "false", str "data length error", env.now⟩

end YulongHids.Server
