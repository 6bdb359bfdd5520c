import YulongHids.Golang.Base64
import YulongHids.Golang.Json
import YulongHids.Daemon.Rsa
import YulongHids.Daemon.Task

/-!
# A task connection of the daemon

`tcpPipe` (`daemon/task/tcp.go`) reads one line from a connection, runs the task in it and writes the
result; `rsaDecrypt` (`daemon/task/rsa.go`) decrypts the line with the public key of the console.
-/

namespace YulongHids.Daemon

open Golang

/-- What `pem.Decode` and `x509.ParsePKIXPublicKey` make of the text of the public key. A key of
another kind is not an `*rsa.PublicKey`. -/
inductive ParsedKey where
  | malformed (err : GoString)
  | rsa (pub : PublicKey)
  | otherKind

/-- `rsaDecrypt`, `none` for a panic. -/
def rsaDecrypt (key : ParsedKey) (ciphertext : List UInt8) : Option (Except GoString (List UInt8)) :=
  match key with
  | .malformed err => some (.error err)
  | .rsa pub => pubKeyDecrypt pub ciphertext
  | .otherKind => none

/-- What `tcpPipe` makes of what it reads. -/
inductive Received where
  | closed
  | task (t : Task)
  | panicked

/-- The task in a decrypted line. -/
def readTask (decryptdata : GoString) : Received :=
  match Json.unmarshalMap decryptdata with
  | none => .closed
  | some taskData => .task (newTask (taskData.get (str "type")) (taskData.get (str "command")))

/-- `tcpPipe` up to the call of `Run`, on all that the other end sends. -/
def receiveTask (key : ParsedKey) (sent : GoString) : Received :=
  if 10 ∈ sent then
    let message := sent.takeWhile (· ≠ 10) ++ [10]
    match rsaDecrypt key (Base64.decodeString message) with
    | none => .panicked
    | some (.error _) => .closed
    | some (.ok decryptdata) => readTask decryptdata
  else .closed

/-- `tcpPipe`: what is written before the connection is closed, `none` if the daemon ends instead. -/
def tcpPipe (env : TaskEnv) (key : ParsedKey) (sent : GoString) : Option GoString :=
  match receiveTask key sent with
  | .closed => some []
  | .panicked => none
  | .task t => (t.run env).map fun result => Json.marshalMap result ++ [10]

end YulongHids.Daemon
