import YulongHids.Golang.Strings
import YulongHids.Mongo.Collection

/-!
# The download controller of the console

`DloadController.Get` (`web/controllers/download.go`) with `action=check`: it compares a hash with
the one registered for a file and answers whether there is a newer version.
-/

namespace YulongHids.Web

open Golang Mongo

/-- `File`, the record of a published file. -/
structure File where
  platform : GoString
  system : GoString
  type : GoString
  hash : GoString

def systemArray : List GoString := [str "linux", str "windows"]

def platformArray : List GoString := [str "32", str "64"]

def typeArray : List GoString :=
  ["agent", "data", "daemon", "agent.exe", "data.zip", "daemon.exe"].map str

def fileSelector (system platform type : GoString) (f : File) : Bool :=
  f.system == system && f.platform == platform && f.type == type

/-- `DloadController.Get` with `action=check`: the body of the answer. A file without a record has
the hash of `File{}`, the empty string. -/
def dloadCheck (files : Collection File) (reqtype system platform hash : GoString) : GoString :=
  if system ∉ systemArray ∨ platform ∉ platformArray ∨ reqtype ∉ typeArray then str "0"
  else
    let res := (one files (fileSelector system platform reqtype)).getD ⟨[], [], [], []⟩
    if hash = res.hash then str "0" else str "1"

end YulongHids.Web
