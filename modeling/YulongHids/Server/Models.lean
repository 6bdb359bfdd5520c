import YulongHids.Golang.Strings
import YulongHids.Mongo.Collection

/-!
# The data of the server

The types of `server/models/common.go` that detection works on, and the documents of the
`statistics` collection.
-/

namespace YulongHids.Server

open Golang Mongo

/-- `models.DataInfo`, a batch of records received from an agent. The time is in seconds. -/
structure DataInfo where
  ip : GoString
  type : GoString
  system : GoString
  data : List Record
  uptime : ℕ

/-- `rule`, one entry of a rule's map: how to judge a field (`type`) against a value (`data`). -/
structure Rule where
  type : GoString
  data : GoString

/-- The `Meta` part of `ruleInfo`. -/
structure RuleMeta where
  name : GoString
  author : GoString
  description : GoString
  level : ℤ

structure RuleInfo where
  about : RuleMeta
  source : GoString
  system : GoString
  rules : GoMap Rule
  and : Bool

/-- A document of the `statistics` collection. -/
structure StatDoc where
  type : GoString
  info : GoString
  count : ℤ
  serverList : List GoString
  uptime : ℕ
  deriving DecidableEq

abbrev Statistics := Collection StatDoc

/-- The selector `{"type": type, "info": info}`. -/
def statSelector (type info : GoString) (d : StatDoc) : Bool := d.type == type && d.info == info

/-- The stored count of `(type, info)`, if there is one. -/
def statCount (c : Statistics) (type info : GoString) : Option ℤ :=
  (one c (statSelector type info)).map StatDoc.count

/-- `strings.Split(s, ":")[0]`: a remote address without its port. -/
def cutPort (s : GoString) : GoString := (split s 58).headD []

end YulongHids.Server
