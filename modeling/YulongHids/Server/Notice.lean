import YulongHids.Golang.Strings
import YulongHids.Mongo.UniqueIndex

/-!
# The notice collection

Server and console share one collection of notices. Its documents have a status: 0 for an open one,
1 and 2 for those that were dealt with and that are ignored, more than 2 for those of the watch mode.
-/

namespace YulongHids.Server

open Golang Mongo

/-- A document of the `notice` collection. The server does not set `uptime`, the console does when it
changes the status of one notice. -/
structure Notice where
  id : ObjectId
  type : GoString
  ip : GoString
  source : GoString
  level : ℤ
  info : GoString
  status : ℤ
  uptime : Option ℕ
  deriving DecidableEq

/-- The fields of the unique index that `initDB` creates (`web/controllers/install.go`). -/
def Notice.key (n : Notice) : GoString × GoString × GoString × ℤ × Option ℕ :=
  (n.ip, n.info, n.type, n.status, n.uptime)

abbrev Notices := Indexed Notice.key

/-- Two notices of one alert. -/
def SameAlert (n m : Notice) : Prop := n.ip = m.ip ∧ n.info = m.info ∧ n.type = m.type

end YulongHids.Server
