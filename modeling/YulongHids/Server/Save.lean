import YulongHids.Server.Models

/-!
# Storing collected information

The part of `ResultSave` (`server/action/save.go`) for the `info` collection, which keeps the last
list of each host and type. Four types go to Elasticsearch instead.
-/

namespace YulongHids.Server

open Golang Mongo

/-- The types that are stored in Elasticsearch. -/
def esTypes : List GoString := [str "loginlog", str "connection", str "process", str "file"]

/-- The `info` collection: its documents are batches as they were received. -/
abbrev InfoCollection := Collection DataInfo

/-- The selector `{"ip": ip, "type": type}`. -/
def infoSelector (ip type : GoString) (d : DataInfo) : Bool := d.ip == ip && d.type == type

/-- `ResultSave` on the `info` collection. -/
def infoSave (c : InfoCollection) (datainfo : DataInfo) : InfoCollection :=
  if datainfo.type ∈ esTypes then c
  else if 1 ≤ count c (infoSelector datainfo.ip datainfo.type) then
    update c (infoSelector datainfo.ip datainfo.type) fun d =>
      { d with data := datainfo.data, uptime := datainfo.uptime }
  else
    Mongo.insert c datainfo

/-- `PutInfo` on the `info` collection, at the time `now`. A batch without records is ignored. -/
def infoPut (c : InfoCollection) (datainfo : DataInfo) (now : ℕ) : InfoCollection :=
  if datainfo.data = [] then c else infoSave c { datainfo with uptime := now }

/-- The list that is stored for a host and a type; nothing stored is the empty list. -/
def stored (c : InfoCollection) (ip type : GoString) : List Record :=
  ((one c (infoSelector ip type)).map DataInfo.data).getD []

end YulongHids.Server
