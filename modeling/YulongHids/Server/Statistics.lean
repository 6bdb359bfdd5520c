import YulongHids.Server.Models

/-!
# Counting the received records

`ResultStat` (`server/action/statistics.go`) counts, over all agents, how often each value of a
type's main field was received. It also rewrites the remote address of connection records, in the
maps that the batch shares with the later stages.
-/

namespace YulongHids.Server

open Golang Mongo

/-- `mainMapping`: the field that is counted, for the types that are. -/
def mainMapping : GoMap GoString :=
  (∅ : GoMap GoString)
    |>.insert (str "process") (str "name")
    |>.insert (str "userlist") (str "name")
    |>.insert (str "listening") (str "address")
    |>.insert (str "connection") (str "remote")
    |>.insert (str "loginlog") (str "remote")
    |>.insert (str "startup") (str "name")
    |>.insert (str "crontab") (str "command")
    |>.insert (str "service") (str "name")

/-- The assignment `v[k] = strings.Split(v[k], ":")[0]` for connections. -/
def statRecord (type k : GoString) (v : Record) : Record :=
  if type = str "connection" then v.insert k (cutPort (v.get k)) else v

/-- The update of an existing counter: `$set` uptime, `$inc` count, `$addToSet` server_list. -/
def statUpdate (ip : GoString) (uptime : ℕ) (d : StatDoc) : StatDoc :=
  { d with
    count := d.count + 1
    serverList := if ip ∈ d.serverList then d.serverList else d.serverList ++ [ip]
    uptime := uptime }

/-- Counting one value: update its document if there is one, insert one otherwise. -/
def statValue (c : Statistics) (type info ip : GoString) (uptime : ℕ) : Statistics :=
  if 1 ≤ count c (statSelector type info) then
    update c (statSelector type info) (statUpdate ip uptime)
  else
    Mongo.insert c ⟨type, info, 1, [ip], uptime⟩

/-- The loop of `ResultStat` over the records of a batch. -/
def statLoop (type k ip : GoString) (uptime : ℕ) : Statistics → List Record → Statistics
  | c, [] => c
  | c, v :: rest => statLoop type k ip uptime
      (statValue c type ((statRecord type k v).get k) ip uptime) rest

/-- `ResultStat`: the collection afterwards, and the batch with its records as they are then. -/
def resultStat (c : Statistics) (datainfo : DataInfo) : Statistics × DataInfo :=
  match mainMapping.lookup datainfo.type with
  | none => (c, datainfo)
  | some k =>
    (statLoop datainfo.type k datainfo.ip datainfo.uptime c datainfo.data,
      { datainfo with data := datainfo.data.map (statRecord datainfo.type k) })

end YulongHids.Server
