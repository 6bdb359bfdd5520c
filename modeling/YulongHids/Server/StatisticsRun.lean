import YulongHids.Server.FirstSeen
import YulongHids.Transition.Run

/-!
# Concurrent counting

Calls of `ResultStat` run side by side, on one server or on several, against one `statistics`
collection without a unique index. The database makes each query and each write atomic, so a
record takes two steps: the `Count`, and the `Update` or `Insert` that its result decides on.
-/

namespace YulongHids.Server

open Golang Mongo Transition

/-- A call of `ResultStat`: the records it has still to count (in `datainfo`), the field `k` that is
counted, and `count >= 1` for the first of the records once its `Count` was made. -/
structure StatCall where
  datainfo : DataInfo
  k : GoString
  found : Option Bool

/-- A call that starts; for a type outside `mainMapping` it returns at once. -/
def startCall (datainfo : DataInfo) : StatCall :=
  match mainMapping.lookup datainfo.type with
  | none => ⟨{ datainfo with data := [] }, [], none⟩
  | some k => ⟨datainfo, k, none⟩

def StatCall.finished (call : StatCall) : Prop := call.datainfo.data = []

/-- `v[k]` of a record, without the port for connections. -/
def StatCall.info (call : StatCall) (v : Record) : GoString :=
  (statRecord call.datainfo.type call.k v).get call.k

def StatCall.next (call : StatCall) (rest : List Record) : StatCall :=
  { call with datainfo := { call.datainfo with data := rest }, found := none }

/-- One atomic database step of a call: the collection and the call afterwards. -/
def StatCall.step (c : Statistics) (call : StatCall) : Option (Statistics × StatCall) :=
  match call.datainfo.data with
  | [] => none
  | v :: rest =>
    let selector := statSelector call.datainfo.type (call.info v)
    match call.found with
    | none => some (c, { call with found := some (decide (1 ≤ count c selector)) })
    | some true => some
        (update c selector (statUpdate call.datainfo.ip call.datainfo.uptime), call.next rest)
    | some false => some
        (Mongo.insert c
          ⟨call.datainfo.type, call.info v, 1, [call.datainfo.ip], call.datainfo.uptime⟩,
          call.next rest)

/-- The collection, and the calls that are under way. -/
structure StatState where
  statistics : Statistics
  calls : List StatCall

/-- Call number `i` makes its next step. -/
def statStep (s : StatState) (i : ℕ) : Option StatState :=
  match s.calls[i]? with
  | none => none
  | some call =>
    match call.step s.statistics with
    | none => none
    | some (c, call') => some ⟨c, s.calls.set i call'⟩

/-- All batches are received, none of them is counted. -/
def statStart (batches : List DataInfo) : StatState := ⟨[], batches.map startCall⟩

/-! ## What the counting is for -/

/-- One received value: its type, the value, and the reporting host. -/
structure Received where
  type : GoString
  info : GoString
  ip : GoString
  deriving DecidableEq

/-- The values a batch reports. -/
def receivedOf (datainfo : DataInfo) : List Received :=
  match mainMapping.lookup datainfo.type with
  | none => []
  | some k => datainfo.data.map fun v =>
      ⟨datainfo.type, mainValue datainfo.type k v, datainfo.ip⟩

/-- The hosts that reported a value, each as often as it did. -/
def hostsOf (received : List Received) (type info : GoString) : List GoString :=
  (received.filter fun r => r.type == type && r.info == info).map Received.ip

/-- The documents of a value are one document with its number of reports and its hosts, and none if
it was not reported. -/
def Reflects (ips : List GoString) (docs : List StatDoc) : Prop :=
  if ips = [] then docs = []
  else ∃ d, docs = [d] ∧ d.count = ips.length ∧ ∀ ip, ip ∈ d.serverList ↔ ip ∈ ips

/-- The collection counts exactly the received values. -/
def StatExact (received : List Received) (c : Statistics) : Prop :=
  ∀ type info, Reflects (hostsOf received type info) (c.filter (statSelector type info))

/-- If call number `i` is about to insert a document, there is none for its value yet. -/
def InsertsFresh (s : StatState) (i : ℕ) : Prop :=
  ∀ call v rest, s.calls[i]? = some call → call.found = some false →
    call.datainfo.data = v :: rest →
    s.statistics.filter (statSelector call.datainfo.type (call.info v)) = []

end YulongHids.Server
