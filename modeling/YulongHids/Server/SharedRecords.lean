import YulongHids.Server.Save
import YulongHids.Server.Statistics
import YulongHids.Transition.Run

/-!
# The records of a batch, shared

`PutInfo` (`server/server.go`) hands the maps of a batch on by reference: `ResultSave` queues them for
Elasticsearch, `ResultStat` rewrites them, and the scan reads them. `InsertThread`
(`server/models/es.go`) writes a queued document out at some later moment, with what its map has
then.
-/

namespace YulongHids.Server

open Golang Mongo Transition

/-- A step of `PutInfo`, or of the scan behind it, on record number `i` of the batch. -/
inductive RecordStep where
  /-- `delete(v, "time")`. -/
  | deleteTime (i : ℕ)
  /-- `InsertEs`, which queues the record. -/
  | insertEs (i : ℕ)
  /-- The loop body of `ResultStat`. -/
  | stat (i : ℕ)
  /-- The loop body of `Check.Run`. -/
  | check (i : ℕ)
  deriving DecidableEq

/-- The steps of `ResultSave` on the records; a time that is no number ends it. -/
def saveSteps (datainfo : DataInfo) : List RecordStep :=
  if datainfo.type ∈ esTypes then
    if datainfo.type = str "loginlog" then
      (List.range datainfo.data.length).flatMap fun i => [.deleteTime i, .insertEs i]
    else
      match (atoi ((datainfo.data.headD ∅).get (str "time"))).2 with
      | some _ => []
      | none => [.deleteTime 0, .insertEs 0]
  else []

/-- The steps of `ResultStat`. -/
def statSteps (datainfo : DataInfo) : List RecordStep :=
  if (mainMapping.lookup datainfo.type).isSome then
    (List.range datainfo.data.length).map .stat
  else []

/-- All steps for a batch in their order; one without records is ignored. -/
def putInfoSteps (datainfo : DataInfo) : List RecordStep :=
  if datainfo.data = [] then []
  else saveSteps datainfo ++ (statSteps datainfo ++ (List.range datainfo.data.length).map .check)

/-- The maps of the batch, the documents in the queue (each the number of its map), the steps that
are done and those that are to come, and for the statements what was written to Elasticsearch and
what was checked. -/
structure SharedState where
  heap : List Record
  queue : List ℕ
  done : List RecordStep
  todo : List RecordStep
  archived : List (ℕ × Record)
  checked : List (ℕ × Record)

def sharedStart (datainfo : DataInfo) : SharedState :=
  ⟨datainfo.data, [], [], putInfoSteps datainfo, [], []⟩

/-- What a step does to its map. -/
def RecordStep.rewrite (type : GoString) : RecordStep → List Record → List Record
  | .deleteTime i, heap => heap.modify i fun v => v.erase (str "time")
  | .stat i, heap =>
    match mainMapping.lookup type with
    | none => heap
    | some k => heap.modify i (statRecord type k)
  | .insertEs _, heap => heap
  | .check _, heap => heap

def rewriteAll (type : GoString) (steps : List RecordStep) (heap : List Record) : List Record :=
  steps.foldl (fun heap step => step.rewrite type heap) heap

inductive SharedEvent where
  /-- `PutInfo`, or the scan, goes on by a step. -/
  | put
  /-- `InsertThread` writes out a document of the queue. -/
  | insert (j : ℕ)

def sharedStep (type : GoString) (s : SharedState) : SharedEvent → Option SharedState
  | .put =>
    match s.todo with
    | [] => none
    | step :: rest => some
        { s with
          heap := step.rewrite type s.heap
          queue := match step with
            | .insertEs i => s.queue ++ [i]
            | _ => s.queue
          done := s.done ++ [step]
          todo := rest
          checked := match step with
            | .check i => s.checked ++ (s.heap[i]?.map fun v => (i, v)).toList
            | _ => s.checked }
  | .insert j => s.queue[j]?.map fun i =>
      { s with
        queue := s.queue.eraseIdx j
        archived := s.archived ++ (s.heap[i]?.map fun v => (i, v)).toList }

/-! ## What is to be archived and scanned -/

/-- The fields of each type that `docs/rule.md` lists. -/
def ruleFields : List (GoString × List GoString) :=
  [("crontab", ["name", "command", "arg", "user", "rule", "description"]),
    ("listening", ["proto", "address", "name", "pid"]),
    ("service", ["name", "pathname", "started", "startmode", "startname", "caption"]),
    ("startup", ["name", "command", "location", "user"]),
    ("userlist", ["name", "description", "status"]),
    ("file", ["path", "action", "user", "hash"]),
    ("loginlog", ["username", "hostname", "remote", "status", "time"]),
    ("process", ["name", "command", "pid", "ppid", "parentname", "info"]),
    ("connection", ["dir", "protocol", "local", "remote", "name", "pid"])].map
    fun p => (str p.1, p.2.map str)

def fieldsOf (type : GoString) : List GoString := (ruleFields.lookup type).getD []

/-- A document is written out with what the agent sent, but for the time; a record is checked with
what the agent sent in the documented fields. -/
def Unaltered (datainfo : DataInfo) (s : SharedState) : SharedEvent → Prop
  | .put => ∀ i rest r v, s.todo = .check i :: rest → s.heap[i]? = some r →
      datainfo.data[i]? = some v → ∀ k ∈ fieldsOf datainfo.type, r.get k = v.get k
  | .insert j => ∀ i r v, s.queue[j]? = some i → s.heap[i]? = some r →
      datainfo.data[i]? = some v → ∀ k, k ≠ str "time" → r.get k = v.get k

/-- A connection with a port is written out before `ResultStat` gets to it; no connection with a port
is checked, and no login with a time. -/
def Untouched (datainfo : DataInfo) (s : SharedState) : SharedEvent → Prop
  | .put => ∀ i rest v, s.todo = .check i :: rest → datainfo.data[i]? = some v →
      (datainfo.type = str "connection" → 58 ∉ v.get (str "remote")) ∧
        (datainfo.type = str "loginlog" → v.get (str "time") = [])
  | .insert j => ∀ i v, s.queue[j]? = some i → datainfo.data[i]? = some v →
      datainfo.type = str "connection" → .stat i ∈ s.done → 58 ∉ v.get (str "remote")

end YulongHids.Server
