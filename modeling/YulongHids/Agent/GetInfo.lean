import YulongHids.Server.Save
import YulongHids.Transition.Run

/-!
# Collected information, from the agent to the server

`getInfo` (`agent/client/agent.go`) collects one list of records for each type and sends those that
differ from the list it sent before. The call of `PutInfo` is asynchronous and its result is not
looked at: a list arrives at some later moment, or never.
-/

namespace YulongHids.Agent

open Golang Mongo Server Transition

/-- `mapComparison`: the lists have the same length, and every entry of a new record has the value
that the old record gives for its key. -/
def mapComparison (new old : List Record) : Bool :=
  new.length == old.length &&
    (new.zip old).all fun p => p.1.entries.all fun e => e.2 == p.2.get e.1

/-- The agent, the lists under way to the server, and the server's collection. What was sent and
what arrived so far is kept for the statements. -/
structure InfoState where
  historyCache : GoMap (List Record)
  inFlight : List DataInfo
  info : InfoCollection
  sent : List DataInfo
  arrived : List DataInfo

/-- The agent starts; the server may have lists of an earlier run. -/
def infoStart (info : InfoCollection) : InfoState := ⟨∅, [], info, [], []⟩

inductive InfoEvent where
  /-- An iteration of the inner loop of `getInfo`, on the list `v` just collected for `k`. -/
  | collect (k : GoString) (v : List Record)
  /-- A list under way is received and stored. -/
  | arrive (i : ℕ) (now : ℕ)
  /-- A list under way is lost. -/
  | fail (i : ℕ)

/-- An iteration of the outer loop: `allData` in the order of its range. -/
def getInfoCycle (allData : List (Sigma fun _ : GoString => List Record)) : List InfoEvent :=
  allData.map fun e => .collect e.1 e.2

/-- What the agent reports as "No change". -/
def InfoState.noChange (s : InfoState) (k : GoString) (v : List Record) : Bool :=
  v.isEmpty || mapComparison v ((s.historyCache.lookup k).getD [])

section Run

variable (localIP goos : GoString)

/-- `put` of a changed list, with the history updated behind it. -/
def InfoState.put (s : InfoState) (k : GoString) (v : List Record) : InfoState :=
  { s with
    historyCache := s.historyCache.insert k v
    inFlight := s.inFlight ++ [⟨localIP, k, goos, v, 0⟩]
    sent := s.sent ++ [⟨localIP, k, goos, v, 0⟩] }

def InfoState.receive (s : InfoState) (i : ℕ) (d : DataInfo) (now : ℕ) : InfoState :=
  { s with
    inFlight := s.inFlight.eraseIdx i
    info := infoPut s.info d now
    arrived := s.arrived ++ [d] }

def infoStep (s : InfoState) : InfoEvent → Option InfoState
  | .collect k v => some (if s.noChange k v then s else s.put localIP goos k v)
  | .arrive i now => s.inFlight[i]?.map fun d => s.receive i d now
  | .fail i => s.inFlight[i]?.map fun _ => { s with inFlight := s.inFlight.eraseIdx i }

end Run

/-! ## What the history is for -/

/-- Two maps with the same entries. -/
def SameRecord (a b : Record) : Prop := ∀ key, a.lookup key = b.lookup key

def SameData : List Record → List Record → Prop := List.Forall₂ SameRecord

def SameKeys : List Record → List Record → Prop :=
  List.Forall₂ fun a b => ∀ key, key ∈ a ↔ key ∈ b

/-- If the agent sees no change in a list that the server keeps in `info`, then that list is
stored. -/
def Agrees (ip : GoString) (s : InfoState) : InfoEvent → Prop
  | .collect k v => k ∉ esTypes → s.noChange k v = true → SameData (stored s.info ip k) v
  | _ => True

/-- The last of some lists that has the type `k`. -/
def lastOf (k : GoString) (l : List DataInfo) : Option (List Record) :=
  (l.filter fun d => d.type == k).getLast?.map DataInfo.data

/-- The last list that was sent is also the last that arrived, when the agent sees no change in a
list of its type with records. -/
def Delivered (s : InfoState) : InfoEvent → Prop
  | .collect k v => k ∉ esTypes → s.noChange k v = true → v ≠ [] →
      lastOf k s.arrived = lastOf k s.sent
  | _ => True

/-- The agent sees no change only in lists whose records have the keys they had when they were sent,
and in empty lists of a type of which nothing was stored at the start and nothing has arrived. -/
def Comparable (ip : GoString) (info : InfoCollection) (s : InfoState) : InfoEvent → Prop
  | .collect k v => k ∉ esTypes → s.noChange k v = true →
      if v = [] then stored info ip k = [] ∧ lastOf k s.arrived = none
      else SameKeys ((s.historyCache.lookup k).getD []) v
  | _ => True

/-! ## Changes that the comparison sees -/

/-- A key of the new record with another value, or a key the old one does not have with a value that
is not empty. -/
def EntryChanged (o v : Record) : Prop :=
  ∃ key x, v.lookup key = some x ∧
    ((∃ y, o.lookup key = some y ∧ y ≠ x) ∨ (o.lookup key = none ∧ x ≠ []))

/-- The number of records, or an entry of one of them, has changed. -/
def Changed (new old : List Record) : Prop :=
  new.length ≠ old.length ∨
    ∃ (i : ℕ) (v o : Record), new[i]? = some v ∧ old[i]? = some o ∧ EntryChanged o v

end YulongHids.Agent
