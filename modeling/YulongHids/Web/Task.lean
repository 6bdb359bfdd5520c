import YulongHids.Mongo.Collection
import YulongHids.Web.Net

/-!
# Tasks of the console

`Task.Save` (`web/models/task.go`): the host list of a task, with its tags replaced by the addresses
of clients, is turned into one queue item per host.
-/

namespace YulongHids.Web

open Golang Mongo

structure Client where
  ip : GoString
  system : GoString
  deriving DecidableEq

/-- `Task`, before `Save` sets its id and time. -/
structure Task where
  name : GoString
  hostList : List GoString
  type : GoString
  command : GoString

/-- `Queue`, a document of the `queue` collection. -/
structure Queue where
  taskID : ObjectId
  time : ℕ
  ip : GoString
  type : GoString
  command : GoString
  deriving DecidableEq

/-- The regular expression `windows`, with case ignored. -/
def matchesWindows (system : GoString) : Bool := contains (system.map lowerByte) (str "windows")

/-- The `client` collection and its answers to the three `Distinct` queries of `Save`. A query that
fails is logged and yields no address. -/
structure ClientStore where
  clients : Collection Client
  all : Option (Distinct clients (fun _ => true) Client.ip)
  windows : Option (Distinct clients (fun c => matchesWindows c.system) Client.ip)
  linux : Option (Distinct clients (fun c => !matchesWindows c.system) Client.ip)

/-- What `Save` meets: the new task id, the time, whether the task document is stored, and whether
the queue document number `n` is. -/
structure SaveEnv where
  newObjectId : ObjectId
  now : ℕ
  insertTask : Bool
  insertQueue : ℕ → Bool

/-- The `queue` collection, with the number of inserts that `Save` made so far. -/
structure QueueStore where
  items : Collection Queue
  inserts : ℕ

/-- `DeleteElementInSlient`: without the first occurrence. -/
def deleteElementInSlient (sl : List GoString) (s : GoString) : List GoString := sl.erase s

/-- The host list with its tags replaced. -/
def expandTags (store : ClientStore) (hostList : List GoString) : List GoString :=
  let hostList :=
    if str "all" ∈ hostList then store.all.elim [] Distinct.values else hostList
  let hostList :=
    if str "windows" ∈ hostList then
      deleteElementInSlient hostList (str "windows") ++ store.windows.elim [] Distinct.values
    else hostList
  if str "linux" ∈ hostList then
    deleteElementInSlient hostList (str "linux") ++ store.linux.elim [] Distinct.values
  else hostList

/-- `addQueue`: a failed insert is only logged. -/
def addQueue (env : SaveEnv) (c : Task) (queue : QueueStore) (ip : GoString) : QueueStore where
  items :=
    if env.insertQueue queue.inserts then
      Mongo.insert queue.items ⟨env.newObjectId, env.now, ip, c.type, c.command⟩
    else queue.items
  inserts := queue.inserts + 1

/-- What `Save` returned, `none` for a panic, and the queue it left. -/
structure SaveRun where
  returned : Option Bool
  queue : Collection Queue

/-- The loop over the host list. In the branch of a range it is the range that is appended to
`addedLst`, once for each of its addresses. -/
def queueLoop (env : SaveEnv) (c : Task) :
    List GoString → List GoString → QueueStore → SaveRun
  | [], _, queue => ⟨some true, queue.items⟩
  | ip :: rest, addedLst, queue =>
    if ip ∈ addedLst then ⟨some true, queue.items⟩
    else if 45 ∈ ip then
      match split ip 45 with
      | [a, b] =>
        match betweenIP a b with
        | none => ⟨none, queue.items⟩
        | some subIPLst =>
          queueLoop env c rest (addedLst ++ subIPLst.map fun _ => ip)
            (subIPLst.foldl (addQueue env c) queue)
      | _ => queueLoop env c rest addedLst queue
    else queueLoop env c rest (addedLst ++ [ip]) (addQueue env c queue ip)

def Task.save (env : SaveEnv) (store : ClientStore) (queue : Collection Queue) (c : Task) :
    SaveRun :=
  if env.insertTask then queueLoop env c (expandTags store c.hostList) [] ⟨queue, 0⟩
  else ⟨some false, queue⟩

/-! ## What the host list means -/

/-- An IPv4 range, `a-b` in dotted notation. -/
def rangeText (a b : ℕ) : GoString := addrText a ++ [45] ++ addrText b

/-- A host denoted by one entry of a host list: the entry itself, or an address of its range. -/
def EntryDenotes (entry h : GoString) : Prop :=
  (45 ∉ entry ∧ h = entry) ∨
    ∃ a b n, a ≤ n ∧ n ≤ b ∧ b < 2 ^ 32 ∧ entry = rangeText a b ∧ h = addrText n

/-- A host denoted by a host list with tags. -/
def Denotes (clients : Collection Client) (hostList : List GoString) (h : GoString) : Prop :=
  if str "all" ∈ hostList then ∃ c ∈ clients, c.ip = h
  else
    (∃ entry ∈ hostList, entry ≠ str "windows" ∧ entry ≠ str "linux" ∧ EntryDenotes entry h) ∨
    (str "windows" ∈ hostList ∧ ∃ c ∈ clients, matchesWindows c.system = true ∧ c.ip = h) ∨
    (str "linux" ∈ hostList ∧ ∃ c ∈ clients, matchesWindows c.system = false ∧ c.ip = h)

/-! ## What the loop does with an entry -/

/-- The addresses queued for an entry, `none` if it makes the loop panic. -/
def entryHosts (entry : GoString) : Option (List GoString) :=
  if 45 ∈ entry then
    match split entry 45 with
    | [a, b] => betweenIP a b
    | _ => some []
  else some [entry]

def hosts (entry : GoString) : List GoString := (entryHosts entry).getD []

/-- Host lists without a malformed range, in which no entry with a host occurs twice. -/
structure Unrepeated (entries : List GoString) : Prop where
  wellFormed : ∀ e ∈ entries, entryHosts e ≠ none
  nodup : (entries.filter fun e => hosts e ≠ []).Nodup

/-! ## Malformed ranges -/

/-- `net.ParseIP(s).To4() != nil`: an IPv4 address, also one in the mapped form of IPv6. -/
def isIPv4Text (s : GoString) : Bool := (to4 (parseIP s)).isSome

/-- An entry that is not read as a range, or one with an IPv4 address at both ends. -/
def RangeOk (entry : GoString) : Prop :=
  ∀ a b, split entry 45 = [a, b] → isIPv4Text a = true ∧ isIPv4Text b = true

/-- The four bytes of an address as a number, zero for other texts. -/
def addrNumber (s : GoString) : ℕ :=
  Nat.ofDigits 256 (((to4 (parseIP s)).getD []).map UInt8.toNat).reverse

/-- A plain entry, or a range that ascends. -/
def namesHost (entry : GoString) : Bool :=
  if 45 ∈ entry then
    match split entry 45 with
    | [a, b] => addrNumber a < addrNumber b
    | _ => false
  else true

/-- No entry that names a host occurs twice. -/
def NoRepeats (entries : List GoString) : Prop := (entries.filter fun e => namesHost e).Nodup

end YulongHids.Web
