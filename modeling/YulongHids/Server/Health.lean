import YulongHids.Golang.Strings
import YulongHids.Mongo.Collection
import YulongHids.Transition.Run

/-!
# The health checks of the server

`ComputerInfoSave` (`server/action/save.go`) refreshes the entry of a host in the collection `client`.
`cleanThread` removes the entries that were not refreshed for 72 hours, and `offlineCheckThread` sets
the field `health` of those that were not for 5 minutes (`server/safecheck/health.go`). The notices of
`offlineCheckThread` are left out. Times are in milliseconds.
-/

namespace YulongHids.Server

open Golang Mongo

/-! ## The collection `client` -/

/-- `ComputerInfo` without its time. -/
structure ComputerInfo where
  ip : GoString
  system : GoString
  hostname : GoString
  type : GoString
  path : List GoString

/-- A document of `client`. The field `health` is missing until it is set. -/
structure Client where
  info : ComputerInfo
  uptime : ℕ
  health : Option ℤ

def Client.ip (c : Client) : GoString := c.info.ip

abbrev Clients := Collection Client

/-- The selector `{"ip": ip}`. -/
def ipSelector (ip : GoString) (c : Client) : Bool := c.ip == ip

/-- The `Upsert` of `ComputerInfoSave`. -/
def upsertInfo (clients : Clients) (info : ComputerInfo) (uptime : ℕ) : Clients :=
  if 1 ≤ count clients (ipSelector info.ip) then
    update clients (ipSelector info.ip) fun c => { c with info := info, uptime := uptime }
  else
    Mongo.insert clients ⟨info, uptime, none⟩

/-- The `Update` of `ComputerInfoSave`, which brings a host back from health 1. -/
def setHealthy (clients : Clients) (ip : GoString) : Clients :=
  update clients (fun c => ipSelector ip c && (c.health == some 1 || c.health == none))
    fun c => { c with health := some 0 }

/-- The `Update` of `offlineCheckThread`. -/
def setOffline (clients : Clients) (ip : GoString) : Clients :=
  update clients (ipSelector ip) fun c => { c with health := some 1 }

/-- The `Remove` of `cleanThread`. -/
def removeClient (clients : Clients) (ip : GoString) : Clients :=
  (findAndRemove clients (ipSelector ip)).2

def hours72 : ℕ := 72 * 60 * 60 * 1000

def minutes5 : ℕ := 5 * 60 * 1000

/-- The hosts that were not refreshed in the time `limit` before `t`. -/
def offlineIPs (clients : Clients) (limit t : ℕ) : List GoString :=
  ((clients.filter fun c => decide (c.uptime + limit ≤ t)).map Client.ip).dedup

/-! ## Calls and threads -/

/-- What a call of `ComputerInfoSave` does next. It has read the clock. -/
inductive Save where
  | upsert (info : ComputerInfo) (uptime : ℕ)
  | health (ip : GoString)

/-- `cleanThread`: it has read the clock for its query, or it has the hosts of `todo` to remove. -/
inductive CleanThread where
  | query (t : ℕ)
  | remove (todo : List GoString)

/-- What `offlineCheckThread` does next; in the loop, with the hosts that come after this. -/
inductive OfflineStage where
  | query (t : ℕ)
  | update (todo : List GoString)
  | ping (todo : List GoString)

/-- `offlineCheckThread` with its variable `offlineIPList`, which outlives a round. -/
structure OfflineThread where
  offlineIPList : List GoString
  stage : OfflineStage

/-- The hosts that a thread has queried and not come to yet. -/
def CleanThread.todo : CleanThread → List GoString
  | .query _ => []
  | .remove todo => todo

/-- The time that a thread has read for its query. -/
def CleanThread.clock : CleanThread → Option ℕ
  | .query t => some t
  | .remove _ => none

def OfflineStage.clock : OfflineStage → Option ℕ
  | .query t => some t
  | .update _ => none
  | .ping _ => none

def OfflineStage.todo : OfflineStage → List GoString
  | .query _ => []
  | .update todo => todo
  | .ping todo => todo

/-- The clock, the collection, the calls of `ComputerInfoSave` that have not ended, and the threads. -/
structure HealthSystem where
  now : ℕ
  clients : Clients
  saves : List Save
  clean : CleanThread
  offline : OfflineThread

/-- A step. Writes to the collection may fail; a query that fails has no answer. -/
inductive HealthEvent where
  | tick (d : ℕ)
  /-- `ComputerInfoSave` is called and reads the clock. -/
  | save (info : ComputerInfo)
  /-- The next write of the `n`-th call. -/
  | saveStep (n : ℕ) (ok : Bool)
  | cleanClock
  | cleanQuery (answer : Option (List GoString))
  | cleanRemove (ok : Bool)
  | offlineClock
  | offlineQuery (answer : Option (List GoString))
  /-- The update for the next host, with `OfflineCheck` of the configuration. -/
  | offlineUpdate (ok offlineCheck : Bool)
  /-- The ping of a host. -/
  | offlinePing

namespace HealthSystem

/-- The threads before their first round. -/
def start (now : ℕ) (clients : Clients) : HealthSystem :=
  ⟨now, clients, [], .remove [], ⟨[], .update []⟩⟩

/-- A write to the collection. -/
def write (s : HealthSystem) (ok : Bool) (clients : Clients) : HealthSystem :=
  if ok then { s with clients := clients } else s

/-- An answer of `Distinct` has every host once, in some order. -/
def Answers (s : HealthSystem) (limit t : ℕ) (answer : Option (List GoString)) : Prop :=
  ∀ ips ∈ answer, ips.Perm (offlineIPs s.clients limit t)

instance (s : HealthSystem) (limit t : ℕ) (answer : Option (List GoString)) :
    Decidable (s.Answers limit t answer) :=
  match answer with
  | none => .isTrue nofun
  | some ips =>
    decidable_of_iff (ips.Perm (offlineIPs s.clients limit t))
      ⟨fun h _ hips => Option.some.inj hips ▸ h, fun h => h ips rfl⟩

def step (s : HealthSystem) : HealthEvent → Option HealthSystem
  | .tick d => some { s with now := s.now + d }
  | .save info => some { s with saves := s.saves ++ [.upsert info s.now] }
  | .saveStep n ok =>
    s.saves[n]?.map fun save =>
      match save with
      | .upsert info uptime =>
        { s.write ok (upsertInfo s.clients info uptime) with saves := s.saves.set n (.health info.ip) }
      | .health ip => { s.write ok (setHealthy s.clients ip) with saves := s.saves.eraseIdx n }
  | .cleanClock =>
    match s.clean with
    | .remove [] => some { s with clean := .query s.now }
    | _ => none
  | .cleanQuery answer =>
    match s.clean with
    | .query t =>
      if s.Answers hours72 t answer then
        -- the list is a new one in every round
        let offlineIPList := answer.getD []
        some { s with clean := .remove (if 100 ≤ offlineIPList.length then [] else offlineIPList) }
      else none
    | _ => none
  | .cleanRemove ok =>
    match s.clean with
    | .remove (ip :: todo) =>
      some { s.write ok (removeClient s.clients ip) with clean := .remove todo }
    | _ => none
  | .offlineClock =>
    match s.offline.stage with
    | .update [] => some { s with offline := { s.offline with stage := .query s.now } }
    | _ => none
  | .offlineQuery answer =>
    match s.offline.stage with
    | .query t =>
      if s.Answers minutes5 t answer then
        let offlineIPList := answer.getD s.offline.offlineIPList
        some { s with offline := ⟨offlineIPList, .update offlineIPList⟩ }
      else none
    | _ => none
  | .offlineUpdate ok offlineCheck =>
    match s.offline.stage with
    | .update (ip :: todo) =>
      let stage :=
        if !offlineCheck ∨ 20 ≤ s.offline.offlineIPList.length then OfflineStage.update todo
        else .ping todo
      some { s.write ok (setOffline s.clients ip) with offline := { s.offline with stage := stage } }
    | _ => none
  | .offlinePing =>
    match s.offline.stage with
    | .ping todo => some { s with offline := { s.offline with stage := .update todo } }
    | _ => none

/-! ## What the checks are for -/

/-- The entry that is found for a host was not refreshed in the time `limit`. -/
def Dead (s : HealthSystem) (limit : ℕ) (ip : GoString) : Prop :=
  ∀ c ∈ one s.clients (ipSelector ip), c.uptime + limit ≤ s.now

/-- No live host is dropped: what `cleanThread` removes was not refreshed for 72 hours, and what
`offlineCheckThread` sets to health 1 was not for 5 minutes. -/
def SparesLive (s : HealthSystem) : HealthEvent → Prop
  | .cleanRemove ok => ok = true → ∀ ip ∈ s.clean.todo.head?, s.Dead hours72 ip
  | .offlineUpdate ok _ => ok = true → ∀ ip ∈ s.offline.stage.todo.head?, s.Dead minutes5 ip
  | _ => True

/-- A call of `ComputerInfoSave` does not refresh a host that a thread has queried and not come to
yet, and a failed query of `offlineCheckThread` finds no host of its last list refreshed. -/
def Undisturbed (s : HealthSystem) : HealthEvent → Prop
  | .saveStep n ok => ok = true → ∀ info uptime, s.saves[n]? = some (.upsert info uptime) →
      (info.ip ∈ s.clean.todo → uptime + hours72 ≤ s.now) ∧
        (info.ip ∈ s.offline.stage.todo → uptime + minutes5 ≤ s.now)
  | .offlineQuery none => ∀ ip ∈ s.offline.offlineIPList, s.Dead minutes5 ip
  | _ => True

end HealthSystem

end YulongHids.Server
