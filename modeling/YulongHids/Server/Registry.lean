import YulongHids.Golang.Strings
import YulongHids.Mongo.Collection
import YulongHids.Transition.Run

/-!
# The register of the servers

Every server refreshes its document in the collection `server` (`regServer`,
`server/models/common.go`), the console lists those of the last minute (`GetAliveServerList`,
`web/controllers/utils.go`), and a daemon lets a connection in if its address is in the list
(`isServer` and `setServerList`, `daemon/task/tcp.go`). Times are in milliseconds.
-/

namespace YulongHids.Server

open Golang Mongo

/-- A document of `server`. -/
structure Registration where
  netloc : GoString
  uptime : ℕ

/-- The address under which a server is registered. -/
def netlocOf (localIP : GoString) : GoString := localIP ++ str ":33433"

/-- The `Upsert` of `regServer`. -/
def regServer (servers : Collection Registration) (localIP : GoString) (now : ℕ) :
    Collection Registration :=
  if 1 ≤ count servers (fun r => r.netloc == netlocOf localIP) then
    update servers (fun r => r.netloc == netlocOf localIP) fun r => { r with uptime := now }
  else Mongo.insert servers ⟨netlocOf localIP, now⟩

def oneMinute : ℕ := 60 * 1000

/-- `GetAliveServerList` -/
def getAliveServerList (servers : Collection Registration) (now : ℕ) : List GoString :=
  (find servers (fun r => decide (now ≤ r.uptime + oneMinute))
    (fun a b => decide (b.uptime ≤ a.uptime)) 0 0).map Registration.netloc

/-- `strings.SplitN(addr, ":", 2)[0]` -/
def hostPart (addr : GoString) : GoString := (splitN addr 58 2).headD []

/-- How the request of `setServerList` ends: without a list, because the request fails or the answer
is no list of strings; with `null`, which is what the console answers if its query fails; or with the
list. -/
inductive Fetch where
  | failed
  | empty
  | list

/-- `setServerList`, at a daemon whose list was fetched before. -/
def setServerList (serverList : List GoString) (servers : Collection Registration) (now : ℕ) :
    Fetch → List GoString
  | .failed => serverList
  | .empty => []
  | .list => getAliveServerList servers now

/-- The loop of `isServer`. -/
def isServer (serverList : List GoString) (serverIP : GoString) : Bool :=
  serverList.any fun ip => serverIP == hostPart ip

/-! ## Servers and a daemon -/

/-- The clock, the collection, and the field `ServerList` of the daemon. -/
structure Registry where
  now : ℕ
  servers : Collection Registration
  serverList : List GoString

inductive RegistryEvent where
  | tick (d : ℕ)
  /-- A turn of `Heartbeat` at the server of an address, whose write may fail. -/
  | heartbeat (localIP : GoString) (ok : Bool)
  /-- The daemon accepts a connection and fetches the list. -/
  | connect (remoteAddr : GoString) (fetch : Fetch)

namespace Registry

/-- No server has registered yet, and the daemon has just been started. -/
def start (now : ℕ) : Registry := ⟨now, [], []⟩

def step (s : Registry) : RegistryEvent → Option Registry
  | .tick d => some { s with now := s.now + d }
  | .heartbeat localIP ok =>
    some (if ok then { s with servers := regServer s.servers localIP s.now } else s)
  | .connect _ fetch =>
    some { s with serverList := setServerList s.serverList s.servers s.now fetch }

/-- Whether a connection is given to `tcpPipe`. -/
def accepts (s : Registry) (remoteAddr : GoString) (fetch : Fetch) : Bool :=
  isServer (setServerList s.serverList s.servers s.now fetch) (hostPart remoteAddr)

end Registry

/-! ## What the register is for -/

/-- After the events of `es` the daemon has a new list. -/
def RegistryEvent.Replaces : RegistryEvent → Prop
  | .connect _ .list => True
  | .connect _ .empty => True
  | _ => False

/-- A server with this address has refreshed its document in the last minute. -/
def BeatWithin (s0 : Registry) (es : List RegistryEvent) (ip : GoString) (now : ℕ) : Prop :=
  ∃ es0 localIP es1 s, es = es0 ++ .heartbeat localIP true :: es1 ∧
    Transition.run Registry.step s0 es0 = some s ∧ hostPart (netlocOf localIP) = ip ∧
    now ≤ s.now + oneMinute

/-- The last list that the daemon got is one with the address of a server that was alive then. -/
def LastListHas (s0 : Registry) (es : List RegistryEvent) (ip : GoString) : Prop :=
  ∃ es1 remoteAddr es2 s1, es = es1 ++ .connect remoteAddr .list :: es2 ∧
    (∀ e ∈ es2, ¬ e.Replaces) ∧ Transition.run Registry.step s0 es1 = some s1 ∧
    BeatWithin s0 es1 ip s1.now

end YulongHids.Server
