import YulongHids.Agent.ProcessMonitor
import YulongHids.Transition.Run

/-!
# The list of the servers

`init`, `newClient` and `configRefresh` (`agent/client/agent.go`) keep the list of the servers and the
list of their addresses; the second one is what the connection monitor reads.
-/

namespace YulongHids.Agent

open Golang

/-- `strings.Split(server, ":")[0]` -/
def ipPart (server : GoString) : GoString := (split server 58).headD []

/-- `ServerList` and the servers of the `Client`, and the variables `common.LocalIP` and
`common.ServerIPList`. -/
structure AgentState where
  serverList : List GoString
  client : List GoString
  localIP : GoString
  serverIPList : List GoString

/-- An agent before `init`. -/
def newAgent : AgentState := ⟨[], [], [], []⟩

/-- The loop of `newClient`. `dial` gives the local address of a connection to a server, `none` for
the panic of `setLocalIP`. -/
def newClientLoop (dial : GoString → Option GoString) : List GoString → AgentState → Option AgentState
  | [], a => some a
  | server :: servers, a =>
    let a := { a with
      serverIPList := a.serverIPList ++ [ipPart server]
      client := a.client ++ [server] }
    if a.localIP = [] then
      match dial server with
      | none => none
      | some localAddr => newClientLoop dial servers { a with localIP := ipPart localAddr }
    else newClientLoop dial servers a

/-- `newClient` -/
def newClient (dial : GoString → Option GoString) (a : AgentState) : Option AgentState :=
  newClientLoop dial a.serverList { a with client := [] }

/-- What `init` meets: the list of the servers, `none` if it cannot be got, and whether the call of
`GetInfo` succeeds. -/
structure Startup where
  getServerList : Option (List GoString)
  dial : GoString → Option GoString
  getInfo : Bool

/-- `init`, `none` if it panics. -/
def init (env : Startup) : Option AgentState :=
  match env.getServerList with
  | none => none
  | some serverList =>
    if serverList = [] then none
    else
      match newClient env.dial { newAgent with serverList := serverList } with
      | none => none
      | some a => if a.localIP = [] ∨ env.getInfo = false then none else some a

/-- What one turn of `configRefresh` meets: whether `GetInfo` succeeds in time, and the list of the
servers. -/
structure Refresh where
  getInfo : Bool
  getServerList : Option (List GoString)
  dial : GoString → Option GoString

/-- Whether a server is not the one at its place in the list of the agent. -/
def anyMoved : List GoString → List GoString → Bool
  | server :: servers, old :: olds => server != old || anyMoved servers olds
  | _, _ => false

/-- One turn of `configRefresh`. -/
def configRefresh (a : AgentState) (r : Refresh) : Option AgentState :=
  match r.getInfo, r.getServerList with
  | false, _ => some a
  | true, none => some a
  | true, some serverList =>
    if serverList = [] then some a
    else if serverList.length = a.serverList.length then
      if anyMoved serverList a.serverList then newClient r.dial { a with serverList := serverList }
      else some a
    else newClient r.dial { a with serverList := serverList }

/-- Whether `StartNetSniff` goes on with a packet, by its two addresses. -/
def sniffed (txt : TextLib) (a : AgentState) (srcAddr destAddr : GoString) : Bool :=
  (a.localIP == srcAddr || a.localIP == destAddr) && !inArray txt a.serverIPList srcAddr false &&
    !inArray txt a.serverIPList destAddr false

/-- The address list is that of the servers, so that exactly the packets from and to other hosts are
recorded. -/
structure ServersKnown (a : AgentState) : Prop where
  ips : ∀ ip, ip ∈ a.serverIPList ↔ ip ∈ a.serverList.map ipPart
  traffic : ∀ txt srcAddr destAddr, sniffed txt a srcAddr destAddr = true ↔
    (a.localIP = srcAddr ∨ a.localIP = destAddr) ∧ srcAddr ∉ a.serverList.map ipPart ∧
      destAddr ∉ a.serverList.map ipPart

/-- A list that the agent gets has the addresses of all servers that it has so far. -/
def NoneLeaves (a : AgentState) (r : Refresh) : Prop :=
  r.getInfo = true → ∀ serverList, r.getServerList = some serverList → serverList ≠ [] →
    ∀ ip ∈ a.serverList.map ipPart, ip ∈ serverList.map ipPart

end YulongHids.Agent
