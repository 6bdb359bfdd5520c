import YulongHids.Agent.Lan
import YulongHids.Agent.ProcessMonitorWindows
import YulongHids.Gopcap.Decode

/-!
# The connection monitor of the agent

`StartNetSniff` (`agent/monitor/connection_linux.go`, `agent/monitor/connection_windows.go`). The two
loops differ only in how they look up the process of a TCP connection.
-/

namespace YulongHids.Agent

open Golang Gopcap

/-- What the loop reads of the configuration and of the state of the agent. -/
structure SniffConfig where
  localIP : GoString
  serverIPList : List GoString
  /-- `ServerInfo.Type`. -/
  serverType : GoString
  lan : Bool
  udp : Bool
  /-- `Config.Filter.IP`. -/
  filterIP : List GoString

/-- A captured frame that `Decode` gets through, with the text of its time (digits, letters, signs
and blanks). -/
structure Frame where
  data : List UInt8
  packet : Packet
  decoded : decode data = some packet
  time : GoString
  time_text : 91 ∉ time

/-- What an iteration meets: the configuration, the frame, and what a process lookup would find. -/
structure SniffInput (ω : Type) where
  cfg : SniffConfig
  frame : Frame
  owner : ω

def isFilterPort (port : ℕ) : Bool := [137, 139, 445].any (· == port)

/-- `fmt.Sprintf("%s:%d", ip, port)`. -/
def hostPort (ip : GoString) (port : ℕ) : GoString := ip ++ str ":" ++ itoa port

/-- `resultdata` when it is sent. -/
def netRecord (dir protocol remote localAddr pid name : GoString) : Record :=
  (∅ : Record)
    |>.insert (str "source") (str "connection")
    |>.insert (str "dir") dir
    |>.insert (str "protocol") protocol
    |>.insert (str "remote") remote
    |>.insert (str "local") localAddr
    |>.insert (str "pid") pid
    |>.insert (str "name") name

/-- The end of an iteration with the ports of a segment. The process is looked up for a record only;
`none` is a panic of the lookup. -/
def sniffPorts (cfg : SniffConfig) (out : Bool) (protocol ip : GoString) (srcPort destPort : ℕ)
    (process : Option (GoString × GoString)) : Turn :=
  let port := if out then destPort else srcPort
  let localPort := if out then srcPort else destPort
  if isFilterPort port || isFilterPort localPort then .skip
  else
    match process with
    | none => .panic
    | some (pid, name) =>
      .send (netRecord (if out then str "out" else str "in") protocol (hostPort ip port)
        (hostPort cfg.localIP localPort) pid name)

/-- The test of the addresses of a packet: from or to this host, and not a server. -/
def concernsHost (txt : TextLib) (cfg : SniffConfig) (ip : Iphdr) : Bool :=
  (cfg.localIP == ip.srcIp.string || cfg.localIP == ip.destIp.string) &&
    !inArray txt cfg.serverIPList ip.srcIp.string false &&
    !inArray txt cfg.serverIPList ip.destIp.string false

/-- The packet leaves this host. -/
def outgoing (cfg : SniffConfig) (ip : Iphdr) : Bool := cfg.localIP == ip.srcIp.string

def remoteIP (cfg : SniffConfig) (ip : Iphdr) : GoString :=
  if outgoing cfg ip then ip.destIp.string else ip.srcIp.string

/-- The end of an iteration for a packet that passed the tests of its addresses; `process` is what the
lookup gives. The headers of the packet are nil pointers if `none`. -/
def sniffSegment (cfg : SniffConfig) (frame : Frame) (iphdr : Iphdr)
    (process : Option (GoString × GoString)) : Turn :=
  let pkt := frame.packet
  let out := outgoing cfg iphdr
  let ip := remoteIP cfg iphdr
  if iphdr.protocol = 17 then
    if cfg.udp = false then .skip
    else
      match pkt.udp with
      | none => .panic
      | some udp => sniffPorts cfg out (str "udp") ip udp.srcPort udp.destPort (some ([], []))
  else if iphdr.protocol = 6 ∧
      contains (pkt.string frame.time (be16 frame.data 12)) (str "[syn]") = true then
    match pkt.tcp with
    | none => .panic
    | some tcp => sniffPorts cfg out (str "tcp") ip tcp.srcPort tcp.destPort process
  else .skip

/-- One iteration; `process` is the lookup. -/
def sniffTurn {ω : Type} (process : ω → Option (GoString × GoString)) (txt : TextLib)
    (i : SniffInput ω) : Turn :=
  let cfg := i.cfg
  match i.frame.packet.ip with
  | none => .skip
  | some iphdr =>
    if concernsHost txt cfg iphdr = false then .skip
    else if cfg.serverType = str "web" ∧ outgoing cfg iphdr = false then .skip
    else
      match if cfg.lan then some false else isLan (remoteIP cfg iphdr) with
      | none => .panic
      | some true => .skip
      | some false =>
        if inArray txt cfg.filterIP (remoteIP cfg iphdr) false then .skip
        else sniffSegment cfg i.frame iphdr (process i.owner)

/-! ## The process of a connection -/

/-- What the C function `filter` finds on Linux: the number of a process, and its command up to the
first zero byte. -/
structure SocketOwner where
  pid : ℕ
  pid_lt : pid < 2 ^ 22
  cmdline : GoString

/-- `conName`: `snprintf` of `%s/%s` into the 20 bytes of `finbuf`. -/
def conName : Option SocketOwner → GoString
  | none => []
  | some o => (itoa o.pid ++ 47 :: o.cmdline.takeWhile (· != 0)).take 19

/-- The two parts of `conName`, `none` if there is no second one. -/
def linuxProcess (owner : Option SocketOwner) : Option (GoString × GoString) :=
  if conName owner = [] then some ([], [])
  else
    match splitN (conName owner) 47 2 with
    | [pid, name] => some (pid, name)
    | _ => none

/-- What the lookup on Windows finds: the number of a process, 0 without one, and what
`getProcessInfo` gives for it. -/
structure WinOwner where
  pid : ℕ
  info : Option WinProcess

def winProcess (owner : WinOwner) : Option (GoString × GoString) :=
  if owner.pid = 0 then some ([], [])
  else some (itoa owner.pid, (owner.info.map WinProcess.name).getD [])

def linuxSniffTurns (txt : TextLib) (inputs : List (SniffInput (Option SocketOwner))) : List Turn :=
  turnsOf (sniffTurn linuxProcess txt) inputs

def winSniffTurns (txt : TextLib) (inputs : List (SniffInput WinOwner)) : List Turn :=
  turnsOf (sniffTurn winProcess txt) inputs

/-! ## Packets that are looked at -/

/-- A packet that passes the tests in front of the protocol: it is from or to this host and not a
server, not incoming at a web server, not internal unless internal connections are logged, and not on
the white list. -/
structure Watched (txt : TextLib) (cfg : SniffConfig) (ip : Iphdr) : Prop where
  host : concernsHost txt cfg ip = true
  direction : ¬ (cfg.serverType = str "web" ∧ outgoing cfg ip = false)
  external : cfg.lan = true ∨
    ¬ Internal (if outgoing cfg ip then ip.destIp else ip.srcIp)
  unlisted : inArray txt cfg.filterIP (remoteIP cfg ip) false = false

/-- A UDP packet that is looked at has a whole UDP header behind its IP header, or UDP is not
logged. -/
def FrameOk (txt : TextLib) (cfg : SniffConfig) (f : Frame) : Prop :=
  ∀ ip, f.packet.ip = some ip → Watched txt cfg ip → ip.protocol = 17 → cfg.udp = true →
    8 ≤ f.packet.body.length

end YulongHids.Agent
