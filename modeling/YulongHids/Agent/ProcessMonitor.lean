import YulongHids.Golang.Strings

/-!
# The Linux process monitor of the agent

The read loop of `StartProcessMonitor` (`agent/monitor/process_linux.go`). The kernel hook sends
one datagram per exec event; the loop splits it at the byte 1, drops the agent's own children and
whatever the process filter matches, and sends one record per remaining event on `resultChan`.

The loop carries one variable across its iterations, the map `resultdata` of the record it built
last.
-/

namespace YulongHids.Agent

open Golang

/-- `common.InArray`. An invalid pattern is logged and matches nothing. -/
def inArray (txt : TextLib) (list : List GoString) (value : GoString) (regex : Bool) : Bool :=
  list.any fun v => if regex then (txt.compile v).any (· value) else value == v

/-- `ReadFromUDP` into `buf`: what does not fit in its 255 bytes is cut off. -/
def readFromUDP (datagram : List UInt8) : List UInt8 := datagram.take 255

/-- `proList`: the fields of `buf[0:n-1]`, that is of the message without its last byte. -/
def proList (buf : List UInt8) : List GoString := split buf.dropLast 1

/-- The record built from the fields of a message; `p` has at least six of them. -/
def processRecord (p : List GoString) : Record :=
  (∅ : Record)
    |>.insert (str "source") (str "process")
    |>.insert (str "name") (p.getD 0 [])
    |>.insert (str "command") (p.getD 0 [] ++ str " " ++ p.getD 1 [])
    |>.insert (str "pid") (p.getD 2 [])
    |>.insert (str "parentname") (p.getD 3 [])
    |>.insert (str "ppid") (p.getD 4 [])
    |>.insert (str "info") (if p.length = 6 then p.getD 5 [] else [])

/-- Whether the process filter matches the lower-cased name or command of a record. -/
def filtered (txt : TextLib) (filter : List GoString) (r : Record) : Bool :=
  inArray txt filter (txt.toLower (r.get (str "name"))) true ||
    inArray txt filter (txt.toLower (r.get (str "command"))) true

/-- What one iteration of the loop does after a message was read. -/
inductive Turn where
  /-- The slice `buf[0:n-1]` of an empty message is out of range. -/
  | panic
  /-- One of the three `continue` statements. -/
  | skip
  /-- A new record, kept in `resultdata` and sent on `resultChan`. -/
  | send (resultdata : Record)

/-- One iteration of the loop, on the message `buf` and with the `resultdata` of the iteration
before. The filter is applied before `resultdata` gets its new value. -/
def monitorTurn (txt : TextLib) (filter : List GoString) (getpid : ℤ) (resultdata : Record)
    (buf : List UInt8) : Turn :=
  if buf = [] then .panic
  else if (proList buf).length ≤ 5 then .skip
  else if (atoi ((proList buf).getD 4 [])).1 = getpid then .skip
  else if filtered txt filter resultdata then .skip
  else .send (processRecord (proList buf))

structure MonitorRun where
  sent : List Record
  crashed : Bool

/-- The loop from a given `resultdata` over the datagrams it receives. -/
def monitorLoop (txt : TextLib) (filter : List GoString) (getpid : ℤ) (resultdata : Record) :
    List (List UInt8) → MonitorRun
  | [] => ⟨[], false⟩
  | datagram :: rest =>
    match monitorTurn txt filter getpid resultdata (readFromUDP datagram) with
    | .panic => ⟨[], true⟩
    | .skip => monitorLoop txt filter getpid resultdata rest
    | .send r =>
      let run := monitorLoop txt filter getpid r rest
      ⟨r :: run.sent, run.crashed⟩

/-- `StartProcessMonitor`: the loop starts with the nil map. -/
def startProcessMonitor (txt : TextLib) (filter : List GoString) (getpid : ℤ)
    (datagrams : List (List UInt8)) : MonitorRun :=
  monitorLoop txt filter getpid ∅ datagrams

/-! ## What the monitor is for -/

def messageFields (datagram : List UInt8) : List GoString := proList (readFromUDP datagram)

def messageRecord (datagram : List UInt8) : Record := processRecord (messageFields datagram)

/-- A message of an exec event of another process. -/
structure ExecMessage (getpid : ℤ) (datagram : List UInt8) : Prop where
  nonempty : datagram ≠ []
  fields : 6 ≤ (messageFields datagram).length
  parent : (atoi ((messageFields datagram).getD 4 [])).1 ≠ getpid

/-- The records to report: those of the messages whose own name and command pass the filter. -/
def reportable (txt : TextLib) (filter : List GoString) (datagrams : List (List UInt8)) :
    List Record :=
  (datagrams.map messageRecord).filter fun r => !filtered txt filter r

/-! ## Iterations -/

/-- The iterations of the loop, up to one that panics. -/
def monitorTurns (txt : TextLib) (filter : List GoString) (getpid : ℤ) (resultdata : Record) :
    List (List UInt8) → List Turn
  | [] => []
  | datagram :: rest =>
    match monitorTurn txt filter getpid resultdata (readFromUDP datagram) with
    | .panic => [.panic]
    | .skip => .skip :: monitorTurns txt filter getpid resultdata rest
    | .send r => .send r :: monitorTurns txt filter getpid r rest

/-- The iterations of a loop that carries no variable. -/
def turnsOf {δ : Type} (turn : δ → Turn) : List δ → List Turn
  | [] => []
  | d :: rest =>
    match turn d with
    | .panic => [.panic]
    | t => t :: turnsOf turn rest

/-- None of the iterations panics, and there is one for every message. -/
def Survives {δ : Type} (turns : List Turn) (messages : List δ) : Prop :=
  (∀ t ∈ turns, t ≠ .panic) ∧ turns.length = messages.length

end YulongHids.Agent
