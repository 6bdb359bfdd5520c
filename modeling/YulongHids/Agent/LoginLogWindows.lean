import YulongHids.Agent.LoginLogLinux

/-!
# Login records on Windows

`GetLoginLog` (`agent/collect/loginlog_windows.go`) queries the security log twice in each poll, for
the events 4624 (a login) and 4625 (a failed one). A query looks back over a fixed time, and one call
of the event log API returns the oldest `maxRead` of its matches.

Times are in milliseconds since 1970, as the queries count them.
-/

namespace YulongHids.Agent

open Golang

/-- What the agent reads of an event. -/
structure WinEvent where
  recordID : ℕ
  eventID : ℕ
  systemTime : ℕ
  pairs : List GoString
  deriving DecidableEq

def WinEvent.unix (e : WinEvent) : ℤ := (e.systemTime / 1000 : ℕ)

/-- `EventData.Pairs[18].Value`, which the two functions take for the address. -/
def WinEvent.remote (e : WinEvent) : GoString := e.pairs.getD 18 []

/-- The security log at every moment. Events are numbered, and each is in the log from its time on. -/
structure SecurityLog where
  upTo : ℕ → List WinEvent
  numbered : ∀ t, (upTo t).Pairwise fun e e' => e.recordID < e'.recordID
  grows : ∀ t t', t ≤ t' → upTo t = (upTo t').filter fun e => decide (e.systemTime ≤ t)

def localAddress : List GoString := [str "-", str "127.0.0.1", str "::1"]

def maxRead : ℕ := 1000

/-- The part of `win.Query` that varies; `IgnoreOlder` in milliseconds. -/
structure WinQuery where
  ignoreOlder : ℕ
  eventID : ℕ

/-- `newWinEventLog`: the query, and `first` afterwards. -/
def newWinEventLog (first : Bool) (eventID : ℕ) : WinQuery × Bool :=
  (⟨if first then 17520 * 3600 * 1000 else 60 * 1000, eventID⟩, false)

/-- `TimeCreated[timediff(@SystemTime) <= ms] and EventID=id`, at the time `now`. -/
def WinQuery.selects (q : WinQuery) (now : ℕ) (e : WinEvent) : Bool :=
  e.eventID == q.eventID && decide (now - e.systemTime ≤ q.ignoreOlder)

/-- `Open` and `Read`. -/
def SecurityLog.read (log : SecurityLog) (q : WinQuery) (now : ℕ) : List WinEvent :=
  ((log.upTo now).filter (q.selects now)).take maxRead

/-- The events that the loops of `getSuccessLog` and `getFailedLog` do not pass over. -/
def remoteLogins (timestamp : ℤ) (reList : List WinEvent) : List WinEvent :=
  reList.filter fun rec => decide (timestamp < rec.unix) && !decide (rec.remote ∈ localAddress)

def winRecord (status : Bool) (rec : WinEvent) : LoginRecord :=
  ⟨status, rec.remote, rec.pairs.getD 5 [], rec.unix⟩

/-- The common part of the two functions: the reported events, and `first` afterwards. -/
def queryLogins (log : SecurityLog) (eventID now : ℕ) (timestamp : ℤ) (first : Bool) :
    List WinEvent × Bool :=
  let (query, first') := newWinEventLog first eventID
  (remoteLogins timestamp (log.read query now), first')

def getSuccessLog (log : SecurityLog) (now : ℕ) (timestamp : ℤ) (first : Bool) :
    List LoginRecord × Bool :=
  let (events, first') := queryLogins log 4624 now timestamp first
  (events.map (winRecord true), first')

def getFailedLog (log : SecurityLog) (now : ℕ) (timestamp : ℤ) (first : Bool) :
    List LoginRecord × Bool :=
  let (events, first') := queryLogins log 4625 now timestamp first
  (events.map (winRecord false), first')

/-- What a poll meets: whether the file of the log is found, `Lasttime`, and the times of its two
queries. -/
structure WinPoll where
  evtx : Bool
  lasttime : Lasttime
  successTime : ℕ
  failedTime : ℕ

/-- `GetLoginLog`: the records, and `first` afterwards. -/
def getLoginLogWindows (log : SecurityLog) (p : WinPoll) (first : Bool) :
    List LoginRecord × Bool :=
  if p.evtx then
    let (success, first') := getSuccessLog log p.successTime (timestamp p.lasttime) first
    let (failed, first'') := getFailedLog log p.failedTime (timestamp p.lasttime) first'
    (success ++ failed, first'')
  else ([], first)

/-- The flag `first` before each poll of a run. -/
def firstBefore (log : SecurityLog) (polls : ℕ → WinPoll) : ℕ → Bool
  | 0 => true
  | i + 1 => (getLoginLogWindows log (polls i) (firstBefore log polls i)).2

/-- The events that poll number `i` reports. -/
def pollEvents (log : SecurityLog) (polls : ℕ → WinPoll) (i : ℕ) : List WinEvent :=
  let p := polls i
  if p.evtx then
    let (success, first) :=
      queryLogins log 4624 p.successTime (timestamp p.lasttime) (firstBefore log polls i)
    success ++ (queryLogins log 4625 p.failedTime (timestamp p.lasttime) first).1
  else []

/-! ## What the polls are for -/

/-- The polls of a run come one after the other, with the cycle of so many minutes between them. -/
structure Spaced (cycle : ℕ) (polls : ℕ → WinPoll) : Prop where
  queries : ∀ i, (polls i).successTime ≤ (polls i).failedTime
  cycle : ∀ i, (polls i).failedTime + cycle * 60 * 1000 ≤ (polls (i + 1)).successTime

/-- The time of the query of a poll for events like `e`. -/
def WinPoll.queryTime (p : WinPoll) (e : WinEvent) : ℕ :=
  if e.eventID = 4624 then p.successTime else p.failedTime

/-- How far poll number `i` looks back for events like `e`: two years for the logins of the first
poll that finds the log, a minute for everything else. -/
def lookBack (polls : ℕ → WinPoll) (i : ℕ) (e : WinEvent) : ℕ :=
  if e.eventID = 4624 ∧ ∀ j < i, (polls j).evtx = false then 17520 * 3600 * 1000 else 60 * 1000

/-- `IpAddress` of an event. It is number 18 in a 4624; in a 4625, where 18 is `ProcessName`, it is
number 19. -/
def WinEvent.address (e : WinEvent) : GoString :=
  e.pairs.getD (if e.eventID = 4624 then 18 else 19) []

/-- Poll number `i` reports the event: it finds the log, the event has occurred, not too long ago and
after `Lasttime`, fewer than 1000 events of its kind come before it in the same look back, and what
is taken for the address of a failed login is not local. -/
structure Covers (log : SecurityLog) (polls : ℕ → WinPoll) (i : ℕ) (e : WinEvent) : Prop where
  evtx : (polls i).evtx = true
  occurred : e ∈ log.upTo ((polls i).queryTime e)
  recent : (polls i).queryTime e - e.systemTime ≤ lookBack polls i e
  later : timestamp (polls i).lasttime < e.unix
  read : ((log.upTo ((polls i).queryTime e)).countP fun e' =>
    e'.eventID == e.eventID && decide (e'.recordID < e.recordID) &&
      decide ((polls i).queryTime e - e'.systemTime ≤ lookBack polls i e)) < maxRead
  remote : e.eventID = 4625 → e.remote ∉ localAddress

end YulongHids.Agent
