import YulongHids.Server.Intelligence

/-!
# The scan threads of the server

All of `Check.Run` and a thread of `ScanMonitorThread` (`server/safecheck/check.go`), for a
configuration, rules and statistics that stay as they are. A thread keeps one `Check` for all of the
batches that it takes from `ScanChan`.
-/

namespace YulongHids.Server

open Golang Mongo

/-- What all records of a scan meet: the text functions, `models.Config` (the switch `Learn`, the
lists and the part `Intelligence`), the collection `CStatistics` and `models.RuleDB`. -/
structure ScanConfig where
  txt : TextLib
  learn : Bool
  blackList : FilterLists
  whiteList : FilterLists
  intelligence : IntelConfig
  stats : Statistics
  ruleDB : List RuleInfo

def ScanConfig.ruleEnv (cfg : ScanConfig) : RuleEnv := ⟨cfg.txt, cfg.learn, cfg.stats⟩

/-- A record with what may be different every time that it is scanned: the order in which the maps of
the rules are visited, the `cache` that the threads share, and what `http.Get` brings back. -/
structure ScannedRecord (cfg : ScanConfig) where
  v : Record
  visit : List RangedRule
  visit_ruleDB : visit.map RangedRule.rule = cfg.ruleDB
  cache : List GoString
  get : GoString → Option GoString

/-- Where a batch comes from, and what kind of records it has. -/
structure Sender where
  ip : GoString
  type : GoString
  system : GoString

/-- A batch from `ScanChan`, with its records as they are scanned. -/
structure ScannedBatch (cfg : ScanConfig) where
  sender : Sender
  uptime : ℕ
  records : List (ScannedRecord cfg)

def ScannedBatch.info {cfg : ScanConfig} (b : ScannedBatch cfg) : DataInfo :=
  ⟨b.sender.ip, b.sender.type, b.sender.system, b.records.map ScannedRecord.v, b.uptime⟩

/-- A part of a scan and the next one, which a panic leaves out. -/
def Scan.andThen (scan : Scan) (next : Check → Scan) : Scan :=
  if scan.crashed then scan
  else ⟨(next scan.check).check, scan.alerts ++ (next scan.check).alerts, (next scan.check).crashed⟩

section Run

variable {cfg : ScanConfig}

/-- The call of `Intelligence` for a record. -/
def Check.scanIntelligence (c : Check) (r : ScannedRecord cfg) : Scan :=
  let intel := c.intelligence ⟨cfg.intelligence, cfg.txt, r.get⟩ r.cache
  ⟨intel.check, if intel.exit = .alerted then [intel.check.alert] else [],
    decide (intel.exit = .crashed)⟩

/-- The body of the loop of `Run`. -/
def Check.scanRecord (c : Check) (r : ScannedRecord cfg) : Scan :=
  let black := { c with v := r.v }.blackFilter cfg.txt cfg.blackList
  if black.check.whiteFilter cfg.txt cfg.whiteList then black
  else
    (black.andThen fun c => c.scanRules cfg.ruleEnv r.visit).andThen fun c => c.scanIntelligence r

/-- The loop of `Run`. -/
def Check.scanRecords : Check → List (ScannedRecord cfg) → Scan
  | c, [] => ⟨c, [], false⟩
  | c, r :: rest => (c.scanRecord r).andThen fun c => c.scanRecords rest

/-- `c.Info = <-ScanChan` and `Run`. -/
def Check.scanBatch (c : Check) (b : ScannedBatch cfg) : Scan :=
  { c with info := b.info }.scanRecords b.records

/-- The loop of a thread on the batches that it takes from `ScanChan`. -/
def Check.scanThread : Check → List (ScannedBatch cfg) → Scan
  | c, [] => ⟨c, [], false⟩
  | c, b :: rest => (c.scanBatch b).andThen fun c => c.scanThread rest

/-- A record as the scan threads meet it with the watch mode and the threat intelligence off. -/
def ScannedRecord.plain (r : ScannedRecord cfg) : ScanRecord where
  v := r.v
  txt := cfg.txt
  blackList := cfg.blackList
  whiteList := cfg.whiteList
  stats := cfg.stats
  ruleDB := r.visit

def ScannedBatch.plain (b : ScannedBatch cfg) : ScanBatch where
  ip := b.sender.ip
  type := b.sender.type
  system := b.sender.system
  uptime := b.uptime
  records := b.records.map ScannedRecord.plain

end Run

/-! ## What a scan is for -/

/-- A new check of one record. -/
def Sender.check (sender : Sender) (v : Record) : Check where
  info := ⟨sender.ip, sender.type, sender.system, [v], 0⟩
  v := v
  value := []
  description := []
  source := []
  level := 0

open Classical in
/-- The alerts that a record deserves, without the threat intelligence: one if it is on the black
list, and, unless it is on the white list, one for each rule that fires. -/
noncomputable def recordAlerts (cfg : ScanConfig) (sender : Sender) (v : Record) : List Alert :=
  let c := sender.check v
  (c.blackFilter cfg.txt cfg.blackList).alerts ++
    if c.whiteFilter cfg.txt cfg.whiteList then []
    else (cfg.ruleDB.filter fun r => Fires cfg.ruleEnv c r).map (ruleAlert cfg.ruleEnv c)

end YulongHids.Server
