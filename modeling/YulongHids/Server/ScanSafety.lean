import YulongHids.Server.Batching

/-!
# Scans that end

What `Check.Run` (`server/safecheck/check.go`) reports of a batch if it ends. `regexp.MustCompile`
panics on a pattern that does not compile, in `Rules` and in `Intelligence`; no goroutine recovers.
-/

namespace YulongHids.Server

open Golang Mongo

section Run

variable {cfg : ScanConfig}

/-- The record is on the white list. -/
def OnWhiteList (cfg : ScanConfig) (sender : Sender) (v : Record) : Prop :=
  (sender.check v).whiteFilter cfg.txt cfg.whiteList = true

/-- The alert of the threat intelligence for a record that is not on the white list. -/
def intelligenceAlerts (cfg : ScanConfig) (sender : Sender) (r : ScannedRecord cfg) : List Alert :=
  if (sender.check r.v).whiteFilter cfg.txt cfg.whiteList then []
  else ((sender.check r.v).scanIntelligence r).alerts

/-- `Run` ends without a panic, and its alerts are those that the records deserve: on every record that
is not on the white list, every rule was evaluated. -/
structure ScanCompletes (c : Check) (b : ScannedBatch cfg) : Prop where
  completes : (c.scanBatch b).crashed = false
  evaluates : (c.scanBatch b).alerts = b.records.flatMap fun r =>
    recordAlerts cfg b.sender r.v ++ intelligenceAlerts cfg b.sender r

/-! ## What ends a scan -/

/-- The rule is meant for the system and the type of the sender. -/
def MeantFor (sender : Sender) (rule : RuleInfo) : Prop :=
  (rule.system = str "all" ∨ rule.system = sender.system) ∧ rule.source = sender.type

/-- What the interface is asked about a record, and the URL. -/
inductive Asked (cfg : ScanConfig) (sender : Sender) (v : Record) : GoString → GoString → Prop where
  | address (htype : sender.type = str "connection" ∨ sender.type = str "loginlog")
      (hlan : isLan (cutPort (v.get (str "remote"))) = false) :
      Asked cfg sender v (cutPort (v.get (str "remote")))
        (replaceFirst (str "\x7b$ip\x7d") (cutPort (v.get (str "remote"))) cfg.intelligence.ipapi)
  | hash (htype : sender.type = str "file") (hne : v.get (str "hash") ≠ []) :
      Asked cfg sender v (v.get (str "hash"))
        (replaceFirst (str "\x7b$hash\x7d") (v.get (str "hash")) cfg.intelligence.fileapi)

/-- The interface answers for the record: it is switched on, was not asked before, and the request
succeeds. -/
def Answered (cfg : ScanConfig) (sender : Sender) (r : ScannedRecord cfg) : Prop :=
  cfg.intelligence.switch = true ∧ ∃ target url, Asked cfg sender r.v target url ∧
    sender.type ++ sender.ip ++ target ∉ r.cache ∧ r.get url ≠ none

/-- The patterns that a record gets to compile. -/
structure RecordSafe (cfg : ScanConfig) (sender : Sender) (r : ScannedRecord cfg) : Prop where
  rules : ∀ rule ∈ cfg.ruleDB, MeantFor sender rule → Compiles cfg.txt rule
  intelligence : Answered cfg sender r → cfg.txt.compile cfg.intelligence.regex ≠ none

end Run

end YulongHids.Server
