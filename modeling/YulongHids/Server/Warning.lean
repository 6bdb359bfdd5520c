import YulongHids.Server.Check
import YulongHids.Server.Notice

/-!
# Checks and their notices

`Check.Run` (`server/safecheck/check.go`) with the watch mode and the threat intelligence off: the
black list, the white list and the rules for one record after the other, and the notice that
`warning` writes for each alert.
-/

namespace YulongHids.Server

open Golang Mongo

/-- `blackList` and `whiteList` of the configuration. -/
structure FilterLists where
  file : List GoString
  ip : List GoString
  process : List GoString
  other : List GoString

/-- `inArray` of the package. Empty and invalid patterns match nothing. -/
def inArray (txt : TextLib) (list : List GoString) (value : GoString) (regex : Bool) : Bool :=
  list.any fun v =>
    if regex then v != [] && (txt.compile v).any (· value) else value == v

/-- A record that `Run` checks, with what it meets: the configuration, the `statistics` collection,
and the rules in the order in which their maps are visited. -/
structure ScanRecord where
  v : Record
  txt : TextLib
  blackList : FilterLists
  whiteList : FilterLists
  stats : Statistics
  ruleDB : List RangedRule

/-- A batch from `ScanChan`. -/
structure ScanBatch where
  ip : GoString
  type : GoString
  system : GoString
  uptime : ℕ
  records : List ScanRecord

def ScanBatch.info (b : ScanBatch) : DataInfo :=
  ⟨b.ip, b.type, b.system, b.records.map ScanRecord.v, b.uptime⟩

/-- The `switch` that `BlackFilter` and `WhiteFilter` share: the list for a type, the value to look
for, and whether the list has patterns. -/
def Check.filterFor (c : Check) (lists : FilterLists) : List GoString × GoString × Bool :=
  if c.info.type = str "process" then (lists.process, c.v.get (str "name"), true)
  else if c.info.type = str "connection" then (lists.ip, cutPort (c.v.get (str "remote")), false)
  else if c.info.type = str "loginlog" then (lists.ip, c.v.get (str "remote"), false)
  else if c.info.type = str "file" then (lists.file, c.v.get (str "hash"), false)
  else if c.info.type = str "crontab" then (lists.file, c.v.get (str "command"), true)
  else (lists.other, c.v.get (str "name"), true)

/-- The check after a run or a part of it, the calls of `warning` in order, and whether a pattern
that does not compile ended it. -/
structure Scan where
  check : Check
  alerts : List Alert
  crashed : Bool

/-- `BlackFilter`. -/
def Check.blackFilter (c : Check) (txt : TextLib) (lists : FilterLists) : Scan :=
  let (blackList, keyword, regex) := c.filterFor lists
  if 1 ≤ blackList.length ∧ inArray txt blackList (txt.toLower keyword) regex = true then
    let c' := { c with
      source := str "blacklist"
      level := 0
      description := str "存在于黑名单列表中"
      value := keyword }
    ⟨c', [c'.alert], false⟩
  else ⟨c, [], false⟩

/-- `WhiteFilter`. -/
def Check.whiteFilter (c : Check) (txt : TextLib) (lists : FilterLists) : Bool :=
  let (whiteList, keyword, regex) := c.filterFor lists
  decide (1 ≤ whiteList.length) && inArray txt whiteList (txt.toLower keyword) regex

/-- `Rules`, with the calls of `warning` before a panic. -/
def Check.scanRules (env : RuleEnv) : Check → List RangedRule → Scan
  | c, [] => ⟨c, [], false⟩
  | c, r :: rest =>
    match c.rule env r with
    | none => ⟨c, [], true⟩
    | some (c', alerts) =>
      let scan := c'.scanRules env rest
      ⟨scan.check, alerts ++ scan.alerts, scan.crashed⟩

/-- The body of the loop of `Run`. -/
def Check.record (c : Check) (r : ScanRecord) : Scan :=
  let black := { c with v := r.v }.blackFilter r.txt r.blackList
  if black.check.whiteFilter r.txt r.whiteList then black
  else
    let scan := black.check.scanRules ⟨r.txt, false, r.stats⟩ r.ruleDB
    ⟨scan.check, black.alerts ++ scan.alerts, scan.crashed⟩

/-- The loop of `Run`. -/
def Check.run : Check → List ScanRecord → Scan
  | c, [] => ⟨c, [], false⟩
  | c, r :: rest =>
    let scan := c.record r
    if scan.crashed then scan
    else
      let scan' := scan.check.run rest
      ⟨scan'.check, scan.alerts ++ scan'.alerts, scan'.crashed⟩

/-- A scan thread on the batches it takes from `ScanChan`. -/
def Check.scanMonitor : Check → List ScanBatch → Scan
  | c, [] => ⟨c, [], false⟩
  | c, b :: rest =>
    let scan := { c with info := b.info }.run b.records
    if scan.crashed then scan
    else
      let scan' := scan.check.scanMonitor rest
      ⟨scan'.check, scan.alerts ++ scan'.alerts, scan'.crashed⟩

/-! ## Notices -/

/-- The notices with the type, the host and the value of an alert. -/
def Alert.about (a : Alert) (n : Notice) : Bool :=
  n.type == a.type && n.ip == a.ip && n.info == a.info

/-- The selector of the notices that were ignored before. -/
def Alert.ignoredQ (a : Alert) (n : Notice) : Bool := a.about n && n.status == 2

section Warning

variable (newObjectId : ℕ → ObjectId)

/-- `warning` with the watch mode off. An insert that fails is not reported. -/
def warning (c : Notices) (a : Alert) : Notices :=
  if 1 ≤ count c.docs a.ignoredQ then c
  else (c.insert ⟨newObjectId c.docs.length, a.type, a.ip, a.source, a.level, a.info, 0, none⟩).getD c

/-- The calls of `warning` for a sequence of alerts. -/
def warnings (c : Notices) (alerts : List Alert) : Notices := alerts.foldl (warning newObjectId) c

end Warning

/-! ## What the notices are for -/

/-- There is a notice of the alert that was ignored. -/
def Ignored (c : Notices) (a : Alert) : Prop := ∃ n ∈ c.docs, a.ignoredQ n = true

/-- There is an open notice of the alert, with its source and level. -/
def Noticed (c : Notices) (a : Alert) : Prop :=
  ∃ n ∈ c.docs, a.about n = true ∧ n.status = 0 ∧ n.source = a.source ∧ n.level = a.level

/-- There is an open notice for the type, the host and the value of the alert that the console has not
changed. -/
def Occupied (c : Notices) (a : Alert) : Prop :=
  ∃ n ∈ c.docs, a.about n = true ∧ n.status = 0 ∧ n.uptime = none

instance (c : Notices) (a : Alert) : Decidable (Ignored c a) :=
  inferInstanceAs (Decidable (∃ n ∈ c.docs, _))

instance (c : Notices) (a : Alert) : Decidable (Noticed c a) :=
  inferInstanceAs (Decidable (∃ n ∈ c.docs, _))

/-- Every alert that was not ignored has its notice right after its call of `warning`. -/
def EachNoticed (newObjectId : ℕ → ObjectId) (c : Notices) (alerts : List Alert) : Prop :=
  ∀ pre a post, alerts = pre ++ a :: post → ¬ Ignored (warnings newObjectId c pre) a →
    Noticed (warning newObjectId (warnings newObjectId c pre) a) a

/-- Two alerts for one type, host and value. -/
def Alert.same (a b : Alert) : Bool := b.type == a.type && b.ip == a.ip && b.info == a.info

/-- The first of the alerts for the type, the host and the value of `a` has its source and level. -/
def FirstLike (alerts : List Alert) (a : Alert) : Prop :=
  ∃ b, alerts.find? a.same = some b ∧ b.source = a.source ∧ b.level = a.level

end YulongHids.Server
