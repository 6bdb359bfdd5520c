import YulongHids.Server.Batching
import YulongHids.Server.Proofs.CheckProofs
import YulongHids.Server.Proofs.WarningProofs

/-!
# Proofs: the scan threads of the server

Every path to `warning` sets all of the fields that it reports, so the alerts of a batch are those of
its records one by one, whatever the check was used for before.
-/

namespace YulongHids.Server

open Golang Mongo
open Classical

section Alike

variable {c c' : Check}

theorem filterFor_alike (h : c.Alike c') (lists : FilterLists) :
    c.filterFor lists = c'.filterFor lists := by
  unfold Check.filterFor
  rw [h.type, h.v]

theorem whiteFilter_alike (h : c.Alike c') (txt : TextLib) (lists : FilterLists) :
    c.whiteFilter txt lists = c'.whiteFilter txt lists := by
  rw [Check.whiteFilter, filterFor_alike h, Check.whiteFilter]

theorem blackFilter_alike (h : c.Alike c') (txt : TextLib) (lists : FilterLists) :
    (c.blackFilter txt lists).alerts = (c'.blackFilter txt lists).alerts := by
  unfold Check.blackFilter
  rw [filterFor_alike h]
  dsimp only
  split_ifs with hin
  · rw [Check.alert, Check.alert, h.ip, h.type]
  · rfl

end Alike

/-! ## The parts of a scan -/

section Parts

variable {cfg : ScanConfig} {c : Check}

theorem andThen_of_not_crashed {scan : Scan} (h : scan.crashed = false) (next : Check → Scan) :
    scan.andThen next = ⟨(next scan.check).check, scan.alerts ++ (next scan.check).alerts,
      (next scan.check).crashed⟩ := by
  rw [Scan.andThen, h, if_neg Bool.false_ne_true]

/-- `BlackFilter` changes only the fields of the alert. -/
theorem blackFilter_frame (txt : TextLib) (lists : FilterLists) :
    (c.blackFilter txt lists).crashed = false ∧
      (c.blackFilter txt lists).check.info = c.info ∧
      (c.blackFilter txt lists).check.v = c.v := by
  unfold Check.blackFilter
  dsimp only
  split_ifs with hin
  · exact ⟨rfl, rfl, rfl⟩
  · exact ⟨rfl, rfl, rfl⟩

theorem scanRules_eq {env : RuleEnv} {visit : List RangedRule}
    (hcomp : ∀ r ∈ visit, Compiles env.txt r.rule) :
    (c.scanRules env visit).crashed = false ∧
      (c.scanRules env visit).check.info = c.info ∧
      (c.scanRules env visit).alerts =
        ((visit.map RangedRule.rule).filter fun r => Fires env c r).map (ruleAlert env c) := by
  obtain ⟨c', hrules, hinfo, -⟩ := @rules_eq env c visit hcomp
  rw [rules_eq_scanRules] at hrules
  cases hcrash : (c.scanRules env visit).crashed with
  | true => simp [hcrash] at hrules
  | false =>
    rw [hcrash, if_neg Bool.false_ne_true, Option.some.injEq, Prod.mk.injEq] at hrules
    exact ⟨rfl, hrules.1 ▸ hinfo, hrules.2⟩

theorem scanIntelligence_off (hoff : cfg.intelligence.switch = false) (r : ScannedRecord cfg) :
    c.scanIntelligence r = ⟨c, [], false⟩ := by
  simp [Check.scanIntelligence, Check.intelligence, hoff]

end Parts

/-! ## Without the watch mode and the threat intelligence -/

section Plain

variable {cfg : ScanConfig}

theorem scanRecord_eq_record (hoff : cfg.intelligence.switch = false) (hlearn : cfg.learn = false)
    (c : Check) (r : ScannedRecord cfg) : c.scanRecord r = c.record r.plain := by
  have henv : cfg.ruleEnv = ⟨cfg.txt, false, cfg.stats⟩ := by rw [ScanConfig.ruleEnv, hlearn]
  obtain ⟨hcrash, -, -⟩ := @blackFilter_frame { c with v := r.v } cfg.txt cfg.blackList
  unfold Check.scanRecord Check.record ScannedRecord.plain
  dsimp only
  split_ifs
  · rfl
  · rw [andThen_of_not_crashed hcrash, henv]
    generalize Check.scanRules _ _ _ = scan
    cases hrules : scan.crashed with
    | true => exact if_pos rfl
    | false =>
      rw [@andThen_of_not_crashed ⟨_, _, _⟩ rfl, scanIntelligence_off hoff, List.append_nil]

theorem scanRecords_eq_run (hoff : cfg.intelligence.switch = false) (hlearn : cfg.learn = false)
    (c : Check) (rs : List (ScannedRecord cfg)) :
    c.scanRecords rs = c.run (rs.map ScannedRecord.plain) := by
  induction rs generalizing c with
  | nil => rfl
  | cons r rest ih =>
    rw [Check.scanRecords, Scan.andThen, ih, scanRecord_eq_record hoff hlearn]
    rfl

/-- With both of them off, a thread is one of `scanMonitor`. -/
theorem scanThread_eq_scanMonitor (hoff : cfg.intelligence.switch = false)
    (hlearn : cfg.learn = false) (c : Check) (bs : List (ScannedBatch cfg)) :
    c.scanThread bs = c.scanMonitor (bs.map ScannedBatch.plain) := by
  induction bs generalizing c with
  | nil => rfl
  | cons b rest ih =>
    have hinfo : b.plain.info = b.info := by
      rw [ScanBatch.info, ScannedBatch.plain, List.map_map]
      rfl
    rw [Check.scanThread, Scan.andThen, ih, Check.scanBatch, scanRecords_eq_run hoff hlearn,
      List.map_cons, Check.scanMonitor, hinfo]
    rfl

end Plain

/-! ## Records, batches and threads -/

section Run

variable {cfg : ScanConfig} {sender : Sender}

/-- The info of a check is about a sender. -/
def Sender.Sent (sender : Sender) (c : Check) : Prop :=
  c.info.ip = sender.ip ∧ c.info.type = sender.type ∧ c.info.system = sender.system

/-- One record: the alerts that it deserves, and a check for the next record of the batch. -/
theorem scanRecord_eq (hoff : cfg.intelligence.switch = false)
    (hvalid : ∀ r ∈ cfg.ruleDB, Compiles cfg.txt r) {c : Check} (hc : sender.Sent c)
    (r : ScannedRecord cfg) :
    (c.scanRecord r).crashed = false ∧ sender.Sent (c.scanRecord r).check ∧
      (c.scanRecord r).alerts = recordAlerts cfg sender r.v := by
  obtain ⟨hip, htype, hsystem⟩ := hc
  obtain ⟨hcrash, hinfo, hv⟩ := @blackFilter_frame { c with v := r.v } cfg.txt cfg.blackList
  unfold Check.scanRecord recordAlerts
  dsimp only
  generalize hblack : { c with v := r.v }.blackFilter cfg.txt cfg.blackList = black
    at hcrash hinfo hv
  have hset : Check.Alike { c with v := r.v } (sender.check r.v) := ⟨hip, htype, hsystem, rfl⟩
  have halike : black.check.Alike (sender.check r.v) :=
    ⟨hinfo ▸ hip, hinfo ▸ htype, hinfo ▸ hsystem, hv⟩
  have halerts := blackFilter_alike hset cfg.txt cfg.blackList
  rw [hblack] at halerts
  rw [whiteFilter_alike halike, ← halerts]
  split_ifs with hwhite
  · exact ⟨hcrash, ⟨halike.ip, halike.type, halike.system⟩, (List.append_nil _).symm⟩
  · have hcomp : ∀ q ∈ r.visit, Compiles cfg.ruleEnv.txt q.rule := by
      intro q hq
      apply hvalid
      rw [← r.visit_ruleDB]
      exact List.mem_map_of_mem hq
    obtain ⟨hcrash', hinfo', hrules⟩ := @scanRules_eq black.check cfg.ruleEnv r.visit hcomp
    rw [andThen_of_not_crashed hcrash, @andThen_of_not_crashed ⟨_, black.alerts ++ _, _⟩ hcrash',
      scanIntelligence_off hoff]
    refine ⟨rfl, ?_, ?_⟩
    · refine ⟨?_, ?_, ?_⟩
      · exact (congrArg DataInfo.ip hinfo').trans halike.ip
      · exact (congrArg DataInfo.type hinfo').trans halike.type
      · exact (congrArg DataInfo.system hinfo').trans halike.system
    · dsimp only
      rw [hrules, r.visit_ruleDB, List.append_nil, ruleAlert_alike halike]
      simp only [fires_alike halike]

/-- The records of a batch, one after the other. -/
theorem scanRecords_eq (hoff : cfg.intelligence.switch = false)
    (hvalid : ∀ r ∈ cfg.ruleDB, Compiles cfg.txt r) {c : Check} (hc : sender.Sent c)
    (rs : List (ScannedRecord cfg)) :
    (c.scanRecords rs).crashed = false ∧
      (c.scanRecords rs).alerts = rs.flatMap fun r => recordAlerts cfg sender r.v := by
  induction rs generalizing c with
  | nil => exact ⟨rfl, rfl⟩
  | cons r rest ih =>
    obtain ⟨hcrash, hsent, halerts⟩ := scanRecord_eq hoff hvalid hc r
    obtain ⟨hcrash', halerts'⟩ := ih hsent
    rw [Check.scanRecords, andThen_of_not_crashed hcrash]
    refine ⟨hcrash', ?_⟩
    rw [List.flatMap_cons, ← halerts, ← halerts']

/-- The alerts of a batch are those of its records, whatever the check held before. -/
theorem scanBatch_eq (hoff : cfg.intelligence.switch = false)
    (hvalid : ∀ r ∈ cfg.ruleDB, Compiles cfg.txt r) (c : Check) (b : ScannedBatch cfg) :
    (c.scanBatch b).crashed = false ∧
      (c.scanBatch b).alerts = b.info.data.flatMap (recordAlerts cfg b.sender) := by
  have hsent : b.sender.Sent { c with info := b.info } := ⟨rfl, rfl, rfl⟩
  obtain ⟨hcrash, halerts⟩ := scanRecords_eq hoff hvalid hsent b.records
  refine ⟨hcrash, ?_⟩
  rw [Check.scanBatch, halerts, ScannedBatch.info, List.flatMap_map]

/-- A thread raises the alerts of its batches, one batch after the other. -/
theorem scanThread_eq (hoff : cfg.intelligence.switch = false)
    (hvalid : ∀ r ∈ cfg.ruleDB, Compiles cfg.txt r) (c : Check) (bs : List (ScannedBatch cfg)) :
    (c.scanThread bs).crashed = false ∧
      (c.scanThread bs).alerts =
        bs.flatMap fun b => b.info.data.flatMap (recordAlerts cfg b.sender) := by
  induction bs generalizing c with
  | nil => exact ⟨rfl, rfl⟩
  | cons b rest ih =>
    obtain ⟨hcrash, halerts⟩ := scanBatch_eq hoff hvalid c b
    obtain ⟨hcrash', halerts'⟩ := ih (c.scanBatch b).check
    rw [Check.scanThread, andThen_of_not_crashed hcrash]
    refine ⟨hcrash', ?_⟩
    rw [List.flatMap_cons, ← halerts, ← halerts']

end Run

/-- The records of one sender raise the same alerts in one batch as in two, for every check that
`Run` is called on and all orders in which the maps of the rules are visited. -/
theorem alerts_split (cfg : ScanConfig) (hoff : cfg.intelligence.switch = false)
    (hvalid : ∀ r ∈ cfg.ruleDB, Compiles cfg.txt r) (c c₁ c₂ : Check) (b b₁ b₂ : ScannedBatch cfg)
    (hsender₁ : b₁.sender = b.sender) (hsender₂ : b₂.sender = b.sender)
    (hdata : b.info.data = b₁.info.data ++ b₂.info.data) :
    (c.scanBatch b).alerts = (c₁.scanBatch b₁).alerts ++ (c₂.scanBatch b₂).alerts := by
  have halerts := fun c b => (@scanBatch_eq cfg hoff hvalid c b).2
  rw [halerts, halerts, halerts, hsender₁, hsender₂, hdata, List.flatMap_append]

/-- The rule for a login shell, the user `eve` on the black list and a count of one for her. -/
def userlistConfig : ScanConfig where
  txt := plainText
  learn := false
  blackList := ⟨[], [], [], [str "eve"]⟩
  whiteList := ⟨[], [], [], [str "root"]⟩
  intelligence := ⟨false, [], [], []⟩
  stats := [⟨str "userlist", str "eve", 1, [], 0⟩]
  ruleDB := [shellUserRule]

/-- A user with a login shell, scanned with the map of the rule visited from its end. -/
def userRecord (name : GoString) : ScannedRecord userlistConfig where
  v := (∅ : Record) |>.insert (str "name") name |>.insert (str "description") (str "/bin/bash")
  visit := [shellUserVisit]
  visit_ruleDB := rfl
  cache := []
  get := fun _ => none

def userBatch (names : List GoString) : ScannedBatch userlistConfig where
  sender := ⟨str "10.0.0.7", str "userlist", str "linux"⟩
  uptime := 0
  records := names.map userRecord

theorem alerts_split_users :
    (shellUserCheck.scanBatch (userBatch [str "root", str "eve"])).alerts =
      (shellUserCheck.scanBatch (userBatch [str "root"])).alerts ++
        (newCheck.scanBatch (userBatch [str "eve"])).alerts := by
  have hcomp : ∀ e ∈ shellUserRule.rules.entries,
      (plainText.compile e.2.data).isSome = true := by decide
  refine alerts_split userlistConfig rfl ?_ shellUserCheck shellUserCheck newCheck
    (userBatch [str "root", str "eve"]) (userBatch [str "root"]) (userBatch [str "eve"]) rfl rfl rfl
  intro r hr e he _
  rw [List.mem_singleton.mp hr] at he
  exact hcomp e he

example : (newCheck.scanBatch (userBatch [str "root", str "eve"])).alerts.map Alert.source =
    [str "blacklist", str "可疑用户"] := by decide

end YulongHids.Server
