import YulongHids.Server.Proofs.BatchingProofs
import YulongHids.Server.ScanSafety

/-!
# Proofs: scans that end

A record ends the scan if and only if a rule that is meant for its sender has a pattern that does not
compile, or the expression for the answers of the interface does not and an answer is there. A scan
that goes to its end raises the alerts of all rules.
-/

namespace YulongHids.Server

open Golang Mongo
open Classical

/-! ## Rules -/

section Rules

variable {env : RuleEnv} {c : Check}

theorem entry_none_iff (source k : GoString) (rule : Rule) :
    c.entry env source k rule = none ↔
      ¬ (rule.type = str "regex" ∨ rule.type = str "non-regex" →
        (env.txt.compile rule.data).isSome = true) := by
  constructor
  · intro h hcomp
    obtain ⟨b, hb, -⟩ := @entry_spec env c source k rule hcomp
    rw [h] at hb
    cases hb
  · intro h
    obtain ⟨htype, hnone⟩ := Classical.not_imp.mp h
    have hnone' : env.txt.compile rule.data = none := by simpa using hnone
    unfold Check.entry
    rw [hnone']
    by_cases h1 : rule.type = str "regex"
    · rw [if_pos h1]
      rfl
    · rw [if_neg h1, if_pos (htype.resolve_left h1)]
      rfl

theorem entryLoop_none_iff (source : GoString) (es : List RuleEntry) (i : ℤ)
    (vulInfo : List GoString) :
    c.entryLoop env source es i vulInfo = none ↔
      ∃ e ∈ es, ¬ (e.2.type = str "regex" ∨ e.2.type = str "non-regex" →
        (env.txt.compile e.2.data).isSome = true) := by
  induction es generalizing i vulInfo with
  | nil => simp [Check.entryLoop]
  | cons e es ih =>
    obtain ⟨k, rule⟩ := e
    rw [List.exists_mem_cons_iff, ← entry_none_iff (c := c) source k rule]
    cases he : c.entry env source k rule with
    | none => simp [Check.entryLoop, he]
    | some b =>
      cases b with
      | true => simp only [Check.entryLoop, he, ih, reduceCtorEq, false_or]
      | false => simp only [Check.entryLoop, he, ih, reduceCtorEq, false_or]

/-- The rule is meant for the system and the type of the check. -/
def Check.MeantFor (c : Check) (rule : RuleInfo) : Prop :=
  (rule.system = str "all" ∨ rule.system = c.info.system) ∧ rule.source = c.info.type

theorem meantFor_iff (r : RuleInfo) :
    c.MeantFor r ↔ ¬ ((c.info.system ≠ r.system ∧ r.system ≠ str "all") ∨
      c.info.type ≠ r.source) := by
  unfold Check.MeantFor
  rw [eq_comm (a := r.system) (b := c.info.system), eq_comm (a := r.source)]
  tauto

/-- A rule that is not meant for the check, one whose loop panics, and one whose loop ends. -/
theorem rule_cases (r : RangedRule) :
    ¬ c.MeantFor r.rule ∧ c.rule env r = some (c, []) ∨
    c.MeantFor r.rule ∧ ¬ Compiles env.txt r.rule ∧ c.rule env r = none ∨
    c.MeantFor r.rule ∧ Compiles env.txt r.rule ∧
      ∃ c' alerts, c.rule env r = some (c', alerts) ∧ c'.info = c.info ∧ c'.v = c.v := by
  by_cases hmeant : c.MeantFor r.rule
  · have hsel := (meantFor_iff r.rule).mp hmeant
    by_cases hcomp : Compiles env.txt r.rule
    · obtain ⟨c', hrule, hframe⟩ := @rule_eq env c r hcomp
      exact Or.inr (Or.inr ⟨hmeant, hcomp, c', _, hrule, hframe⟩)
    · refine Or.inr (Or.inl ⟨hmeant, hcomp, ?_⟩)
      have hloop : c.entryLoop env r.rule.source r.order r.order.length [] = none := by
        rw [entryLoop_none_iff]
        unfold Compiles at hcomp
        push Not at hcomp ⊢
        obtain ⟨e, he, hbad⟩ := hcomp
        exact ⟨e, r.perm.mem_iff.mpr he, hbad⟩
      rw [Check.rule, if_neg hsel, hloop]
  · have hsel := not_not.mp fun h => hmeant ((meantFor_iff r.rule).mpr h)
    exact Or.inl ⟨hmeant, if_pos hsel⟩

theorem meantFor_alike {c' : Check} (hinfo : c'.info = c.info) : c'.MeantFor = c.MeantFor := by
  funext q
  rw [Check.MeantFor, hinfo, Check.MeantFor]

/-- All the rules: what ends them, and what they leave as it is. -/
theorem scanRules_crashed_iff (visit : List RangedRule) :
    ((c.scanRules env visit).crashed = false ↔
      ∀ r ∈ visit, c.MeantFor r.rule → Compiles env.txt r.rule) ∧
    (c.scanRules env visit).check.info = c.info ∧ (c.scanRules env visit).check.v = c.v := by
  induction visit generalizing c with
  | nil => exact ⟨by simp [Check.scanRules], rfl, rfl⟩
  | cons r rest ih =>
    rw [Check.scanRules, List.forall_mem_cons]
    rcases @rule_cases env c r with ⟨hno, hr⟩ | ⟨hmeant, hbad, hr⟩ | ⟨hmeant, hcomp, c', alerts, hr, hf⟩
    · rw [hr, and_iff_right fun h => absurd h hno]
      exact ih
    · rw [hr]
      exact ⟨iff_of_false (by simp) fun h => hbad (h.1 hmeant), rfl, rfl⟩
    · obtain ⟨hiff, hinfo, hv⟩ := @ih c'
      rw [hr, and_iff_right fun _ => hcomp, ← meantFor_alike hf.1]
      exact ⟨hiff, hinfo.trans hf.1, hv.trans hf.2⟩

theorem not_fires_of_not_meantFor {rule : RuleInfo} (h : ¬ c.MeantFor rule) : ¬ Fires env c rule :=
  fun hfires => h ⟨hfires.1, hfires.2.1⟩

/-- Rules that go to their end have raised the alerts of all that fire. -/
theorem scanRules_alerts {visit : List RangedRule} (h : (c.scanRules env visit).crashed = false) :
    (c.scanRules env visit).alerts =
      ((visit.map RangedRule.rule).filter fun r => Fires env c r).map (ruleAlert env c) := by
  induction visit generalizing c with
  | nil => rfl
  | cons r rest ih =>
    rw [Check.scanRules] at h ⊢
    rw [List.map_cons]
    rcases @rule_cases env c r with ⟨hno, hr⟩ | ⟨-, -, hr⟩ | ⟨-, hcomp, -⟩
    · rw [hr] at h ⊢
      rw [List.filter_cons_of_neg (by simpa using not_fires_of_not_meantFor hno)]
      exact ih h
    · rw [hr] at h
      cases h
    · obtain ⟨c', hr, hinfo, hv⟩ := @rule_eq env c r hcomp
      have halike : c'.Alike c := .of_eq hinfo hv
      rw [hr] at h ⊢
      have hrest := @ih c' h
      rw [ruleAlert_alike halike] at hrest
      simp only [fires_alike halike] at hrest
      dsimp only
      rw [hrest]
      by_cases hfires : Fires env c r.rule
      · rw [if_pos hfires, List.filter_cons_of_pos (by simpa using hfires)]
        rfl
      · rw [if_neg hfires, List.filter_cons_of_neg (by simpa using hfires)]
        rfl

end Rules

/-! ## The threat intelligence -/

section Intelligence

variable {cfg : ScanConfig} {sender : Sender}

/-- A request that is made and answered compiles the expression. -/
theorem lookUp_crashed_iff (c : Check) (env : IntelEnv) (cache : List GoString)
    (target api placeholder description : GoString) :
    ((c.lookUp env cache target api placeholder description).exit = .crashed ↔
      c.info.type ++ c.info.ip ++ target ∉ cache ∧ env.get (replaceFirst placeholder target api) ≠ none ∧
        env.txt.compile env.conf.regex = none) ∧
    (c.lookUp env cache target api placeholder description).check.info = c.info := by
  unfold Check.lookUp
  by_cases hmem : c.info.type ++ c.info.ip ++ target ∈ cache
  · rw [if_pos ((inArray_false_iff ..).mpr hmem)]
    exact ⟨iff_of_false (by simp) fun h => h.1 hmem, rfl⟩
  · rw [if_neg fun h => hmem ((inArray_false_iff ..).mp h), and_iff_right hmem]
    cases hget : env.get (replaceFirst placeholder target api) with
    | none => exact ⟨iff_of_false (by simp) fun h => h.1 rfl, rfl⟩
    | some body =>
      cases hreg : env.txt.compile env.conf.regex with
      | none => exact ⟨iff_of_true rfl ⟨Option.some_ne_none body, rfl⟩, rfl⟩
      | some reg =>
        dsimp only
        split
        · exact ⟨iff_of_false (by simp) fun h => Option.some_ne_none reg h.2, rfl⟩
        · exact ⟨iff_of_false (by simp) fun h => Option.some_ne_none reg h.2, rfl⟩

/-- What the interface is asked is determined by the record. -/
theorem asked_iff {v : Record} {target url : GoString} :
    Asked cfg sender v target url ↔
      ((sender.type = str "connection" ∨ sender.type = str "loginlog") ∧
          isLan (cutPort (v.get (str "remote"))) = false ∧
          target = cutPort (v.get (str "remote")) ∧
          url = replaceFirst (str "\x7b$ip\x7d") target cfg.intelligence.ipapi) ∨
        (sender.type = str "file" ∧ v.get (str "hash") ≠ [] ∧ target = v.get (str "hash") ∧
          url = replaceFirst (str "\x7b$hash\x7d") target cfg.intelligence.fileapi) := by
  constructor
  · rintro (⟨htype, hlan⟩ | ⟨htype, hne⟩)
    · exact Or.inl ⟨htype, hlan, rfl, rfl⟩
    · exact Or.inr ⟨htype, hne, rfl, rfl⟩
  · rintro (⟨htype, hlan, rfl, rfl⟩ | ⟨htype, hne, rfl, rfl⟩)
    · exact .address htype hlan
    · exact .hash htype hne

theorem answered_of_asked {r : ScannedRecord cfg} {target url : GoString}
    (hswitch : cfg.intelligence.switch = true) (h : Asked cfg sender r.v target url) :
    Answered cfg sender r ↔ sender.type ++ sender.ip ++ target ∉ r.cache ∧ r.get url ≠ none := by
  constructor
  · rintro ⟨-, target', url', hasked, hkey, hget⟩
    have heq : target' = target ∧ url' = url := by
      rcases h with ⟨htype, hlan⟩ | ⟨htype, hne⟩
      · rcases hasked with ⟨htype', hlan'⟩ | ⟨htype', hne'⟩
        · exact ⟨rfl, rfl⟩
        · rw [htype'] at htype
          exact absurd htype (by decide)
      · rcases hasked with ⟨htype', hlan'⟩ | ⟨htype', hne'⟩
        · rw [htype] at htype'
          exact absurd htype' (by decide)
        · exact ⟨rfl, rfl⟩
    rw [← heq.1, ← heq.2]
    exact ⟨hkey, hget⟩
  · rintro ⟨hkey, hget⟩
    exact ⟨hswitch, target, url, h, hkey, hget⟩

/-- `Intelligence` goes home without a request, or it looks up what the interface is asked. -/
theorem intelligence_cases {c : Check} (hc : sender.Sent c) {r : ScannedRecord cfg} (hv : c.v = r.v) :
    (∃ exit ≠ IntelExit.crashed, ¬ Answered cfg sender r ∧
      c.intelligence ⟨cfg.intelligence, cfg.txt, r.get⟩ r.cache = ⟨c, r.cache, exit⟩) ∨
    ∃ target api placeholder description, cfg.intelligence.switch = true ∧
      Asked cfg sender r.v target (replaceFirst placeholder target api) ∧
      c.intelligence ⟨cfg.intelligence, cfg.txt, r.get⟩ r.cache =
        c.lookUp ⟨cfg.intelligence, cfg.txt, r.get⟩ r.cache target api placeholder description := by
  obtain ⟨-, htype, -⟩ := hc
  by_cases hswitch : cfg.intelligence.switch = true
  swap
  · refine Or.inl ⟨.off, by simp, fun h => hswitch h.1, ?_⟩
    rw [Bool.not_eq_true] at hswitch
    simp [Check.intelligence, hswitch]
  by_cases hkind : c.info.type = str "connection" ∨ c.info.type = str "loginlog"
  · by_cases hlan : isLan (cutPort (c.v.get (str "remote"))) = true
    · refine Or.inl ⟨.lan, by simp, ?_, by simp [Check.intelligence, hswitch, hkind, hlan]⟩
      rintro ⟨-, target, url, hask, -⟩
      rcases asked_iff.mp hask with ⟨-, hlan', -⟩ | ⟨htype', -⟩
      · rw [← hv, hlan] at hlan'
        cases hlan'
      · rw [htype, htype'] at hkind
        exact absurd hkind (by decide)
    · rw [Bool.not_eq_true] at hlan
      refine Or.inr ⟨_, cfg.intelligence.ipapi, str "\x7b$ip\x7d",
        str "威胁情报接口显示此IP存在风险", hswitch,
        .address (htype ▸ hkind) (hv ▸ hlan), ?_⟩
      rw [← hv]
      simp only [Check.intelligence, hswitch, hkind, hlan, Bool.not_true, Bool.false_eq_true, if_false,
        if_true]
  · by_cases hfile : c.info.type = str "file"
    · by_cases hhash : c.v.get (str "hash") = []
      · refine Or.inl ⟨.noHash, by simp, ?_, by simp [Check.intelligence, hswitch, hfile, hhash]⟩
        rintro ⟨-, target, url, hask, -⟩
        rcases asked_iff.mp hask with ⟨htype', -⟩ | ⟨-, hne, -⟩
        · exact hkind (htype ▸ htype')
        · exact hne (hv ▸ hhash)
      · refine Or.inr ⟨_, cfg.intelligence.fileapi, str "\x7b$hash\x7d",
          str "威胁情报接口显示此文件存在风险", hswitch,
          .hash (htype ▸ hfile) (hv ▸ hhash), ?_⟩
        rw [← hv, Check.intelligence, if_neg (by simp [hswitch]), if_neg hkind, if_pos hfile,
          if_neg hhash]
    · refine Or.inl ⟨.otherType, by simp, ?_, by simp [Check.intelligence, hswitch, hkind, hfile]⟩
      rintro ⟨-, target, url, hask, -⟩
      rcases asked_iff.mp hask with ⟨htype', -⟩ | ⟨htype', -⟩
      · exact hkind (htype ▸ htype')
      · exact hfile (htype ▸ htype')

/-- `Intelligence` on a record ends the scan if the interface answers and the expression does not
compile. -/
theorem scanIntelligence_crashed_iff {c : Check} (hc : sender.Sent c) {r : ScannedRecord cfg}
    (hv : c.v = r.v) :
    ((c.scanIntelligence r).crashed = false ↔
      (Answered cfg sender r → cfg.txt.compile cfg.intelligence.regex ≠ none)) ∧
    (c.scanIntelligence r).check.info = c.info := by
  unfold Check.scanIntelligence
  rcases intelligence_cases hc hv with ⟨exit, hexit, hans, heq⟩ |
    ⟨target, api, placeholder, description, hswitch, hask, heq⟩
  · rw [heq]
    exact ⟨iff_of_true (decide_eq_false hexit) fun h => absurd h hans, rfl⟩
  · obtain ⟨hcrash, hinfo⟩ := lookUp_crashed_iff c ⟨cfg.intelligence, cfg.txt, r.get⟩ r.cache target
      api placeholder description
    rw [heq, answered_of_asked hswitch hask, decide_eq_false_iff_not, hcrash, hc.1, hc.2.1]
    exact ⟨by tauto, hinfo⟩

/-- The calls end alike, and raise the same alert if any. -/
def Intel.Agrees (intel intel' : Intel) : Prop :=
  intel.exit = intel'.exit ∧ (intel.exit = .alerted → intel.check.alert = intel'.check.alert)

theorem Intel.agrees_of_quiet {intel intel' : Intel} {e : IntelExit} (he : e ≠ .alerted)
    (h : intel.exit = e) (h' : intel'.exit = e) : intel.Agrees intel' :=
  ⟨h.trans h'.symm, fun halerted => absurd (h.symm.trans halerted) he⟩

/-- What a look-up reports depends on the sender only. -/
theorem lookUp_alike {c c' : Check} (h : c.Alike c') (env : IntelEnv) (cache : List GoString)
    (target api placeholder description : GoString) :
    (c.lookUp env cache target api placeholder description).Agrees
      (c'.lookUp env cache target api placeholder description) := by
  unfold Check.lookUp
  rw [h.type, h.ip]
  by_cases hkey : inArray env.txt cache (c'.info.type ++ c'.info.ip ++ target) false = true
  · rw [if_pos hkey, if_pos hkey]
    exact Intel.agrees_of_quiet (e := .cached) (by decide) rfl rfl
  · rw [if_neg hkey, if_neg hkey]
    cases env.get (replaceFirst placeholder target api) with
    | none => exact Intel.agrees_of_quiet (e := .getFailed) (by decide) rfl rfl
    | some body =>
      cases env.txt.compile env.conf.regex with
      | none => exact Intel.agrees_of_quiet (e := .crashed) (by decide) rfl rfl
      | some reg =>
        by_cases hreg : reg body = true
        · simp only [hreg, if_true]
          exact ⟨rfl, fun _ => by rw [Check.alert, Check.alert, h.type, h.ip]⟩
        · simp only [hreg, Bool.false_eq_true, if_false]
          exact Intel.agrees_of_quiet (e := .clean) (by decide) rfl rfl

theorem intelligence_alike {c c' : Check} (h : c.Alike c') (env : IntelEnv) (cache : List GoString) :
    (c.intelligence env cache).Agrees (c'.intelligence env cache) := by
  unfold Check.intelligence
  rw [h.type, h.v]
  dsimp only
  split_ifs
  · exact Intel.agrees_of_quiet (e := .off) (by decide) rfl rfl
  · exact Intel.agrees_of_quiet (e := .lan) (by decide) rfl rfl
  · exact lookUp_alike h env cache _ _ _ _
  · exact Intel.agrees_of_quiet (e := .noHash) (by decide) rfl rfl
  · exact lookUp_alike h env cache _ _ _ _
  · exact Intel.agrees_of_quiet (e := .otherType) (by decide) rfl rfl

theorem scanIntelligence_alike {c c' : Check} (h : c.Alike c') (r : ScannedRecord cfg) :
    (c.scanIntelligence r).alerts = (c'.scanIntelligence r).alerts := by
  obtain ⟨hexit, halert⟩ := intelligence_alike h ⟨cfg.intelligence, cfg.txt, r.get⟩ r.cache
  unfold Check.scanIntelligence
  dsimp only
  rw [← hexit]
  split_ifs with halerted
  · rw [halert halerted]
  · rfl

end Intelligence

/-! ## Records and batches -/

section Run

variable {cfg : ScanConfig} {sender : Sender}

theorem meantFor_sent {c : Check} (hc : sender.Sent c) : c.MeantFor = MeantFor sender := by
  obtain ⟨-, htype, hsystem⟩ := hc
  funext q
  rw [Check.MeantFor, htype, hsystem, MeantFor]

/-- The check that the filters leave for the rules. -/
theorem sent_black {c : Check} (hc : sender.Sent c) (v : Record) :
    sender.Sent ({ c with v := v }.blackFilter cfg.txt cfg.blackList).check ∧
      ({ c with v := v }.blackFilter cfg.txt cfg.blackList).check.Alike (sender.check v) := by
  obtain ⟨hip, htype, hsystem⟩ := hc
  obtain ⟨-, hinfo, hv⟩ := @blackFilter_frame { c with v := v } cfg.txt cfg.blackList
  have hip' := (congrArg DataInfo.ip hinfo).trans hip
  have htype' := (congrArg DataInfo.type hinfo).trans htype
  have hsystem' := (congrArg DataInfo.system hinfo).trans hsystem
  exact ⟨⟨hip', htype', hsystem'⟩, hip', htype', hsystem', hv⟩

/-- One record: what ends the scan, and the check for the next one. -/
theorem scanRecord_crashed_iff {c : Check} (hc : sender.Sent c) (r : ScannedRecord cfg) :
    ((c.scanRecord r).crashed = false ↔ OnWhiteList cfg sender r.v ∨ RecordSafe cfg sender r) ∧
      sender.Sent (c.scanRecord r).check := by
  obtain ⟨hsent, halike⟩ := @sent_black cfg sender c hc r.v
  obtain ⟨hcrash, -, hv⟩ := @blackFilter_frame { c with v := r.v } cfg.txt cfg.blackList
  unfold Check.scanRecord OnWhiteList
  dsimp only
  generalize { c with v := r.v }.blackFilter cfg.txt cfg.blackList = black at *
  rw [whiteFilter_alike halike]
  by_cases hwhite : (sender.check r.v).whiteFilter cfg.txt cfg.whiteList = true
  · rw [if_pos hwhite]
    exact ⟨iff_of_true hcrash (Or.inl hwhite), hsent⟩
  · rw [if_neg hwhite, or_iff_right hwhite, andThen_of_not_crashed hcrash]
    obtain ⟨hrules, hinfo', hv'⟩ := @scanRules_crashed_iff cfg.ruleEnv black.check r.visit
    have hsent' : sender.Sent (black.check.scanRules cfg.ruleEnv r.visit).check := by
      rw [Sender.Sent, hinfo']
      exact hsent
    have hrules' : (black.check.scanRules cfg.ruleEnv r.visit).crashed = false ↔
        ∀ rule ∈ cfg.ruleDB, MeantFor sender rule → Compiles cfg.txt rule := by
      rw [hrules, meantFor_sent hsent, ← r.visit_ruleDB, List.forall_mem_map]
      rfl
    have hsafe : RecordSafe cfg sender r ↔
        (black.check.scanRules cfg.ruleEnv r.visit).crashed = false ∧
          (Answered cfg sender r → cfg.txt.compile cfg.intelligence.regex ≠ none) := by
      rw [hrules']
      exact ⟨fun h => ⟨h.rules, h.intelligence⟩, fun h => ⟨h.1, h.2⟩⟩
    rw [hsafe]
    cases hend : (black.check.scanRules cfg.ruleEnv r.visit).crashed with
    | true =>
      rw [Scan.andThen, if_pos rfl]
      exact ⟨iff_of_false (by simp) (by simp), hsent'⟩
    | false =>
      obtain ⟨hintel, hinfo''⟩ := scanIntelligence_crashed_iff hsent' (hv'.trans hv)
      rw [@andThen_of_not_crashed ⟨_, _, _⟩ rfl, and_iff_right rfl]
      refine ⟨hintel, ?_⟩
      rw [Sender.Sent, hinfo'']
      exact hsent'

/-- The records of a batch, one after the other. -/
theorem scanRecords_crashed_iff {c : Check} (hc : sender.Sent c) (rs : List (ScannedRecord cfg)) :
    (c.scanRecords rs).crashed = false ↔
      ∀ r ∈ rs, OnWhiteList cfg sender r.v ∨ RecordSafe cfg sender r := by
  induction rs generalizing c with
  | nil => simp [Check.scanRecords]
  | cons r rest ih =>
    obtain ⟨hiff, hsent⟩ := scanRecord_crashed_iff hc r
    rw [List.forall_mem_cons, ← hiff, ← ih hsent, Check.scanRecords]
    cases hcrash : (c.scanRecord r).crashed with
    | true =>
      rw [Scan.andThen, if_pos hcrash]
      exact iff_of_false (by simp [hcrash]) fun h => by cases h.1
    | false =>
      rw [andThen_of_not_crashed hcrash, and_iff_right rfl]

/-- One record that does not end the scan: its alerts are those that it deserves. -/
theorem scanRecord_alerts {c : Check} (hc : sender.Sent c) {r : ScannedRecord cfg}
    (h : (c.scanRecord r).crashed = false) :
    (c.scanRecord r).alerts =
      recordAlerts cfg sender r.v ++ intelligenceAlerts cfg sender r := by
  obtain ⟨hsent, halike⟩ := @sent_black cfg sender c hc r.v
  obtain ⟨hcrash, -, hv⟩ := @blackFilter_frame { c with v := r.v } cfg.txt cfg.blackList
  have hset : Check.Alike { c with v := r.v } (sender.check r.v) := ⟨hc.1, hc.2.1, hc.2.2, rfl⟩
  have hblack := blackFilter_alike hset cfg.txt cfg.blackList
  unfold Check.scanRecord at h ⊢
  rw [recordAlerts, intelligenceAlerts]
  dsimp only at h ⊢
  generalize { c with v := r.v }.blackFilter cfg.txt cfg.blackList = black at *
  rw [whiteFilter_alike halike] at h ⊢
  rw [← hblack]
  by_cases hwhite : (sender.check r.v).whiteFilter cfg.txt cfg.whiteList = true
  · simp only [if_pos hwhite, List.append_nil]
  · rw [if_neg hwhite, andThen_of_not_crashed hcrash] at h ⊢
    rw [if_neg hwhite, if_neg hwhite]
    cases hend : (black.check.scanRules cfg.ruleEnv r.visit).crashed with
    | true =>
      rw [hend, Scan.andThen, if_pos rfl] at h
      cases h
    | false =>
      have hrules := scanRules_alerts hend
      obtain ⟨-, hinfo', hv'⟩ := @scanRules_crashed_iff cfg.ruleEnv black.check r.visit
      have hleft : Check.Alike (black.check.scanRules cfg.ruleEnv r.visit).check (sender.check r.v) := by
        refine ⟨?_, ?_, ?_, hv'.trans halike.v⟩
        · exact (congrArg DataInfo.ip hinfo').trans halike.ip
        · exact (congrArg DataInfo.type hinfo').trans halike.type
        · exact (congrArg DataInfo.system hinfo').trans halike.system
      rw [ruleAlert_alike halike, r.visit_ruleDB] at hrules
      simp only [fires_alike halike] at hrules
      rw [@andThen_of_not_crashed ⟨_, _, _⟩ rfl, hrules, scanIntelligence_alike hleft]

/-- The records of a batch that is scanned to its end. -/
theorem scanRecords_alerts {c : Check} (hc : sender.Sent c) {rs : List (ScannedRecord cfg)}
    (h : (c.scanRecords rs).crashed = false) :
    (c.scanRecords rs).alerts = rs.flatMap fun r =>
      recordAlerts cfg sender r.v ++ intelligenceAlerts cfg sender r := by
  induction rs generalizing c with
  | nil => rfl
  | cons r rest ih =>
    obtain ⟨-, hsent⟩ := scanRecord_crashed_iff hc r
    rw [Check.scanRecords] at h ⊢
    cases hcrash : (c.scanRecord r).crashed with
    | true =>
      rw [Scan.andThen, if_pos hcrash, hcrash] at h
      cases h
    | false =>
      rw [andThen_of_not_crashed hcrash] at h ⊢
      rw [List.flatMap_cons, ← scanRecord_alerts hc hcrash, ← ih hsent h]

end Run

/-- A batch is scanned to its end, with every rule evaluated on every record, if and only if each
record that is not on the white list gets to patterns only that compile. -/
theorem scan_completes_iff (cfg : ScanConfig) (c : Check) (b : ScannedBatch cfg) :
    ScanCompletes c b ↔
      ∀ r ∈ b.records, OnWhiteList cfg b.sender r.v ∨ RecordSafe cfg b.sender r := by
  have hsent : b.sender.Sent { c with info := b.info } := ⟨rfl, rfl, rfl⟩
  rw [← scanRecords_crashed_iff hsent b.records]
  exact ⟨fun h => h.completes, fun h => ⟨h, scanRecords_alerts hsent h⟩⟩

/-- A rule whose pattern is an open bracket, before the rule for login shells. -/
def bracketConfig : ScanConfig where
  txt := plainText
  learn := false
  blackList := ⟨[], [], [], []⟩
  whiteList := ⟨[], [], [], []⟩
  intelligence := ⟨false, [], [], []⟩
  stats := []
  ruleDB := [{ shellUserRule with rules := (∅ : GoMap Rule).insert (str "name") ⟨str "regex", str "("⟩ },
    shellUserRule]

def bracketRecord : ScannedRecord bracketConfig where
  v := (∅ : Record) |>.insert (str "name") (str "eve") |>.insert (str "description") (str "/bin/bash")
  visit := bracketConfig.ruleDB.map fun rule => ⟨rule, rule.rules.entries, .refl _⟩
  visit_ruleDB := rfl
  cache := []
  get := fun _ => none

def bracketBatch : ScannedBatch bracketConfig where
  sender := ⟨str "10.0.0.7", str "userlist", str "linux"⟩
  uptime := 0
  records := [bracketRecord]

/-- The pattern ends the server, and the valid rule behind it raises no alert. -/
theorem scan_crashes :
    (newCheck.scanBatch bracketBatch).crashed = true ∧
      (newCheck.scanBatch bracketBatch).alerts = [] ∧ ¬ ScanCompletes newCheck bracketBatch := by
  have hcrash : (newCheck.scanBatch bracketBatch).crashed = true := by decide +kernel
  refine ⟨hcrash, by decide +kernel, ?_⟩
  intro h
  rw [h.completes] at hcrash
  cases hcrash

end YulongHids.Server
