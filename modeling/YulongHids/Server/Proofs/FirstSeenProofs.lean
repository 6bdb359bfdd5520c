import YulongHids.Server.Proofs.CheckProofs
import YulongHids.Server.Proofs.StatisticsProofs

/-!
# Proofs: first occurrences

A value that is new in a batch has, when the batch is scanned, the number of its occurrences in
the batch as its count. The rule compares with 1, so it misses a new value that occurs twice.
-/

namespace YulongHids.Server

open Golang Mongo
open Classical

section Rule

variable {env : RuleEnv} {c : Check} {about : RuleMeta} {type k : GoString}

theorem firstSeenRule_entries :
    (firstSeenRule about type k).rules.entries = [⟨k, ⟨str "count", str "1"⟩⟩] := rfl

theorem firstSeenRule_compiles (txt : TextLib) : Compiles txt (firstSeenRule about type k) := by
  intro e he h
  rw [firstSeenRule_entries, List.mem_singleton] at he
  subst he
  simp at h

/-- With learning off the only entry matches on a count of 1. -/
theorem entryMatches_count_one (hlearn : env.learn = false) :
    EntryMatches env c type k ⟨str "count", str "1"⟩ ↔
      statCount env.stats type (c.keyword k) = some 1 := by
  have hone : atoi (str "1") = (1, none) := by decide
  simp [EntryMatches, hlearn, hone]

theorem fires_firstSeenRule (hlearn : env.learn = false) (hinfo : c.info.type = type) :
    Fires env c (firstSeenRule about type k) ↔
      statCount env.stats type (c.keyword k) = some 1 := by
  have hm := @entryMatches_count_one env c type k hlearn
  simp only [Fires, firstSeenRule_entries, List.forall_mem_singleton]
  simp [firstSeenRule, hinfo, hm]

theorem ruleAlert_firstSeenRule_info (hlearn : env.learn = false)
    (hcount : statCount env.stats type (c.keyword k) = some 1) :
    (ruleAlert env c (firstSeenRule about type k)).info = c.v.get k := by
  have hm : EntryMatches env c type k ⟨str "count", str "1"⟩ :=
    (entryMatches_count_one hlearn).mpr hcount
  have hsrc : (firstSeenRule about type k).source = type := rfl
  simp [ruleAlert, firstSeenRule_entries, hsrc, hm, sortStrings, join]

end Rule

section Batch

variable {env : RuleEnv} {about : RuleMeta} {type k : GoString}

/-- The alerts of the rule over a batch whose records were rewritten by `ResultStat`: their values
are the counted values with a count of 1. -/
theorem rulesOver_firstSeen (hlearn : env.learn = false) (r : RangedRule)
    (hr : r.rule = firstSeenRule about type k) (data : List Record) (c : Check)
    (hinfo : c.info.type = type) :
    ∃ alerts, c.rulesOver env [r] (data.map (statRecord type k)) = some alerts ∧
      alerts.map Alert.info = (data.map (mainValue type k)).filter
        fun w => statCount env.stats type w = some 1 := by
  induction data generalizing c with
  | nil => exact ⟨[], rfl, rfl⟩
  | cons v data ih =>
    set c1 : Check := { c with v := statRecord type k v } with hc1
    obtain ⟨c2, hrules, hi2, -⟩ := @rules_eq env c1 [r] (by
      intro r' hr'
      rw [List.mem_singleton.mp hr', hr]
      exact firstSeenRule_compiles env.txt)
    obtain ⟨alerts, hrest, hvals⟩ := ih c2 (by rw [hi2]; exact hinfo)
    have hget : c1.v.get k = mainValue type k v := statRecord_get type k v
    have hkey : c1.keyword k = mainValue type k v := by
      -- cutting the port twice is cutting it once
      have hinfo1 : c1.info.type = type := hinfo
      simp only [Check.keyword, hinfo1, hget]
      unfold mainValue
      split <;> simp [cutPort_cutPort]
    have hfire := @fires_firstSeenRule env c1 about type k hlearn hinfo
    rw [hkey] at hfire
    rw [List.map_cons, Check.rulesOver, hrules, List.map_cons, List.map_nil, hr]
    simp only [hrest]
    refine ⟨_, rfl, ?_⟩
    by_cases hone : statCount env.stats type (mainValue type k v) = some 1
    · have halert := @ruleAlert_firstSeenRule_info env c1 about type k hlearn
        (by rw [hkey]; exact hone)
      simp [hfire.mpr hone, hvals, hone, halert, hget]
    · have hnf : ¬ Fires env c1 (firstSeenRule about type k) := fun h => hone (hfire.mp h)
      simp [hnf, hvals, hone]

end Batch

/-- A value that is new in a batch raises an alert of the first-seen rule if and only if it occurs
exactly once in the batch. -/
theorem first_occurrence_alert_iff (txt : TextLib) (stats : Statistics) (datainfo : DataInfo)
    (k v : GoString) (hk : mainMapping.lookup datainfo.type = some k)
    (hv : v ∈ datainfo.data.map (mainValue datainfo.type k))
    (hnew : ∀ d ∈ stats, ¬ (d.type = datainfo.type ∧ d.info = v)) (about : RuleMeta)
    (r : RangedRule) (hr : r.rule = firstSeenRule about datainfo.type k) (c : Check) :
    (∃ alerts, statThenRules txt stats datainfo c [r] = some alerts ∧
        ∃ a ∈ alerts, a.info = v) ↔
      (datainfo.data.map (mainValue datainfo.type k)).count v = 1 := by
  have hnone : statCount stats datainfo.type v = none := statCount_eq_none_iff.mpr hnew
  have hcount := statCount_statLoop datainfo.type k v datainfo.ip datainfo.uptime datainfo.data stats
  rw [if_pos hv, hnone] at hcount
  simp only [statThenRules, resultStat, hk]
  obtain ⟨alerts, halerts, hvals⟩ := @rulesOver_firstSeen
    ⟨txt, false, statLoop datainfo.type k datainfo.ip datainfo.uptime stats datainfo.data⟩
    about datainfo.type k rfl r hr datainfo.data
    { c with info := { datainfo with data := datainfo.data.map (statRecord datainfo.type k) } } rfl
  have hmem : (∃ a ∈ alerts, a.info = v) ↔ v ∈ alerts.map Alert.info := by simp
  simp only [halerts, Option.some.injEq, exists_eq_left', hmem, hvals, List.mem_filter, hv,
    true_and, decide_eq_true_eq, hcount]
  simp

/-- A process event of the program `name`. -/
def processEvent (name : String) : Record := (∅ : Record).insert (str "name") (str name)

def processBatch (names : List String) : DataInfo :=
  ⟨str "10.0.0.7", str "process", str "linux", names.map processEvent, 0⟩

/-- The rule for processes that no host has started before, in the only order of its map. -/
def firstProcessRule : RangedRule where
  rule := firstSeenRule ⟨str "首次出现进程", str "wolf", str "企业网络中从未出现过的进程", 2⟩
    (str "process") (str "name")
  order := [⟨str "name", ⟨str "count", str "1"⟩⟩]
  perm := List.Perm.refl _

def idleCheck : Check := ⟨⟨[], [], [], [], 0⟩, ∅, [], [], [], 0⟩

/-- A program that no host has started before is started twice within one batch: no alert. -/
theorem first_occurrence_missed :
    mainMapping.lookup (processBatch ["nc", "nc"]).type = some (str "name") ∧
      str "nc" ∈ (processBatch ["nc", "nc"]).data.map (mainValue (str "process") (str "name")) ∧
      (∀ d ∈ ([] : Statistics), ¬ (d.type = str "process" ∧ d.info = str "nc")) ∧
      ¬ ∃ alerts, statThenRules plainText [] (processBatch ["nc", "nc"]) idleCheck
          [firstProcessRule] = some alerts ∧ ∃ a ∈ alerts, a.info = str "nc" := by
  have hrun : statThenRules plainText [] (processBatch ["nc", "nc"]) idleCheck
      [firstProcessRule] = some [] := by decide
  refine ⟨by decide, by decide, by simp, ?_⟩
  rintro ⟨alerts, halerts, a, ha, -⟩
  rw [hrun, Option.some.injEq] at halerts
  rw [← halerts] at ha
  exact List.not_mem_nil ha

/-- Among other new programs one that is started once does raise an alert. -/
theorem first_occurrence_alert_once :
    (∃ alerts, statThenRules plainText [] (processBatch ["ls", "nc", "ls"]) idleCheck
        [firstProcessRule] = some alerts ∧ ∃ a ∈ alerts, a.info = str "nc") ↔
      ((processBatch ["ls", "nc", "ls"]).data.map
        (mainValue (str "process") (str "name"))).count (str "nc") = 1 :=
  first_occurrence_alert_iff plainText [] (processBatch ["ls", "nc", "ls"]) (str "name") (str "nc")
    (by decide) (by decide) (by simp) _ firstProcessRule rfl idleCheck

end YulongHids.Server
