import YulongHids.Golang.Proofs.StringsProofs
import YulongHids.Server.Check

/-!
# Proofs: the rule engine

The counter `i` of the loop over a rule's map ends at the number of entries that did not match, for
every order of the visit, so the code's test of `i` is the declarative reading of the rule.
-/

namespace YulongHids.Server

open Golang Mongo
open Classical

section Entry

variable {env : RuleEnv} {c : Check} {source : GoString}

theorem countEntry_iff (k data : GoString) :
    c.countEntry env source k data = true ↔
      ∃ n, atoi data = (n, none) ∧ statCount env.stats source (c.keyword k) = some n := by
  unfold Check.countEntry statCount
  cases one env.stats (statSelector source (c.keyword k)) with
  | none => simp
  | some statsinfo => rcases atoi data with ⟨n, _ | e⟩ <;> simp

/-- The switch decides the declarative reading of an entry whose pattern compiles. -/
theorem entry_spec (k : GoString) (rule : Rule)
    (hcomp : rule.type = str "regex" ∨ rule.type = str "non-regex" →
      (env.txt.compile rule.data).isSome = true) :
    ∃ b, c.entry env source k rule = some b ∧ (b = true ↔ EntryMatches env c source k rule) := by
  unfold Check.entry EntryMatches
  by_cases h1 : rule.type = str "regex"
  · obtain ⟨reg, hreg⟩ := Option.isSome_iff_exists.mp (hcomp (Or.inl h1))
    simp [h1, hreg]
  by_cases h2 : rule.type = str "non-regex"
  · obtain ⟨reg, hreg⟩ := Option.isSome_iff_exists.mp (hcomp (Or.inr h2))
    simp [h2, hreg]
  by_cases h3 : rule.type = str "string"
  · simp [h3]
  by_cases h4 : rule.type = str "count"
  · simp [h4, countEntry_iff]
  · simp [h1, h2, h3, h4]

/-- The loop over a rule's map: one step of `i` and one value in `vulInfo` for each matching
entry. -/
theorem entryLoop_eq (es : List RuleEntry)
    (hcomp : ∀ e ∈ es, e.2.type = str "regex" ∨ e.2.type = str "non-regex" →
      (env.txt.compile e.2.data).isSome = true) (i : ℤ) (vulInfo : List GoString) :
    c.entryLoop env source es i vulInfo =
      some (i - (es.countP fun e => EntryMatches env c source e.1 e.2 : ℕ),
        vulInfo ++ (es.filter fun e => EntryMatches env c source e.1 e.2).map
          fun e => c.v.get e.1) := by
  induction es generalizing i vulInfo with
  | nil => simp [Check.entryLoop]
  | cons e es ih =>
    obtain ⟨k, rule⟩ := e
    obtain ⟨b, hb, hiff⟩ := @entry_spec env c source k rule
      (hcomp ⟨k, rule⟩ (List.mem_cons_self ..))
    have ih' := ih fun e he => hcomp e (List.mem_cons_of_mem _ he)
    cases b with
    | true =>
      have hm : EntryMatches env c source k rule := hiff.mp rfl
      simp only [Check.entryLoop, hb, ih', List.countP_cons, hm, decide_true, if_true,
        List.filter_cons, List.map_cons, List.append_assoc, List.singleton_append]
      congr 2
      push_cast
      ring
    | false =>
      have hm : ¬ EntryMatches env c source k rule := fun h => Bool.false_ne_true (hiff.mpr h)
      simp [Check.entryLoop, hb, ih', hm]

theorem counter_test_iff (r : RangedRule) :
    (if r.rule.and then (r.order.length : ℤ) -
          (r.order.countP fun e => EntryMatches env c source e.1 e.2 : ℕ) = 0
      else (r.order.length : ℤ) -
          (r.order.countP fun e => EntryMatches env c source e.1 e.2 : ℕ) < r.order.length) ↔
      if r.rule.and then ∀ e ∈ r.rule.rules.entries, EntryMatches env c source e.1 e.2
      else ∃ e ∈ r.rule.rules.entries, EntryMatches env c source e.1 e.2 := by
  have hmem : ∀ e, e ∈ r.order ↔ e ∈ r.rule.rules.entries := fun e => r.perm.mem_iff
  have hle := r.order.countP_le_length (p := fun e => decide (EntryMatches env c source e.1 e.2))
  cases r.rule.and with
  | true =>
    have hall := List.countP_eq_length (l := r.order)
      (p := fun e => decide (EntryMatches env c source e.1 e.2))
    simp only [decide_eq_true_eq, hmem] at hall
    simp only [if_true, ← hall]
    omega
  | false =>
    have hany := List.countP_pos_iff (l := r.order)
      (p := fun e => decide (EntryMatches env c source e.1 e.2))
    simp only [decide_eq_true_eq, hmem] at hany
    simp only [Bool.false_eq_true, if_false, ← hany]
    omega

end Entry

section Rules

variable {env : RuleEnv} {c c' : Check}

/-- The alert of a rule does not depend on the order of the visit. -/
theorem setAlert_alert (r : RangedRule) :
    (c.setAlert r.rule.about ((r.order.filter fun e =>
      EntryMatches env c r.rule.source e.1 e.2).map fun e => c.v.get e.1)).alert =
      ruleAlert env c r.rule := by
  have hperm := (r.perm.filter fun e => EntryMatches env c r.rule.source e.1 e.2).map
    fun e => c.v.get e.1
  simp [Check.setAlert, Check.alert, ruleAlert, sortStrings_eq_of_perm hperm]

/-- One rule: a single call of `warning` if the rule fires, none otherwise. -/
theorem rule_eq (r : RangedRule) (hcomp : Compiles env.txt r.rule) :
    ∃ c', c.rule env r = some (c', if Fires env c r.rule then [ruleAlert env c r.rule] else []) ∧
      c'.info = c.info ∧ c'.v = c.v := by
  unfold Check.rule Fires
  by_cases hsel : (c.info.system ≠ r.rule.system ∧ r.rule.system ≠ str "all") ∨
      c.info.type ≠ r.rule.source
  · refine ⟨c, ?_, rfl, rfl⟩
    rw [if_pos hsel, if_neg]
    rintro ⟨hsys, hsrc, -⟩
    rcases hsel with ⟨h1, h2⟩ | h
    · exact hsys.elim h2 fun h => h1 h.symm
    · exact h hsrc.symm
  · have hsys : r.rule.system = str "all" ∨ r.rule.system = c.info.system := by
      by_contra hn
      push Not at hn
      exact hsel (Or.inl ⟨fun h => hn.2 h.symm, hn.1⟩)
    have hsrc : r.rule.source = c.info.type := by
      by_contra hn
      exact hsel (Or.inr fun h => hn h.symm)
    have hcomp' : ∀ e ∈ r.order, e.2.type = str "regex" ∨ e.2.type = str "non-regex" →
        (env.txt.compile e.2.data).isSome = true :=
      fun e he => hcomp e (r.perm.mem_iff.mp he)
    rw [if_neg hsel, entryLoop_eq r.order hcomp']
    simp only [counter_test_iff r, List.nil_append]
    by_cases hf : (if r.rule.and then
        ∀ e ∈ r.rule.rules.entries, EntryMatches env c r.rule.source e.1 e.2
      else ∃ e ∈ r.rule.rules.entries, EntryMatches env c r.rule.source e.1 e.2)
    · rw [if_pos hf, if_pos ⟨hsys, hsrc, hf⟩, setAlert_alert]
      exact ⟨_, rfl, rfl, rfl⟩
    · rw [if_neg hf, if_neg fun h => hf h.2.2]
      exact ⟨c, rfl, rfl, rfl⟩

theorem Check.Alike.of_eq (hinfo : c.info = c'.info) (hv : c.v = c'.v) : c.Alike c' :=
  ⟨congrArg DataInfo.ip hinfo, congrArg DataInfo.type hinfo, congrArg DataInfo.system hinfo, hv⟩

theorem entryMatches_alike (h : c.Alike c') (env : RuleEnv) :
    EntryMatches env c = EntryMatches env c' := by
  funext source k rule
  simp only [EntryMatches, Check.keyword, h.type, h.v]

theorem fires_alike (h : c.Alike c') (env : RuleEnv) (r : RuleInfo) :
    Fires env c r ↔ Fires env c' r := by
  rw [Fires, entryMatches_alike h, h.system, h.type, Fires]

theorem ruleAlert_alike (h : c.Alike c') (env : RuleEnv) : ruleAlert env c = ruleAlert env c' := by
  funext r
  simp only [ruleAlert, entryMatches_alike h, h.ip, h.type, h.v]

theorem rules_eq (db : List RangedRule) (hcomp : ∀ r ∈ db, Compiles env.txt r.rule) :
    ∃ c', c.rules env db = some (c',
        ((db.map RangedRule.rule).filter fun r => Fires env c r).map (ruleAlert env c)) ∧
      c'.info = c.info ∧ c'.v = c.v := by
  induction db generalizing c with
  | nil => exact ⟨c, rfl, rfl, rfl⟩
  | cons r db ih =>
    obtain ⟨c1, h1, hi1, hv1⟩ := @rule_eq env c r (hcomp r (List.mem_cons_self ..))
    obtain ⟨c2, h2, hi2, hv2⟩ := @ih c1 fun r hr => hcomp r (List.mem_cons_of_mem _ hr)
    refine ⟨c2, ?_, hi2.trans hi1, hv2.trans hv1⟩
    have halike : c1.Alike c := .of_eq hi1 hv1
    simp only [Check.rules, h1, h2, fires_alike halike, ruleAlert_alike halike]
    by_cases hf : Fires env c r.rule <;> simp [hf]

end Rules

/-- `Rules` calls `warning` once for every rule that fires, in the order of `RuleDB`, and for no
other rule, whatever the orders in which it visits the maps of the rules. -/
theorem rules_exact (env : RuleEnv) (c : Check) (ruleDB : List RuleInfo)
    (hcomp : ∀ r ∈ ruleDB, Compiles env.txt r) (visit : List RangedRule)
    (hvisit : visit.map RangedRule.rule = ruleDB) :
    (c.rules env visit).map Prod.snd =
      some ((ruleDB.filter fun r => Fires env c r).map (ruleAlert env c)) := by
  subst hvisit
  obtain ⟨c', hrules, -, -⟩ := @rules_eq env c visit fun r hr =>
    hcomp r.rule (List.mem_map_of_mem hr)
  rw [hrules]
  rfl

/-- The rule for Linux users with a login shell that no server has seen before. -/
def shellUserRule : RuleInfo where
  about := ⟨str "可疑用户", str "wolf", str "企业网络中首次出现的linux可登陆用户", 1⟩
  source := str "userlist"
  system := str "linux"
  rules := (∅ : GoMap Rule)
    |>.insert (str "description") ⟨str "regex", str "/bin/bash"⟩
    |>.insert (str "name") ⟨str "count", str "1"⟩
  and := true

/-- The check of a user `eve` with a login shell, counted once so far. -/
def shellUserCheck : Check where
  info := ⟨str "10.0.0.7", str "userlist", str "linux", [], 0⟩
  v := (∅ : Record) |>.insert (str "name") (str "eve") |>.insert (str "description") (str "/bin/bash")
  value := []
  description := []
  source := []
  level := 0

def shellUserEnv : RuleEnv := ⟨plainText, false, [⟨str "userlist", str "eve", 1, [], 0⟩]⟩

/-- A visit of the rule's map from its last entry to its first. -/
def shellUserVisit : RangedRule :=
  ⟨shellUserRule, shellUserRule.rules.entries.reverse, List.reverse_perm _⟩

theorem rules_exact_shellUser :
    (shellUserCheck.rules shellUserEnv [shellUserVisit]).map Prod.snd =
      some (([shellUserRule].filter fun r => Fires shellUserEnv shellUserCheck r).map
        (ruleAlert shellUserEnv shellUserCheck)) := by
  refine rules_exact shellUserEnv shellUserCheck [shellUserRule] ?_ [shellUserVisit] rfl
  have hcomp : ∀ e ∈ shellUserRule.rules.entries,
      (plainText.compile e.2.data).isSome = true := by decide
  intro r hr e he _
  rw [List.mem_singleton.mp hr] at he
  exact hcomp e he

example : (shellUserCheck.rules shellUserEnv [shellUserVisit]).map Prod.snd =
    some [⟨str "userlist", str "10.0.0.7", str "可疑用户", 1, str "/bin/bash|eve",
      str "企业网络中首次出现的linux可登陆用户"⟩] := by decide

end YulongHids.Server
