import YulongHids.Server.Reload

/-!
# Proofs: the reload of configuration and rules

A value that could not be read becomes zero, so it is kept only where it was zero before. Between the
assignment of the server's own settings and those of the lists, the lists are what the server's
document has for them; while the rules are read, zero ones and unfinished ones stand among them.
-/

namespace YulongHids.Server

open Golang Mongo

variable {r : Reads} {g s : Globals}

/-- A read that leaves the zero value where it fails brings the value to have, or that is zero. -/
theorem getD_eq_getD_iff {α : Type*} {x : Option α} {zero old : α} :
    x.getD zero = x.getD old ↔ (x = none → old = zero) := by
  cases x with
  | none =>
    simp only [Option.getD_none, true_implies]
    exact eq_comm
  | some a => simp

theorem own_iff :
    (r.reload g).config.own = r.server.elim g.config.own ServerConfig.own ↔
      (r.server = none → g.config.own = zeroConfig.own) := by
  have hown : (r.reload g).config.own = (r.server.getD zeroConfig).own := rfl
  rw [hown]
  cases r.server with
  | none =>
    simp only [Option.getD_none, Option.elim_none, true_implies]
    exact eq_comm
  | some c => simp

/-! ## The states in between -/

/-- The black lists that a scan may meet: the old one, the one of the server's document, and the new
one; likewise for the white list. -/
theorem forall_trace_lists {P : FilterLists → FilterLists → Prop} :
    (∀ s ∈ r.trace g, P s.config.blackList s.config.whiteList) ↔
      P g.config.blackList g.config.whiteList ∧
        P (r.server.getD zeroConfig).blackList (r.server.getD zeroConfig).whiteList ∧
        P (r.blackList.getD zeroLists) (r.server.getD zeroConfig).whiteList ∧
        P (r.blackList.getD zeroLists) (r.whiteList.getD zeroLists) := by
  constructor
  · intro h
    refine ⟨h g (by simp [Reads.trace]), h (r.setDic g) (by simp [Reads.trace, Reads.setConfigTrace]),
      h (r.setBlackList (r.setIntelligence (r.setDic g))) ?_, h (r.setConfig g) ?_⟩
    · simp [Reads.trace, Reads.setConfigTrace]
    · simp [Reads.trace, Reads.setConfigTrace, Reads.setConfig]
  · rintro ⟨h0, h1, h2, h3⟩ s hs
    simp only [Reads.trace, Reads.setConfigTrace, Reads.setRulesTrace, List.mem_append,
      List.mem_cons, List.not_mem_nil, or_false, List.mem_map] at hs
    rcases hs with (rfl | rfl | rfl | rfl | rfl | rfl) | ⟨i, -, rfl⟩ | rfl
    · exact h0
    · exact h1
    · exact h1
    · exact h2
    · exact h3
    · exact h3
    · exact h3
    · exact h3

/-- The rules that a scan may meet. -/
theorem forall_trace_rules {P : List RuleInfo → Prop} :
    (∀ s ∈ r.trace g, P s.ruleDB) ↔
      (∀ rules ∈ ruleDecoder.seen r.decoded g.ruleDB, P rules) ∧ P r.readRules := by
  constructor
  · intro h
    refine ⟨fun rules hrules => h { r.setConfig g with ruleDB := rules } ?_,
      h { r.setConfig g with ruleDB := r.readRules } ?_⟩
    · exact List.mem_append_right _
        (List.mem_append_left _ (List.mem_map.mpr ⟨rules, hrules, rfl⟩))
    · exact List.mem_append_right _ (List.mem_append_right _ (List.mem_singleton_self _))
  · rintro ⟨hseen, hlast⟩ s hs
    have hold : P g.ruleDB := hseen _ (Decoder.old_mem_seen _ _)
    simp only [Reads.trace, Reads.setConfigTrace, Reads.setRulesTrace, List.mem_append,
      List.mem_cons, List.not_mem_nil, or_false, List.mem_map] at hs
    rcases hs with (rfl | rfl | rfl | rfl | rfl | rfl) | ⟨rules, hrules, rfl⟩ | rfl
    · exact hold
    · exact hold
    · exact hold
    · exact hold
    · exact hold
    · exact hold
    · exact hseen rules hrules
    · exact hlast

/-- After an error the rules are to be the old ones. -/
theorem rules_failed_iff (more : List (List RuleElem)) (hdecoded : r.decoded = r.rules ++ more)
    (hnew : r.newRules g = g.ruleDB) :
    (r.readRules = r.newRules g ∧
        (∀ rules ∈ ruleDecoder.seen r.decoded g.ruleDB, rules = g.ruleDB ∨ rules = r.newRules g) ∧
        (r.readRules = g.ruleDB ∨ r.readRules = r.newRules g)) ↔
      r.readRules = g.ruleDB ∧ ∀ d ∈ r.rules, ruleDecoder.Steady d (ruleDecoder.value d) := by
  rw [hnew, hdecoded]
  simp only [or_self]
  constructor
  · rintro ⟨hread, hseen, -⟩
    rw [← hread] at hseen
    exact ⟨hread, (Decoder.seen_append_eq_iff r.rules more).mp hseen⟩
  · rintro ⟨hread, hsteady⟩
    have hseen := (Decoder.seen_append_eq_iff r.rules more).mpr hsteady
    rw [← Reads.readRules, hread] at hseen
    exact ⟨hread, hseen, hread⟩

/-- The rules after the reload and in between. -/
theorem rules_iff :
    ((r.reload g).ruleDB = r.newRules g ∧
        ∀ s ∈ r.trace g, s.ruleDB = g.ruleDB ∨ s.ruleDB = r.newRules g) ↔
      (r.rulesEnd ≠ .closed →
        r.readRules = g.ruleDB ∧ ∀ d ∈ r.rules, ruleDecoder.Steady d (ruleDecoder.value d)) ∧
      (r.rulesEnd = .closed → (∀ p ∈ r.rules.zip g.ruleDB, ruleDecoder.Steady p.1 p.2) ∨
        ruleDecoder.SwitchesOne r.rules g.ruleDB) := by
  have hlast : (r.reload g).ruleDB = r.readRules := rfl
  rw [hlast, forall_trace_rules (P := fun rules => rules = g.ruleDB ∨ rules = r.newRules g)]
  cases hend : r.rulesEnd with
  | closed =>
    have hnew : r.newRules g = r.readRules := by rw [Reads.newRules, hend]
    have hdecoded : r.decoded = r.rules := by
      rw [Reads.decoded, hend]
      exact List.append_nil _
    have hunmixed : ruleDecoder.Unmixed r.rules g.ruleDB ↔ _ :=
      Decoder.unmixed_iff r.rules g.ruleDB
    rw [hnew, hdecoded]
    simp only [true_and, or_true, and_true, ne_eq, not_true_eq_false, false_implies, true_implies]
    exact hunmixed
  | failed =>
    have hnew : r.newRules g = g.ruleDB := by rw [Reads.newRules, hend]
    rw [rules_failed_iff [] (by rw [Reads.decoded, hend]) hnew]
    simp
  | broken elems =>
    have hnew : r.newRules g = g.ruleDB := by rw [Reads.newRules, hend]
    rw [rules_failed_iff [elems] (by rw [Reads.decoded, hend]) hnew]
    simp

/-- The black list afterwards and in between. -/
theorem blackList_iff :
    ((r.reload g).config.blackList = r.blackList.getD g.config.blackList ∧
        ∀ s ∈ r.trace g, s.config.blackList = g.config.blackList ∨
          s.config.blackList = r.blackList.getD g.config.blackList) ↔
      (r.blackList = none → g.config.blackList = zeroLists) ∧
        ((r.server.getD zeroConfig).blackList = g.config.blackList ∨
          (r.server.getD zeroConfig).blackList = r.blackList.getD g.config.blackList) := by
  have hlast : (r.reload g).config.blackList = r.blackList.getD zeroLists := rfl
  rw [hlast, getD_eq_getD_iff, forall_trace_lists (P := fun black _ =>
    black = g.config.blackList ∨ black = r.blackList.getD g.config.blackList)]
  refine and_congr_right fun hnone => ?_
  rw [getD_eq_getD_iff.mpr hnone]
  simp

/-- The white list afterwards and in between. -/
theorem whiteList_iff :
    ((r.reload g).config.whiteList = r.whiteList.getD g.config.whiteList ∧
        ∀ s ∈ r.trace g, s.config.whiteList = g.config.whiteList ∨
          s.config.whiteList = r.whiteList.getD g.config.whiteList) ↔
      (r.whiteList = none → g.config.whiteList = zeroLists) ∧
        ((r.server.getD zeroConfig).whiteList = g.config.whiteList ∨
          (r.server.getD zeroConfig).whiteList = r.whiteList.getD g.config.whiteList) := by
  have hlast : (r.reload g).config.whiteList = r.whiteList.getD zeroLists := rfl
  rw [hlast, getD_eq_getD_iff, forall_trace_lists (P := fun _ white =>
    white = g.config.whiteList ∨ white = r.whiteList.getD g.config.whiteList)]
  refine and_congr_right fun hnone => ?_
  rw [getD_eq_getD_iff.mpr hnone]
  simp

/-- A reload keeps what it is to keep exactly if it is safe. -/
theorem reloadKeeps_iff (r : Reads) (g : Globals) : ReloadKeeps r g ↔ ReloadSafe r g := by
  constructor
  · intro h
    obtain ⟨hblack, hblackSeen⟩ := blackList_iff.mp ⟨h.blackList, h.seenBlack⟩
    obtain ⟨hwhite, hwhiteSeen⟩ := whiteList_iff.mp ⟨h.whiteList, h.seenWhite⟩
    obtain ⟨hfailed, hrules⟩ := rules_iff.mp ⟨h.rules, h.seenRules⟩
    exact
      { own := own_iff.mp h.own
        intelligence := getD_eq_getD_iff.mp h.intelligence
        blackList := hblack
        whiteList := hwhite
        notice := getD_eq_getD_iff.mp h.notice
        embeddedBlack := hblackSeen
        embeddedWhite := hwhiteSeen
        failedRules := hfailed
        rules := hrules }
  · intro h
    obtain ⟨hblack, hblackSeen⟩ := blackList_iff.mpr ⟨h.blackList, h.embeddedBlack⟩
    obtain ⟨hwhite, hwhiteSeen⟩ := whiteList_iff.mpr ⟨h.whiteList, h.embeddedWhite⟩
    obtain ⟨hrules, hrulesSeen⟩ := rules_iff.mpr ⟨h.failedRules, h.rules⟩
    exact
      { own := own_iff.mpr h.own
        intelligence := getD_eq_getD_iff.mpr h.intelligence
        blackList := hblack
        whiteList := hwhite
        notice := getD_eq_getD_iff.mpr h.notice
        rules := hrules
        seenBlack := hblackSeen
        seenWhite := hwhiteSeen
        seenRules := hrulesSeen }

/-- A server with a black list and without rules. -/
def blackListed : Globals where
  config := { zeroConfig with blackList := { zeroLists with process := [str "mssecsvc\\.exe"] } }
  ruleDB := []

/-- A reload during which the black list cannot be read. -/
def blackListFails : Reads where
  server := some zeroConfig
  intelligence := some zeroIntel
  blackList := none
  whiteList := some zeroLists
  notice := some zeroNotice
  rules := []
  rulesEnd := .closed

/-- A server with one rule, for any record of a process. -/
def oneRule : Globals where
  config := zeroConfig
  ruleDB := [{ zeroRule with source := str "process", system := str "all" }]

/-- A reload that reads the same rule again. -/
def sameRule : Reads :=
  { blackListFails with
    blackList := some zeroLists
    rules := [[.source (str "process"), .system (str "all")]] }

/-- The black list is empty after the one reload; during the other one there is a rule of zero. -/
theorem reload_weakens :
    ¬ ReloadKeeps blackListFails blackListed ∧ ¬ ReloadKeeps sameRule oneRule := by
  constructor
  · intro h
    have hblack : zeroLists = blackListed.config.blackList := h.blackList
    exact absurd (congrArg FilterLists.process hblack) (by decide)
  · intro h
    have hread : sameRule.newRules oneRule = oneRule.ruleDB := rfl
    have hzero : [zeroRule] ∈ ruleDecoder.seen sameRule.decoded oneRule.ruleDB := by
      refine List.mem_append_left _ (List.mem_cons_of_mem _ (List.mem_map.mpr ⟨zeroRule, ?_, rfl⟩))
      exact Decoder.zero_mem_partials
    have hseen := (forall_trace_rules (P := fun rules =>
      rules = oneRule.ruleDB ∨ rules = sameRule.newRules oneRule)).mp h.seenRules
    have hsame := hseen.1 [zeroRule] hzero
    rw [hread, or_self] at hsame
    exact absurd (congrArg RuleInfo.source (List.cons.inj hsame).1) (by decide)

end YulongHids.Server
