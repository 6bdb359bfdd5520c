import YulongHids.Server.Models

/-!
# The rule engine of the server

`Check.Rules` (`server/safecheck/check.go`). A `Check` is reused for one record after the other;
`warning` is called on it after its last four fields were set.

Go does not fix the order in which a `range` loop visits a map, so a rule comes with the order of
its visit (`RangedRule`).
-/

namespace YulongHids.Server

open Golang Mongo

/-- `Check` without its collections. -/
structure Check where
  info : DataInfo
  v : Record
  value : GoString
  description : GoString
  source : GoString
  level : ℤ

/-- What a call of `warning` reports. -/
structure Alert where
  type : GoString
  ip : GoString
  source : GoString
  level : ℤ
  info : GoString
  description : GoString
  deriving DecidableEq

def Check.alert (c : Check) : Alert :=
  ⟨c.info.type, c.info.ip, c.source, c.level, c.value, c.description⟩

/-- What `Rules` reads besides the check and the rules: the text functions, the switch
`models.Config.Learn` and the collection `CStatistics`. -/
structure RuleEnv where
  txt : TextLib
  learn : Bool
  stats : Statistics

abbrev RuleEntry := Sigma fun _ : GoString => Rule

/-- A rule of `RuleDB` with the order in which the loop visits its map. -/
structure RangedRule where
  rule : RuleInfo
  order : List RuleEntry
  perm : order.Perm rule.rules.entries

/-- The key under which a value is counted. -/
def Check.keyword (c : Check) (k : GoString) : GoString :=
  if c.info.type = str "connection" then cutPort (c.v.get k) else c.v.get k

/-- The case `count` with learning off: both early exits (no document, no number in `rule.Data`)
leave the entry unmatched. -/
def Check.countEntry (env : RuleEnv) (c : Check) (source k data : GoString) : Bool :=
  match one env.stats (statSelector source (c.keyword k)) with
  | none => false
  | some statsinfo =>
    match atoi data with
    | (_, some _) => false
    | (n, none) => statsinfo.count == n

/-- The `switch` on `rule.Type`: whether the entry matched, `none` if `regexp.MustCompile`
panics. -/
def Check.entry (env : RuleEnv) (c : Check) (source k : GoString) (rule : Rule) : Option Bool :=
  if rule.type = str "regex" then
    (env.txt.compile rule.data).map fun reg => reg (env.txt.toLower (c.v.get k))
  else if rule.type = str "non-regex" then
    (env.txt.compile rule.data).map fun reg =>
      c.v.get k != [] && !reg (env.txt.toLower (c.v.get k))
  else if rule.type = str "string" then
    some (env.txt.toLower (c.v.get k) == env.txt.toLower rule.data)
  else if rule.type = str "count" then
    some (env.learn || c.countEntry env source k rule.data)
  else some false

/-- The loop over a rule's map, with its counter `i` and the list `vulInfo`. -/
def Check.entryLoop (env : RuleEnv) (c : Check) (source : GoString) :
    List RuleEntry → ℤ → List GoString → Option (ℤ × List GoString)
  | [], i, vulInfo => some (i, vulInfo)
  | ⟨k, rule⟩ :: rest, i, vulInfo =>
    match c.entry env source k rule with
    | none => none
    | some true => c.entryLoop env source rest (i - 1) (vulInfo ++ [c.v.get k])
    | some false => c.entryLoop env source rest i vulInfo

/-- The fields set before `warning` is called for a rule. -/
def Check.setAlert (c : Check) (about : RuleMeta) (vulInfo : List GoString) : Check :=
  { c with
    source := about.name
    level := about.level
    description := about.description
    value := join (sortStrings vulInfo) (str "|") }

/-- One iteration of the loop over `RuleDB`: the check afterwards and the calls of `warning`. -/
def Check.rule (env : RuleEnv) (c : Check) (r : RangedRule) : Option (Check × List Alert) :=
  if (c.info.system ≠ r.rule.system ∧ r.rule.system ≠ str "all") ∨
      c.info.type ≠ r.rule.source then
    some (c, [])
  else
    match c.entryLoop env r.rule.source r.order r.order.length [] with
    | none => none
    | some (i, vulInfo) =>
      if (if r.rule.and then i = 0 else i < r.order.length) then
        some (c.setAlert r.rule.about vulInfo, [(c.setAlert r.rule.about vulInfo).alert])
      else
        some (c, [])

/-- `Rules`: the check afterwards and the calls of `warning` in order, `none` for a panic. -/
def Check.rules (env : RuleEnv) : Check → List RangedRule → Option (Check × List Alert)
  | c, [] => some (c, [])
  | c, r :: rest =>
    match c.rule env r with
    | none => none
    | some (c', alerts) =>
      match c'.rules env rest with
      | none => none
      | some (c'', alerts') => some (c'', alerts ++ alerts')

/-! ## What the engine is for -/

/-- The declarative reading of one entry. -/
def EntryMatches (env : RuleEnv) (c : Check) (source k : GoString) (rule : Rule) : Prop :=
  (rule.type = str "regex" ∧
    ∃ reg, env.txt.compile rule.data = some reg ∧ reg (env.txt.toLower (c.v.get k)) = true) ∨
  (rule.type = str "non-regex" ∧ c.v.get k ≠ [] ∧
    ∃ reg, env.txt.compile rule.data = some reg ∧ reg (env.txt.toLower (c.v.get k)) = false) ∨
  (rule.type = str "string" ∧ env.txt.toLower (c.v.get k) = env.txt.toLower rule.data) ∨
  (rule.type = str "count" ∧
    (env.learn = true ∨
      ∃ n, atoi rule.data = (n, none) ∧ statCount env.stats source (c.keyword k) = some n))

/-- The declarative reading of a rule: it is meant for the system and the type of the batch, and
all of its entries, or one of them, match. -/
def Fires (env : RuleEnv) (c : Check) (r : RuleInfo) : Prop :=
  (r.system = str "all" ∨ r.system = c.info.system) ∧ r.source = c.info.type ∧
    if r.and then ∀ e ∈ r.rules.entries, EntryMatches env c r.source e.1 e.2
    else ∃ e ∈ r.rules.entries, EntryMatches env c r.source e.1 e.2

open Classical in
noncomputable def ruleAlert (env : RuleEnv) (c : Check) (r : RuleInfo) : Alert where
  type := c.info.type
  ip := c.info.ip
  source := r.about.name
  level := r.about.level
  info := join (sortStrings ((r.rules.entries.filter fun e =>
    EntryMatches env c r.source e.1 e.2).map fun e => c.v.get e.1)) (str "|")
  description := r.about.description

/-- The checks agree on what the rules read of them: the sender and the record. -/
structure Check.Alike (c c' : Check) : Prop where
  ip : c.info.ip = c'.info.ip
  type : c.info.type = c'.info.type
  system : c.info.system = c'.info.system
  v : c.v = c'.v

def Compiles (txt : TextLib) (r : RuleInfo) : Prop :=
  ∀ e ∈ r.rules.entries, e.2.type = str "regex" ∨ e.2.type = str "non-regex" →
    (txt.compile e.2.data).isSome = true

end YulongHids.Server
