import YulongHids.Server.Check
import YulongHids.Server.Statistics

/-!
# First occurrences

The shipped rules of the kind "first seen anywhere" compare the stored count of a value with 1.
`PutInfo` counts a whole batch with `ResultStat` before it queues the batch for `Check.Rules`; the
two passes meet in the `statistics` collection only.
-/

namespace YulongHids.Server

open Golang Mongo

/-- The value of a record that is counted: its main field, for connections without the port. -/
def mainValue (type k : GoString) (v : Record) : GoString :=
  if type = str "connection" then cutPort (v.get k) else v.get k

/-- A rule `{source: type, system: all, and: true, rules: {k: count "1"}}`. -/
def firstSeenRule (about : RuleMeta) (type k : GoString) : RuleInfo where
  about := about
  source := type
  system := str "all"
  rules := (∅ : GoMap Rule).insert k ⟨str "count", str "1"⟩
  and := true

/-- `Rules` on the records of a batch, one after the other with the same check. -/
def Check.rulesOver (env : RuleEnv) (db : List RangedRule) : Check → List Record →
    Option (List Alert)
  | _, [] => some []
  | c, v :: rest =>
    match Check.rules env { c with v := v } db with
    | none => none
    | some (c', alerts) =>
      match c'.rulesOver env db rest with
      | none => none
      | some alerts' => some (alerts ++ alerts')

/-- A batch that goes through `ResultStat` and then, with learning off, through `Rules`. -/
def statThenRules (txt : TextLib) (stats : Statistics) (datainfo : DataInfo) (c : Check)
    (db : List RangedRule) : Option (List Alert) :=
  let counted := resultStat stats datainfo
  Check.rulesOver ⟨txt, false, counted.1⟩ db { c with info := counted.2 } counted.2.data

end YulongHids.Server
