import YulongHids.Server.Warning
import YulongHids.Web.AddToConfig

/-!
# From a notice to the white list of the server

A process name goes from the console through `PUT /config` into the white list, and `setConfig`
(`server/models/common.go`) brings it to `WhiteFilter`.
-/

namespace YulongHids.Server

open Golang Mongo Web

/-- The strings of an array, as they are decoded into a `[]string`. -/
def stringList : Option Value → List GoString
  | some (.array elems) => elems.filterMap fun
    | .string s => some s
    | _ => none
  | _ => []

/-- `whiteListres.Dic` after `Find({"type": "whitelist"}).One`. -/
def whiteListRes (c : Configs) : FilterLists :=
  let list := fun key => stringList ((c.findOne (str "whitelist")).dic.bind fun dic => dic.field (str key))
  ⟨list "file", list "ip", list "process", list "other"⟩

/-- `add2config` for a process name, its request to `ConfigController.Add`, and the reload; `none` if
the name was refused, or was not added. -/
def addAndReload (c : Configs) (page s : String) : Option FilterLists :=
  match add2config page "process" s "whitelist" with
  | none => none
  | some form =>
    match configAdd c { form := form, failed := false } with
    | some (c', .status true) => some (whiteListRes c')
    | _ => none

/-- What the console promises for a process name: records with the name are white, and the pattern
matches no other name. -/
def Whitelisted (txt : TextLib) (lower : String → String) (lists : FilterLists) (s : String) : Prop :=
  (∀ c : Check, c.info.type = str "process" → c.v.get (str "name") = str s →
    c.whiteFilter txt lists = true) ∧
  ∃ re, txt.compile (str (string2regexp s)) = some re ∧
    ∀ name, re (str (lower name)) = true → lower name = lower s

end YulongHids.Server
