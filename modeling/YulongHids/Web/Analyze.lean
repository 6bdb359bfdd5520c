import Mathlib.Data.Finmap
import YulongHids.Golang.ParseInt

/-!
# Search queries of the console

`web/controllers/analyze.go`: from the entries of a query to the documents that MongoDB is asked
with. The loops over a map visit its entries in the order of the list that stands for it.
-/

namespace YulongHids.Web

open Golang

/-! ## Comparisons -/

/-- `MongoComparisonOperator` (`web/settings/settings.go`). -/
def mongoComparisonOperator : List (GoString × GoString) :=
  [(str ">", str "$gt"), (str "<", str "$lt"), (str "=", str "$eq"), (str ">=", str "$gte"),
    (str "<=", str "$lte")]

/-- The loop of `parseIntQuery` over the operators that were not visited yet. `value` is what the
last `ParseInt` returned. -/
def operatorLoop (qvalue : GoString) : List (GoString × GoString) → ℤ → ℤ × GoString
  | [], value => (value, str "$eq")
  | (common, oper) :: order, _ =>
    match parseInt0 (trimLeft qvalue common) with
    | (value, none) => (value, oper)
    | (value, some _) => operatorLoop qvalue order value

/-- `parseIntQuery`, where `order` lists the operators as the loop visits them. -/
def parseIntQuery (order : List (GoString × GoString)) (qvalue : GoString) : ℤ × GoString :=
  match parseInt0 qvalue with
  | (value, none) => (value, str "$eq")
  | (value, some _) => operatorLoop qvalue order value

/-- What a comparison prefix means: the operator of the table, and equality without a prefix. -/
def meantOperator (op : GoString) : GoString := (mongoComparisonOperator.lookup op).getD (str "$eq")

/-- No other operator that contains the characters of `op` is visited before it. -/
def VisitedFirst (order : List (GoString × GoString)) (op : GoString) : Prop :=
  op ≠ [] → ∀ common ∈ order.map Prod.fst, op ⊆ common →
    (order.map Prod.fst).idxOf op ≤ (order.map Prod.fst).idxOf common

/-! ## Query documents -/

/-- `StatisticsDBKeys` (`web/settings/settings.go`): the keys that ask for the statistics. -/
def statisticsDBKeys : List GoString := [str "count", str "exist_count"]

/-- `AllStructKey` on `models.Info`: the `json` tags that do not begin with an underscore, without
`,omitempty`. -/
def infoKeys : List GoString := [str "ip", str "system", str "type", str "data", str "uptime"]

/-- The keys that need no prefix `data.`: those of `Info` and `NotDataPrefixLst`. -/
def notDataPrefixLst : List GoString := infoKeys ++ [str "count"]

/-- `isCountQuery`. -/
def isCountQuery (query : Record) : Bool :=
  statisticsDBKeys.any fun ktype => (query.lookup ktype).isSome

/-- The condition on a field of the match document. -/
inductive Cond where
  | text (s : GoString)
  | compare (operator : GoString) (value : ℤ)
  | present
  deriving DecidableEq

/-- A match document; the order of its keys is of no account. -/
abbrev MatchDoc := Finmap fun _ : GoString => Cond

/-- What is projected to a field: itself, or the elements of `input` that meet all equations of the
`$and` list. -/
inductive Projection where
  | one
  | filter (input var : GoString) (and : List (GoString × GoString))

abbrev ProjectDoc := Finmap fun _ : GoString => Projection

/-- The project document for a `$and` list. -/
def projectQuery (condAndQuery : List (GoString × GoString)) : ProjectDoc :=
  let fixed : ProjectDoc := ([str "_id", str "ip", str "type ", str "system", str "uptime"].map
    fun key => Sigma.mk key Projection.one).toFinmap
  fixed.insert (str "data") (.filter (str "$data") (str "d") condAndQuery)

/-- `regexp.MatchString` for the pattern of `exist_count`: one or two signs, then digits. -/
def comparisonText (s : GoString) : Bool :=
  let sign : UInt8 → Bool := fun b => b == 62 || b == 60 || b == 61
  let signs := (s.takeWhile sign).length
  let digits := s.dropWhile sign
  decide (1 ≤ signs ∧ signs ≤ 2 ∧ digits ≠ []) && digits.all fun b => 48 ≤ b && b ≤ 57

/-- The variables of `searchParser`. -/
structure SearchDocs where
  matchQuery : MatchDoc
  condAndQuery : List (GoString × GoString)
  dbstring : GoString

/-- The first lines of the loop body: which collection a key asks for. -/
def collectionOf (skey : GoString) : GoString :=
  if skey ∈ statisticsDBKeys then str "Statistics" else str "Info"

/-- The body of the loop of `searchParser`; `intQuery` is `parseIntQuery`. -/
def searchStep (intQuery : GoString → ℤ × GoString) (st : SearchDocs)
    (entry : (_ : GoString) × GoString) : SearchDocs :=
  let ⟨skey, svalue⟩ := entry
  let st := { st with dbstring := collectionOf skey }
  if skey = str "exist_count" then
    if comparisonText svalue then
      { st with
        matchQuery := (st.matchQuery.insert (str "server_list") .present).insert (str "$where")
          (.text (str "this.server_list.length" ++ svalue)) }
    else st
  else if skey ∈ notDataPrefixLst then
    let value : Cond :=
      if skey = str "count" then .compare (intQuery svalue).2 (intQuery svalue).1 else .text svalue
    { st with matchQuery := st.matchQuery.insert skey value }
  else
    { st with
      matchQuery := st.matchQuery.insert (str "data." ++ skey) (.text svalue)
      condAndQuery := st.condAndQuery ++ [(str "$$d." ++ skey, svalue)] }

def searchLoop (intQuery : GoString → ℤ × GoString) (queryObj : Record) : SearchDocs :=
  queryObj.entries.foldl (searchStep intQuery) ⟨∅, [], []⟩

/-- `searchParser`: the match document, the project document and the collection. -/
def searchParser (intQuery : GoString → ℤ × GoString) (queryObj : Record) :
    MatchDoc × ProjectDoc × GoString :=
  let docs := searchLoop intQuery queryObj
  (docs.matchQuery, projectQuery docs.condAndQuery, docs.dbstring)

end YulongHids.Web
