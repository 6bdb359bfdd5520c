import YulongHids.Golang.Date

/-!
# The indices of Elasticsearch

`init`, `esCheckThread` and `newIndex` (`server/models/es.go`): one index for each month, and the one
of the next month prepared in the last days of the month. All the readings of the clock in one check
show the same date.
-/

namespace YulongHids.Server

open Golang

/-- The variable `nowindicesName`, and the names of the indices that there are. -/
structure EsState where
  nowindicesName : GoString
  indices : List GoString
  deriving DecidableEq

/-- A turn of the ticker: the date, whether `IndexNames` returns the list, and whether `CreateIndex`
does what it is called for. -/
structure EsCheck where
  date : Date
  listed : Bool
  created : Bool

/-- `newIndex`, without the mappings. -/
def newIndex (s : EsState) (created : Bool) (name : GoString) : EsState :=
  if created then { s with indices := name :: s.indices } else s

/-- The name of the index that is in use at a date. -/
def nowIndex (date : Date) : GoString := str "monitor" ++ date.formatMonth

/-- The name of the index that is prepared at a date. -/
def nextIndex (date : Date) : GoString := str "monitor" ++ (date.addDate 0 1 0).formatMonth

/-- The body of the loop of `esCheckThread`. -/
def esCheck (s : EsState) (c : EsCheck) : EsState :=
  let s := { s with nowindicesName := nowIndex c.date }
  if !c.listed then s
  else if s.nowindicesName ∈ s.indices then
    if 28 ≤ c.date.day then
      if nextIndex c.date ∉ s.indices then newIndex s c.created (nextIndex c.date) else s
    else s
  else newIndex s c.created s.nowindicesName

/-- `init`, where Elasticsearch answers. -/
def esInit (indices : List GoString) (date : Date) : EsState :=
  let s : EsState := ⟨nowIndex date, indices⟩
  if s.nowindicesName ∉ s.indices then newIndex s true s.nowindicesName else s

/-- A run of the server: the indices before it, the date on which it starts, and the checks, in the
order of time. -/
structure EsRun where
  indices : List GoString
  start : Date
  checks : List EsCheck
  ordered : (start.monthIndex :: checks.map fun c => c.date.monthIndex).Pairwise (· ≤ ·)

/-- The state after some of the checks. -/
def EsRun.after (r : EsRun) (checks : List EsCheck) : EsState :=
  checks.foldl esCheck (esInit r.indices r.start)

/-! ## What the check is for -/

/-- The name of the index for the month `k`. -/
def monthIndexName (k : ℤ) : GoString := str "monitor" ++ monthText k

/-- A check in the last days of the month `k` that is carried out. -/
structure EsCheck.Executes (c : EsCheck) (k : ℤ) : Prop where
  listed : c.listed = true
  created : c.created = true
  month : c.date.monthIndex = k
  late : 28 ≤ c.date.day

/-- The checks of the last days prepare the index of the next month: they compute its name, and once
every month since the start up to `k` has had such a check, the index for the month behind `k` is
there. -/
structure NextIndexPrepared (r : EsRun) : Prop where
  names : ∀ c ∈ r.checks, 28 ≤ c.date.day →
    nextIndex c.date = monthIndexName (c.date.monthIndex + 1)
  prepared : ∀ (pre post : List EsCheck) (k : ℤ), r.checks = pre ++ post → r.start.monthIndex ≤ k →
    (∀ j, r.start.monthIndex ≤ j → j ≤ k → ∃ c ∈ pre, c.Executes j) →
    monthIndexName (k + 1) ∈ (r.after pre).indices

end YulongHids.Server
