import YulongHids.Golang.Calendar
import YulongHids.Mongo.Group
import YulongHids.Server.Notice

/-!
# The charts of the console

`getLineData`, `getTimeData` and `getPieData` (`web/controllers/statistics.go`) show the notices that
are not those of the watch mode. The store groups them by texts of their times in UTC; the console
looks for the days of its own clock, and takes the hour of its own clock from one of the times of a
group. A clock is known by the seconds that it is ahead of UTC, always the same.
-/

namespace YulongHids.Web

open Golang Mongo Server

/-- A notice with its time. -/
structure TimedNotice extends Notice where
  time : ℤ

/-- `ValidNoticeQ` -/
def validNoticeQ (n : TimedNotice) : Bool := n.status < 3

/-- `LevelString` -/
def levelString : List GoString := [str "危险", str "可疑", str "风险"]

/-! ## Notices of the last seven days -/

/-- `Last7DateStr` with the layout `2006-01-02`. -/
def last7DateStr (zone now : ℤ) : List GoString :=
  (List.range 7).map fun day => dayText (dayOf zone now - (day : ℕ))

/-- `matchQuery`, where the first day is parsed as one of UTC. -/
def lineMatch (zone now : ℤ) (level : ℕ) (n : TimedNotice) : Bool :=
  let tomorrow := midnight zone (dayOf zone now + 1)
  let sevenDayAgo := midnight 0 (dayOf zone now - 6)
  decide (sevenDayAgo ≤ n.time) && decide (n.time < tomorrow) &&
    (n.level == (level : ℤ) && validNoticeQ n)

/-- The text by which `CountPerDay` groups, `%Y-%m-%d`. -/
def dayKey (n : TimedNotice) : GoString := dayText (dayOf 0 n.time)

/-- `getLineData`, over what `CountPerDay` answers: the days, and the name and the counts of each
level. -/
def getLineData (zone now : ℤ)
    (countPerDay : (TimedNotice → Bool) → List (GroupRow TimedNotice GoString)) :
    List GoString × List (GoString × List ℕ) :=
  let last7date := (last7DateStr zone now).reverse
  (last7date, (List.range 3).map fun level =>
    let mgoResult := countPerDay (lineMatch zone now level)
    (levelString.getD level [], last7date.map fun date =>
      (mgoResult.find? fun res => res.id == date).elim 0 GroupRow.count))

/-! ## Notices of two days by their hours -/

/-- The text by which `CountPerHour` groups, `%m-%d:%H`. -/
def hourText (t : ℤ) : GoString :=
  appendInt (dateOf (dayOf 0 t)).month 2 ++ str "-" ++ appendInt (dateOf (dayOf 0 t)).day 2 ++
    str ":" ++ appendInt (hourOf 0 t) 2

/-- `match` for a day that ends at `flag`. -/
def timeMatch (zone flag : ℤ) (n : TimedNotice) : Bool :=
  decide (midnight zone (dayOf zone flag - 1) ≤ n.time) && decide (n.time < flag) && validNoticeQ n

/-- `getTimeData`, over what `CountPerHour` answers: for yesterday, 0, and today, 1, the hours with
their counts. -/
def getTimeData (zone now : ℤ)
    (countPerHour : (TimedNotice → Bool) → List (GroupRow TimedNotice GoString)) :
    List (ℕ × ℤ × ℕ) :=
  (List.range 2).flatMap fun day =>
    (countPerHour (timeMatch zone (midnight zone (dayOf zone now + (day : ℕ))))).map fun res =>
      (day, hourOf zone res.first.time, res.count)

/-! ## Notices by source and by level -/

/-- The store answers each query with the groups of the notices that match. -/
def Answers {κ : Type} [DecidableEq κ] (notices : List TimedNotice) (key : TimedNotice → κ)
    (store : (TimedNotice → Bool) → List (GroupRow TimedNotice κ)) : Prop :=
  ∀ query, IsGrouping (notices.filter query) key (store query)

/-- The counts of a level should be those of the days of the console's clock. -/
def LineRight (zone now : ℤ) (notices : List TimedNotice)
    (countPerDay : (TimedNotice → Bool) → List (GroupRow TimedNotice GoString)) : Prop :=
  ∀ level < 3, ∀ i < 7,
    (((getLineData zone now countPerDay).2.getD level ([], [])).2.getD i 0) =
      notices.countP fun n : TimedNotice =>
        decide (dayOf zone n.time = dayOf zone now - 6 + (i : ℕ)) &&
          (n.level == (level : ℤ) && validNoticeQ n)

/-- There should be one entry for each hour of the two days with notices, with their count. -/
def TimeRight (zone now : ℤ) (notices : List TimedNotice)
    (countPerHour : (TimedNotice → Bool) → List (GroupRow TimedNotice GoString)) : Prop :=
  ((getTimeData zone now countPerHour).map fun entry => (entry.1, entry.2.1)).Nodup ∧
    ∀ day hour count, (day, hour, count) ∈ getTimeData zone now countPerHour ↔
      day < 2 ∧ 0 < count ∧ count = notices.countP fun n =>
        decide (dayOf zone n.time = dayOf zone now - 1 + (day : ℕ)) &&
          (decide (hourOf zone n.time = hour) && validNoticeQ n)

end YulongHids.Web
