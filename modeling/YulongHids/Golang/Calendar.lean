import YulongHids.Golang.Date

/-!
# The days of the calendar

The days are counted from 1 January of the year 0, and backwards before it. A clock time is the number
of its seconds since then.
-/

namespace YulongHids.Golang

/-- The days in front of a year. -/
def yearStart (year : ℤ) : ℤ := 365 * year + (year + 3) / 4 - (year + 99) / 100 + (year + 399) / 400

/-- The days of the first months of a year. -/
def daysBefore (year : ℤ) : ℕ → ℕ
  | 0 => 0
  | months + 1 => daysBefore year months + daysIn year (months + 1)

/-- The days in front of a month. -/
def monthStart (k : ℤ) : ℤ := yearStart (yearOf k) + daysBefore (yearOf k) (monthOf k - 1)

def Date.dayNumber (t : Date) : ℤ := monthStart t.monthIndex + t.day - 1

/-- The date of a day. Four hundred years have 146097 days. -/
def dateOf (n : ℤ) : Date := normDay (4800 * (n / 146097)) ((n % 146097).toNat + 1) (by omega)

/-- The layout `2006-01-02`. -/
def Date.formatDay (t : Date) : GoString :=
  appendInt t.year 4 ++ str "-" ++ appendInt t.month 2 ++ str "-" ++ appendInt t.day 2

/-- The text of a day. -/
def dayText (n : ℤ) : GoString := (dateOf n).formatDay

def secondsOfDay : ℤ := 86400

/-- The day of a time, for a clock that is `zone` seconds ahead of UTC. -/
def dayOf (zone t : ℤ) : ℤ := (t + zone) / secondsOfDay

/-- The hour of a time on such a clock. -/
def hourOf (zone t : ℤ) : ℤ := (t + zone) % secondsOfDay / 3600

/-- Midnight at the begin of a day on such a clock. -/
def midnight (zone n : ℤ) : ℤ := n * secondsOfDay - zone

end YulongHids.Golang
