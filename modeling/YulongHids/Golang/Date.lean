import YulongHids.Golang.Strings

/-!
# Dates

The dates of Go's `time`, in the proleptic Gregorian calendar and without the time of the day.
`AddDate` carries the days that a month does not have into the next month.
-/

namespace YulongHids.Golang

def isLeap (year : ℤ) : Bool := year % 4 == 0 && (year % 100 != 0 || year % 400 == 0)

def daysIn (year : ℤ) (month : ℕ) : ℕ :=
  if month = 2 then if isLeap year then 29 else 28
  else if month = 4 ∨ month = 6 ∨ month = 9 ∨ month = 11 then 30
  else 31

structure Date where
  year : ℤ
  month : ℕ
  day : ℕ
  month_mem : 1 ≤ month ∧ month ≤ 12
  day_mem : 1 ≤ day ∧ day ≤ daysIn year month

/-! ## Months

The months of all years are counted from January of the year 0.
-/

def yearOf (k : ℤ) : ℤ := k / 12

def monthOf (k : ℤ) : ℕ := (k % 12).toNat + 1

def Date.monthIndex (t : Date) : ℤ := t.year * 12 + (t.month - 1)

theorem monthOf_mem (k : ℤ) : 1 ≤ monthOf k ∧ monthOf k ≤ 12 := by
  have hlt := Int.emod_lt_of_pos k (show (0 : ℤ) < 12 by norm_num)
  unfold monthOf
  omega

theorem daysIn_mem (year : ℤ) (month : ℕ) : 28 ≤ daysIn year month ∧ daysIn year month ≤ 31 := by
  unfold daysIn
  split_ifs <;> omega

/-- The date that is `day` days into the month `k`, or later if the month has not as many. -/
def normDay (k : ℤ) (day : ℕ) (hday : 1 ≤ day) : Date :=
  if h : day ≤ daysIn (yearOf k) (monthOf k) then
    ⟨yearOf k, monthOf k, day, monthOf_mem k, hday, h⟩
  else normDay (k + 1) (day - daysIn (yearOf k) (monthOf k)) (by omega)
termination_by day
decreasing_by
  have := daysIn_mem (yearOf k) (monthOf k)
  omega

/-- `AddDate`, for months and days that are not negative. -/
def Date.addDate (t : Date) (years : ℤ) (months days : ℕ) : Date :=
  normDay (t.monthIndex + years * 12 + months) (t.day + days) (by have := t.day_mem; omega)

/-- `appendInt`: the digits of a number behind zeros, `width` of them at least. -/
def appendInt (x : ℤ) (width : ℕ) : GoString :=
  (if x < 0 then [45] else []) ++
    (List.replicate (width - (itoa x.natAbs).length) 48 ++ itoa x.natAbs)

/-- The layout `2006_01`. -/
def Date.formatMonth (t : Date) : GoString := appendInt t.year 4 ++ str "_" ++ appendInt t.month 2

/-- The text of the layout `2006_01` for the month `k`. -/
def monthText (k : ℤ) : GoString := appendInt (yearOf k) 4 ++ str "_" ++ appendInt (monthOf k) 2

/-- The month after that of `t` has the day of `t`. -/
def Date.FitsNextMonth (t : Date) : Prop :=
  t.day ≤ daysIn (yearOf (t.monthIndex + 1)) (monthOf (t.monthIndex + 1))

instance (t : Date) : Decidable t.FitsNextMonth := inferInstanceAs (Decidable (_ ≤ _))

end YulongHids.Golang
