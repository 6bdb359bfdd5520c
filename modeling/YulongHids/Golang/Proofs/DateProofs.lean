import YulongHids.Golang.Date

/-!
# Proofs: dates

Adding a month leads to the next month if that has the day, and to the month after it otherwise.
-/

namespace YulongHids.Golang

section Index

variable (t : Date)

theorem yearOf_monthIndex : yearOf t.monthIndex = t.year := by
  have := t.month_mem
  unfold yearOf Date.monthIndex
  omega

theorem monthOf_monthIndex : monthOf t.monthIndex = t.month := by
  have := t.month_mem
  unfold monthOf Date.monthIndex
  omega

theorem formatMonth_eq : t.formatMonth = monthText t.monthIndex := by
  rw [Date.formatMonth, monthText, yearOf_monthIndex, monthOf_monthIndex]

end Index

section Add

variable {k : ℤ} {day : ℕ}

theorem monthIndex_normDay (hday : 1 ≤ day) (h : day ≤ daysIn (yearOf k) (monthOf k)) :
    (normDay k day hday).monthIndex = k := by
  rw [normDay, dif_pos h]
  show yearOf k * 12 + ((monthOf k : ℤ) - 1) = k
  unfold yearOf monthOf
  omega

/-- Up to 31 days overflow one month at most. -/
theorem monthIndex_normDay_overflow (hday : 1 ≤ day) (h31 : day ≤ 31)
    (h : daysIn (yearOf k) (monthOf k) < day) : (normDay k day hday).monthIndex = k + 1 := by
  have hk := daysIn_mem (yearOf k) (monthOf k)
  have hnext := daysIn_mem (yearOf (k + 1)) (monthOf (k + 1))
  rw [normDay, dif_neg (not_le.mpr h)]
  exact monthIndex_normDay _ (by omega)

theorem day_le (t : Date) : t.day ≤ 31 := le_trans t.day_mem.2 (daysIn_mem t.year t.month).2

/-- One month more: the next month, or the one behind it. -/
theorem monthIndex_addMonth (t : Date) :
    (t.addDate 0 1 0).monthIndex = if t.FitsNextMonth then t.monthIndex + 1 else t.monthIndex + 2 := by
  have hk : t.monthIndex + 0 * 12 + ((1 : ℕ) : ℤ) = t.monthIndex + 1 := by norm_num
  unfold Date.addDate
  simp only [hk, Nat.add_zero]
  by_cases h : t.FitsNextMonth
  · rw [if_pos h]
    exact monthIndex_normDay _ h
  · rw [if_neg h, monthIndex_normDay_overflow _ (day_le t) (not_le.mp h)]
    ring

end Add

/-! ## Texts -/

theorem appendInt_month_inj {m m' : ℕ} (hm : 1 ≤ m ∧ m ≤ 12) (hm' : 1 ≤ m' ∧ m' ≤ 12)
    (h : appendInt m 2 = appendInt m' 2) : m = m' := by
  have hall : ∀ m ∈ Finset.Icc 1 12, ∀ m' ∈ Finset.Icc 1 12,
      appendInt ((m : ℕ) : ℤ) 2 = appendInt ((m' : ℕ) : ℤ) 2 → m = m' := by decide +kernel
  exact hall m (Finset.mem_Icc.mpr hm) m' (Finset.mem_Icc.mpr hm') h

theorem length_appendInt_month {m : ℕ} (hm : 1 ≤ m ∧ m ≤ 12) : (appendInt m 2).length = 2 := by
  have hall : ∀ m ∈ Finset.Icc 1 12, (appendInt ((m : ℕ) : ℤ) 2).length = 2 := by decide +kernel
  exact hall m (Finset.mem_Icc.mpr hm)

/-- Texts of the layout are the same for the same month of the year only. -/
theorem monthOf_eq_of_monthText {k k' : ℤ} (h : monthText k = monthText k') :
    monthOf k = monthOf k' := by
  unfold monthText at h
  refine appendInt_month_inj (monthOf_mem k) (monthOf_mem k') (List.append_inj_right' h ?_)
  rw [length_appendInt_month (monthOf_mem k), length_appendInt_month (monthOf_mem k')]

/-- The text for the date a month later is that of the next month if and only if that has the day. -/
theorem formatMonth_addMonth_iff (t : Date) :
    (t.addDate 0 1 0).formatMonth = monthText (t.monthIndex + 1) ↔ t.FitsNextMonth := by
  rw [formatMonth_eq, monthIndex_addMonth]
  by_cases h : t.FitsNextMonth
  · rw [if_pos h]
    exact iff_of_true rfl h
  · rw [if_neg h]
    refine iff_of_false ?_ h
    intro htext
    have hmonth := monthOf_eq_of_monthText htext
    unfold monthOf at hmonth
    omega

end YulongHids.Golang
