import YulongHids.Golang.Calendar
import YulongHids.Golang.Proofs.DateProofs
import YulongHids.Golang.Proofs.StringsProofs

/-!
# Proofs: the days of the calendar

The number of a date gives back the day that it is the date of. So different days have different
dates, and different texts.
-/

namespace YulongHids.Golang

/-! ## Numbers of days -/

theorem yearStart_succ (year : ℤ) :
    yearStart (year + 1) = yearStart year + if isLeap year then 366 else 365 := by
  unfold yearStart isLeap
  split_ifs with h
  · simp only [Bool.and_eq_true, Bool.or_eq_true, beq_iff_eq, bne_iff_ne] at h
    omega
  · simp only [Bool.and_eq_true, Bool.or_eq_true, beq_iff_eq, bne_iff_ne, not_and_or, not_or,
      not_not] at h
    omega

theorem yearStart_mono {year year' : ℤ} (h : year < year') : yearStart year + 365 ≤ yearStart year' := by
  induction year', h using Int.leInduction with
  | base =>
    rw [yearStart_succ]
    split_ifs <;> omega
  | succ year' _ ih =>
    rw [yearStart_succ]
    split_ifs <;> omega

/-- The first months of two years differ by the leap day only. -/
theorem daysBefore_le (year year' : ℤ) (months : ℕ) :
    daysBefore year months ≤ daysBefore year' months + if 2 ≤ months then 1 else 0 := by
  induction months with
  | zero => simp [daysBefore]
  | succ months ih =>
    have hstep : daysIn year (months + 1) ≤
        daysIn year' (months + 1) + if months = 1 then 1 else 0 := by
      unfold daysIn
      split_ifs <;> omega
    simp only [daysBefore]
    split_ifs at ih hstep ⊢ <;> omega

theorem daysBefore_twelve (year : ℤ) : daysBefore year 12 = if isLeap year then 366 else 365 := by
  cases h : isLeap year <;> simp [daysBefore, daysIn, h]

theorem monthStart_succ (k : ℤ) :
    monthStart (k + 1) = monthStart k + daysIn (yearOf k) (monthOf k) := by
  have hmonth := monthOf_mem k
  have hsucc : monthOf k - 1 + 1 = monthOf k := by omega
  have hdays : daysBefore (yearOf k) (monthOf k) =
      daysBefore (yearOf k) (monthOf k - 1) + daysIn (yearOf k) (monthOf k) := by
    conv_lhs => rw [← hsucc, daysBefore, hsucc]
  rcases eq_or_ne (monthOf k) 12 with hlast | hne
  · have hyear : yearOf (k + 1) = yearOf k + 1 := by
      unfold yearOf monthOf at *
      omega
    have hfirst : monthOf (k + 1) = 1 := by
      unfold monthOf at *
      omega
    have htwelve := daysBefore_twelve (yearOf k)
    rw [hlast] at hdays
    unfold monthStart
    rw [hyear, hfirst, hlast, yearStart_succ, Nat.sub_self, daysBefore]
    split_ifs at htwelve ⊢ <;> omega
  · have hyear : yearOf (k + 1) = yearOf k := by
      unfold yearOf monthOf at *
      omega
    have hnext : monthOf (k + 1) = monthOf k + 1 := by
      unfold monthOf at *
      omega
    unfold monthStart
    rw [hyear, hnext, Nat.add_sub_cancel, hdays]
    push_cast
    ring

/-- Days that overflow a month are days of the next one. -/
theorem dayNumber_normDay (k : ℤ) (day : ℕ) (hday : 1 ≤ day) :
    (normDay k day hday).dayNumber = monthStart k + day - 1 := by
  induction k, day, hday using normDay.induct with
  | case1 k day hday h =>
    have hdayOf : (normDay k day hday).day = day := by rw [normDay, dif_pos h]
    rw [Date.dayNumber, monthIndex_normDay hday h, hdayOf]
  | case2 k day hday h ih =>
    have hlt := not_le.mp h
    rw [normDay, dif_neg h, ih, monthStart_succ]
    omega

theorem dayNumber_dateOf (n : ℤ) : (dateOf n).dayNumber = n := by
  have hstart : monthStart (4800 * (n / 146097)) = 146097 * (n / 146097) := by
    have hyear : yearOf (4800 * (n / 146097)) = 400 * (n / 146097) := by
      unfold yearOf
      omega
    have hmonth : monthOf (4800 * (n / 146097)) = 1 := by
      unfold monthOf
      omega
    unfold monthStart
    rw [hyear, hmonth]
    simp only [Nat.sub_self, daysBefore, yearStart]
    omega
  rw [dateOf, dayNumber_normDay, hstart]
  omega

theorem dateOf_injective : Function.Injective dateOf :=
  Function.LeftInverse.injective dayNumber_dateOf

theorem Date.dayNumber_eq (t : Date) :
    t.dayNumber = yearStart t.year + daysBefore t.year (t.month - 1) + t.day - 1 := by
  rw [Date.dayNumber, monthStart, yearOf_monthIndex, monthOf_monthIndex]

/-- Days that are less than a year apart do not share their month and their day in it. -/
theorem eq_of_month_day {n m : ℤ} (hmonth : (dateOf n).month = (dateOf m).month)
    (hday : (dateOf n).day = (dateOf m).day) (hnear : |n - m| < 364) : n = m := by
  have hn := (dateOf n).dayNumber_eq
  have hm := (dateOf m).dayNumber_eq
  rw [dayNumber_dateOf, hmonth, hday] at hn
  rw [dayNumber_dateOf] at hm
  have hdays := daysBefore_le (dateOf n).year (dateOf m).year ((dateOf m).month - 1)
  have hdays' := daysBefore_le (dateOf m).year (dateOf n).year ((dateOf m).month - 1)
  rw [abs_lt] at hnear
  rcases lt_trichotomy (dateOf n).year (dateOf m).year with hlt | heq | hlt
  · have hstart := yearStart_mono hlt
    split_ifs at hdays hdays' <;> omega
  · rw [heq] at hn
    omega
  · have hstart := yearStart_mono hlt
    split_ifs at hdays hdays' <;> omega

/-! ## Texts of days -/

/-- The number that a text of digits stands for. -/
def textValue (s : GoString) : ℕ := s.foldl (fun n b => n * 10 + (b.toNat - 48)) 0

theorem textValue_itoa (zeros n : ℕ) : textValue (List.replicate zeros 48 ++ itoa n) = n := by
  have hzeros : (List.replicate zeros (48 : UInt8)).foldl (fun n b => n * 10 + (b.toNat - 48)) 0 = 0 := by
    induction zeros with
    | zero => rfl
    | succ zeros ih =>
      rw [List.replicate_succ, List.foldl_cons]
      exact ih
  rw [textValue, List.foldl_append, hzeros]
  by_cases hn : n = 0
  · subst hn
    rfl
  have hdigits : ∀ m, ∀ d ∈ (Nat.digits 10 n).reverse,
      m * 10 + ((48 + d.toUInt8).toNat - 48) = m * 10 + d := by
    intro m d hd
    rw [digitByte_toNat (Nat.digits_lt_base (by norm_num) (List.mem_reverse.mp hd)),
      Nat.add_sub_cancel_left]
  rw [itoa, if_neg hn, List.foldl_map, List.foldl_ext _ _ 0 hdigits, List.foldl_reverse]
  conv_rhs => rw [← Nat.ofDigits_digits 10 n, Nat.ofDigits_eq_foldr]
  simp only [Nat.cast_id]
  congr 1
  funext d n
  ring

/-- Texts of one width are those of one number. -/
theorem appendInt_inj {x y : ℤ} {width : ℕ} (h : appendInt x width = appendInt y width) : x = y := by
  have hsign : ∀ zeros n, (45 : UInt8) ∉ List.replicate zeros 48 ++ itoa n := by
    intro zeros n hmem
    rcases List.mem_append.mp hmem with hmem | hmem
    · exact absurd (List.eq_of_mem_replicate hmem) (by decide)
    · exact not_mem_itoa (by decide) hmem
  unfold appendInt at h
  split_ifs at h with hx hy hy
  · have hvalue := congrArg textValue (List.append_cancel_left h)
    rw [textValue_itoa, textValue_itoa] at hvalue
    omega
  · rw [List.nil_append] at h
    exact absurd (h ▸ List.mem_append_left _ (List.mem_singleton_self _)) (hsign _ y.natAbs)
  · rw [List.nil_append] at h
    exact absurd (h.symm ▸ List.mem_append_left _ (List.mem_singleton_self _)) (hsign _ x.natAbs)
  · have hvalue := congrArg textValue h
    rw [List.nil_append, List.nil_append, textValue_itoa, textValue_itoa] at hvalue
    omega

theorem length_appendInt_two {m : ℕ} (hm : m ≤ 31) : (appendInt m 2).length = 2 := by
  have hall : ∀ m ∈ Finset.range 32, (appendInt ((m : ℕ) : ℤ) 2).length = 2 := by decide +kernel
  exact hall m (Finset.mem_range.mpr (by omega))

theorem formatDay_inj {t t' : Date} (h : t.formatDay = t'.formatDay) : t = t' := by
  have hlen : (appendInt (t.day : ℤ) 2).length = (appendInt (t'.day : ℤ) 2).length := by
    rw [length_appendInt_two (day_le t), length_appendInt_two (day_le t')]
  have hlen' : (appendInt (t.month : ℤ) 2).length = (appendInt (t'.month : ℤ) 2).length := by
    rw [length_appendInt_month t.month_mem, length_appendInt_month t'.month_mem]
  obtain ⟨hfront, hday⟩ := List.append_inj' h hlen
  obtain ⟨hfront, -⟩ := List.append_inj' hfront rfl
  obtain ⟨hfront, hmonth⟩ := List.append_inj' hfront hlen'
  obtain ⟨hyear, -⟩ := List.append_inj' hfront rfl
  obtain ⟨year, month, day, hmonthMem, hdayMem⟩ := t
  obtain ⟨year', month', day', hmonthMem', hdayMem'⟩ := t'
  obtain rfl : year = year' := appendInt_inj hyear
  obtain rfl : month = month' := Int.ofNat.inj (appendInt_inj hmonth)
  obtain rfl : day = day' := Int.ofNat.inj (appendInt_inj hday)
  rfl

/-- Different days have different texts. -/
theorem dayText_inj {n m : ℤ} : dayText n = dayText m ↔ n = m := by
  constructor
  · intro h
    exact dateOf_injective (formatDay_inj h)
  · rintro rfl
    rfl

end YulongHids.Golang
