import YulongHids.Golang.Proofs.CalendarProofs
import YulongHids.Web.Charts

/-!
# Proofs: the charts of the console

The line chart counts the notices of the days of UTC, the chart of the hours those of the hours of UTC
that lie in the days of the console's clock. So the first one is right for a clock that shows UTC only,
and the second one for a clock whose hours are those of UTC. The pie has no clock.
-/

namespace YulongHids.Web

open Golang Mongo Server

section Clock

variable {zone t t' n : ℤ}

/-- A day of a clock is the time between its midnights. -/
theorem dayOf_eq_iff : dayOf zone t = n ↔ midnight zone n ≤ t ∧ t < midnight zone (n + 1) := by
  unfold dayOf midnight secondsOfDay
  omega

theorem dayOf_midnight (zone n : ℤ) : dayOf zone (midnight zone n) = n := by
  unfold dayOf midnight secondsOfDay
  omega

/-- A day of a clock that is not UTC lies in two days of UTC. -/
theorem exists_dayOf_ne (hne : zone ≠ 0) : ∃ t, dayOf 0 t ≠ dayOf zone t := by
  rcases lt_or_gt_of_ne hne with hneg | hpos
  · refine ⟨86399 - zone, ?_⟩
    unfold dayOf secondsOfDay
    omega
  · refine ⟨-zone, ?_⟩
    unfold dayOf secondsOfDay
    omega

theorem hourOf_mem (zone t : ℤ) : 0 ≤ hourOf zone t ∧ hourOf zone t < 24 := by
  unfold hourOf secondsOfDay
  omega

/-- The text of an hour tells the month, the day and the hour. -/
theorem hourText_inj (h : hourText t = hourText t') :
    (dateOf (dayOf 0 t)).month = (dateOf (dayOf 0 t')).month ∧
      (dateOf (dayOf 0 t)).day = (dateOf (dayOf 0 t')).day ∧ hourOf 0 t = hourOf 0 t' := by
  have hhour : ∀ s, (appendInt (hourOf 0 s) 2).length = 2 := by
    intro s
    obtain ⟨hnonneg, hlt⟩ := hourOf_mem 0 s
    rw [← Int.toNat_of_nonneg hnonneg]
    exact length_appendInt_two (by omega)
  have hlen : (appendInt (hourOf 0 t) 2).length = (appendInt (hourOf 0 t') 2).length := by
    rw [hhour, hhour]
  obtain ⟨hfront, htail⟩ := List.append_inj' h hlen
  obtain ⟨hfront, -⟩ := List.append_inj' hfront rfl
  have hlen' : (appendInt ((dateOf (dayOf 0 t)).day : ℤ) 2).length =
      (appendInt ((dateOf (dayOf 0 t')).day : ℤ) 2).length := by
    rw [length_appendInt_two (day_le _), length_appendInt_two (day_le _)]
  obtain ⟨hfront, hday⟩ := List.append_inj' hfront hlen'
  obtain ⟨hmonth, -⟩ := List.append_inj' hfront rfl
  exact ⟨Int.ofNat.inj (appendInt_inj hmonth), Int.ofNat.inj (appendInt_inj hday), appendInt_inj htail⟩

/-- Times of one day of a clock share their text if and only if they share the hour of UTC. -/
theorem hourText_eq_iff (hday : dayOf zone t = dayOf zone t') :
    hourText t = hourText t' ↔ t / 3600 = t' / 3600 := by
  constructor
  · intro h
    obtain ⟨hmonth, hdate, hhour⟩ := hourText_inj h
    have hnear : |dayOf 0 t - dayOf 0 t'| < 364 := by
      rw [abs_lt]
      unfold dayOf secondsOfDay at *
      omega
    have hsame := eq_of_month_day hmonth hdate hnear
    unfold dayOf hourOf secondsOfDay at *
    omega
  · intro h
    have hsame : dayOf 0 t = dayOf 0 t' := by
      unfold dayOf secondsOfDay
      omega
    have hhour : hourOf 0 t = hourOf 0 t' := by
      unfold hourOf secondsOfDay
      omega
    rw [hourText, hourText, hsame, hhour]

/-- The hours of a clock are those of UTC if it is ahead by whole hours. -/
theorem hourText_eq_iff_hourOf (hzone : (3600 : ℤ) ∣ zone) (hday : dayOf zone t = dayOf zone t') :
    hourText t = hourText t' ↔ hourOf zone t = hourOf zone t' := by
  rw [hourText_eq_iff hday]
  obtain ⟨k, rfl⟩ := hzone
  unfold dayOf hourOf secondsOfDay at *
  omega

end Clock

section Line

variable {zone now : ℤ} {notices : List TimedNotice}
  {countPerDay : (TimedNotice → Bool) → List (GroupRow TimedNotice GoString)}

/-- An element of a list that is made of the first numbers. -/
theorem getD_map_range {β : Type*} (f : ℕ → β) (default : β) {n i : ℕ} (hi : i < n) :
    ((List.range n).map f).getD i default = f i := by
  rw [List.getD_eq_getElem?_getD, List.getElem?_map, List.getElem?_range hi]
  rfl

/-- The days of the chart, from the earliest on. -/
theorem reverse_last7DateStr (zone now : ℤ) : (last7DateStr zone now).reverse =
    (List.range 7).map fun i => dayText (dayOf zone now - 6 + (i : ℕ)) := by
  have hrange : List.range 7 = [0, 1, 2, 3, 4, 5, 6] := rfl
  rw [last7DateStr, hrange]
  simp only [List.map_cons, List.map_nil, List.reverse_cons, List.reverse_nil, List.nil_append,
    List.cons_append, List.cons.injEq, dayText_inj]
  norm_num
  omega

/-- A place of the line chart counts the notices of a day of UTC, those of tomorrow apart. -/
theorem getLineData_eq (hstore : Answers notices dayKey countPerDay) {level i : ℕ} (hlevel : level < 3)
    (hi : i < 7) :
    (((getLineData zone now countPerDay).2.getD level ([], [])).2.getD i 0) =
      notices.countP fun n =>
        (decide (dayOf 0 n.time = dayOf zone now - 6 + (i : ℕ)) &&
          decide (n.time < midnight zone (dayOf zone now + 1))) &&
            (n.level == (level : ℤ) && validNoticeQ n) := by
  have hsearch := (hstore (lineMatch zone now level)).find?_eq
    (dayText (dayOf zone now - 6 + (i : ℕ)))
  rw [getLineData]
  simp only
  rw [getD_map_range _ _ hlevel]
  simp only
  rw [reverse_last7DateStr, List.map_map, getD_map_range _ _ hi, Function.comp_apply, hsearch,
    List.countP_filter]
  refine List.countP_congr fun n _ => ?_
  have hday : midnight 0 (dayOf zone now - 6) ≤ n.time ↔ dayOf zone now - 6 ≤ dayOf 0 n.time := by
    unfold midnight dayOf secondsOfDay
    omega
  simp only [dayKey, dayText_inj, lineMatch, hday, Bool.and_eq_true, decide_eq_true_eq]
  constructor
  · rintro ⟨heq, ⟨-, hlt⟩, hrest⟩
    exact ⟨⟨heq, hlt⟩, hrest⟩
  · rintro ⟨⟨heq, hlt⟩, hrest⟩
    exact ⟨heq, ⟨by omega, hlt⟩, hrest⟩

/-- A notice of some time. -/
def noticeAt (t : ℤ) : TimedNotice where
  id := []
  type := []
  ip := []
  source := []
  level := 0
  info := []
  status := 0
  uptime := none
  time := t

/-- The line chart is right for all notices so far if and only if the clock shows UTC. -/
theorem lineRight_iff :
    (∀ now notices countPerDay, Answers notices dayKey countPerDay → (∀ n ∈ notices, n.time ≤ now) →
      LineRight zone now notices countPerDay) ↔ zone = 0 := by
  constructor
  · intro hright
    by_contra hne
    obtain ⟨t, ht⟩ := exists_dayOf_ne hne
    choose store hstore using fun query => exists_grouping ([noticeAt t].filter query) dayKey
    have hline := hright t [noticeAt t] store hstore (by simp [noticeAt]) 0 (by norm_num) 6 (by norm_num)
    rw [getLineData_eq hstore (by norm_num) (by norm_num)] at hline
    simp [noticeAt, validNoticeQ, ht] at hline
  · rintro rfl now notices countPerDay hstore hpast level hlevel i hi
    rw [getLineData_eq hstore hlevel hi]
    refine List.countP_congr fun n hn => ?_
    have hlt : n.time < midnight 0 (dayOf 0 now + 1) := by
      have hle := hpast n hn
      unfold midnight dayOf secondsOfDay
      omega
    simp [hlt]

end Line

section Time

variable {zone now : ℤ} {notices : List TimedNotice}
  {countPerHour : (TimedNotice → Bool) → List (GroupRow TimedNotice GoString)}

theorem timeMatch_iff {day : ℕ} {n : TimedNotice} :
    timeMatch zone (midnight zone (dayOf zone now + day)) n ↔
      dayOf zone n.time = dayOf zone now - 1 + day ∧ validNoticeQ n := by
  rw [timeMatch, dayOf_midnight, Bool.and_eq_true, Bool.and_eq_true, decide_eq_true_eq,
    decide_eq_true_eq, dayOf_eq_iff]
  have hfirst : dayOf zone now + (day : ℤ) - 1 = dayOf zone now - 1 + day := by ring
  have hlast : dayOf zone now - 1 + (day : ℤ) + 1 = dayOf zone now + day := by ring
  rw [hfirst, hlast]

theorem mem_getTimeData {day : ℕ} {hour : ℤ} {count : ℕ} :
    (day, hour, count) ∈ getTimeData zone now countPerHour ↔ day < 2 ∧
      ∃ r ∈ countPerHour (timeMatch zone (midnight zone (dayOf zone now + day))),
        hourOf zone r.first.time = hour ∧ r.count = count := by
  rw [getTimeData, List.mem_flatMap]
  constructor
  · rintro ⟨day', hday', hmem⟩
    obtain ⟨r, hr, heq⟩ := List.mem_map.mp hmem
    obtain ⟨rfl, rfl, rfl⟩ : day' = day ∧ hourOf zone r.first.time = hour ∧ r.count = count := by
      simpa using heq
    exact ⟨List.mem_range.mp hday', r, hr, rfl, rfl⟩
  · rintro ⟨hday, r, hr, rfl, rfl⟩
    exact ⟨day, List.mem_range.mpr hday, List.mem_map.mpr ⟨r, hr, rfl⟩⟩

/-- What is known of a row of a day: its notice is one of the day, and it counts the notices of the day
with the text of its hour. -/
theorem row_of_day (hstore : Answers notices (fun n => hourText n.time) countPerHour) {day : ℕ}
    {r : GroupRow TimedNotice GoString}
    (hr : r ∈ countPerHour (timeMatch zone (midnight zone (dayOf zone now + day)))) :
    (dayOf zone r.first.time = dayOf zone now - 1 + day ∧ hourText r.first.time = r.id) ∧
      r.count = notices.countP fun n => decide (hourText n.time = hourText r.first.time) &&
        (decide (dayOf zone n.time = dayOf zone now - 1 + day) && validNoticeQ n) := by
  obtain ⟨hmem, hkey⟩ := (hstore _).first_mem r hr
  have hmatch := timeMatch_iff.mp (List.mem_filter.mp hmem).2
  refine ⟨⟨hmatch.1, hkey⟩, ?_⟩
  rw [(hstore _).count_eq r hr, List.countP_filter]
  refine List.countP_congr fun n _ => ?_
  rw [← hkey, Bool.and_eq_true, timeMatch_iff]
  simp only [Bool.and_eq_true, decide_eq_true_eq]

/-- Rows of a day have different hours. -/
theorem nodup_hours (hzone : (3600 : ℤ) ∣ zone)
    (hstore : Answers notices (fun n => hourText n.time) countPerHour) (day : ℕ) :
    ((countPerHour (timeMatch zone (midnight zone (dayOf zone now + day)))).map
      fun r => hourOf zone r.first.time).Nodup := by
  refine List.Nodup.map_on ?_ (List.Nodup.of_map _ (hstore _).nodup)
  intro r hr r' hr' hhour
  obtain ⟨⟨hday, hid⟩, -⟩ := row_of_day hstore hr
  obtain ⟨⟨hday', hid'⟩, -⟩ := row_of_day hstore hr'
  have htext := (hourText_eq_iff_hourOf hzone (hday.trans hday'.symm)).mpr hhour
  exact List.inj_on_of_nodup_map (hstore _).nodup hr hr' (by rw [← hid, ← hid', htext])

/-- The count of a row is that of the hour of the clock. -/
theorem countP_hour (hzone : (3600 : ℤ) ∣ zone) {day : ℤ} {t : ℤ} (ht : dayOf zone t = day) :
    (notices.countP fun n => decide (hourText n.time = hourText t) &&
        (decide (dayOf zone n.time = day) && validNoticeQ n)) =
      notices.countP fun n => decide (dayOf zone n.time = day) &&
        (decide (hourOf zone n.time = hourOf zone t) && validNoticeQ n) := by
  refine List.countP_congr fun n _ => ?_
  simp only [Bool.and_eq_true, decide_eq_true_eq]
  constructor
  · rintro ⟨htext, hday, hvalid⟩
    exact ⟨hday, (hourText_eq_iff_hourOf hzone (hday.trans ht.symm)).mp htext, hvalid⟩
  · rintro ⟨hday, hhour, hvalid⟩
    exact ⟨(hourText_eq_iff_hourOf hzone (hday.trans ht.symm)).mpr hhour, hday, hvalid⟩

theorem timeRight_of_dvd (hzone : (3600 : ℤ) ∣ zone)
    (hstore : Answers notices (fun n => hourText n.time) countPerHour) :
    TimeRight zone now notices countPerHour := by
  constructor
  · rw [getTimeData, List.map_flatMap, List.nodup_flatMap]
    constructor
    · intro day _
      rw [List.map_map]
      exact List.Nodup.of_map Prod.snd (by
        rw [List.map_map]
        exact nodup_hours hzone hstore day)
    · refine List.nodup_range.imp fun {day day'} hne => ?_
      intro entry hmem hmem'
      simp only [List.map_map, List.mem_map, Function.comp_apply] at hmem hmem'
      obtain ⟨r, -, rfl⟩ := hmem
      obtain ⟨r', -, heq⟩ := hmem'
      exact hne (congrArg Prod.fst heq).symm
  · intro day hour count
    rw [mem_getTimeData]
    constructor
    · rintro ⟨hday, r, hr, rfl, rfl⟩
      obtain ⟨⟨hfirst, -⟩, hcount⟩ := row_of_day hstore hr
      exact ⟨hday, (hstore _).count_pos hr, by rw [hcount, countP_hour hzone hfirst]⟩
    · rintro ⟨hday, hpos, hcount⟩
      have hsome := hpos
      rw [hcount, List.countP_pos_iff] at hsome
      obtain ⟨n, hn, hmatch⟩ := hsome
      simp only [Bool.and_eq_true, decide_eq_true_eq] at hmatch
      obtain ⟨hnday, rfl, hvalid⟩ := hmatch
      have hfilter : n ∈ notices.filter (timeMatch zone (midnight zone (dayOf zone now + day))) :=
        List.mem_filter.mpr ⟨hn, timeMatch_iff.mpr ⟨hnday, hvalid⟩⟩
      obtain ⟨r, hr, hid⟩ := (hstore _).exists_row n hfilter
      obtain ⟨⟨hfirst, hkey⟩, hrcount⟩ := row_of_day hstore hr
      have hhour : hourOf zone r.first.time = hourOf zone n.time :=
        (hourText_eq_iff_hourOf hzone (hfirst.trans hnday.symm)).mp (hkey.trans hid)
      refine ⟨hday, r, hr, hhour, ?_⟩
      rw [hrcount, countP_hour hzone hfirst, hhour, hcount]

/-- An hour of UTC that lies in two hours of a clock. -/
theorem exists_hour_split (hzone : ¬ (3600 : ℤ) ∣ zone) : ∃ t, dayOf zone t = dayOf zone (t - 1) ∧
    t / 3600 = (t - 1) / 3600 ∧ hourOf zone t ≠ hourOf zone (t - 1) := by
  have hne : (3600 - zone) % 3600 ≠ 0 := fun h => hzone (by omega)
  refine ⟨3600 - zone, ?_, ?_, ?_⟩
  · unfold dayOf secondsOfDay
    omega
  · omega
  · unfold hourOf secondsOfDay
    omega

/-- The chart of the hours is right for all notices if and only if the clock is ahead of UTC by whole
hours. -/
theorem timeRight_iff :
    (∀ now notices countPerHour, Answers notices (fun n => hourText n.time) countPerHour →
      TimeRight zone now notices countPerHour) ↔ (3600 : ℤ) ∣ zone := by
  constructor
  · intro hright
    by_contra hzone
    obtain ⟨t, hday, htext, hhour⟩ := exists_hour_split hzone
    rw [← hourText_eq_iff hday] at htext
    choose store hstore using fun query =>
      exists_grouping ([noticeAt (t - 1), noticeAt t].filter query) fun n => hourText n.time
    have hentry : (1, hourOf zone t, 1) ∈ getTimeData zone t store := by
      rw [(hright t [noticeAt (t - 1), noticeAt t] store hstore).2]
      simp [noticeAt, validNoticeQ, ← hday, Ne.symm hhour]
    obtain ⟨-, r, hr, -, hone⟩ := mem_getTimeData.mp hentry
    -- the group of the row has both notices
    obtain ⟨⟨hfirst, hid⟩, hcount⟩ := row_of_day hstore hr
    have hfirstText : hourText r.first.time = hourText t := by
      have hmem := (List.mem_filter.mp ((hstore _).first_mem r hr).1).1
      rcases List.mem_pair.mp hmem with heq | heq
      · rw [heq, htext]
        rfl
      · rw [heq]
        rfl
    rw [hone, hfirstText] at hcount
    simp [noticeAt, validNoticeQ, ← hday, htext] at hcount
  · intro hzone now notices countPerHour hstore
    exact timeRight_of_dvd hzone hstore

end Time

section Pie

variable {notices : List TimedNotice} {sourceCounts : List (GroupRow TimedNotice GoString)}
  {levelCounts : List (GroupRow TimedNotice ℤ)}

end Pie

end YulongHids.Web
