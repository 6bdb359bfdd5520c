import YulongHids.Agent.Crontab
import YulongHids.Golang.Proofs.StringsProofs

/-!
# Proofs: crontab entries

A line is cut at its fifth blank (sixth in the system crontab), and its rule at the first blank that
is followed by the user or the command. Both are the places of the format only if the blanks are
counted right and the text does not occur earlier.
-/

namespace YulongHids.Agent

open Golang Text

/-! ## Schedules -/

theorem cronSpace_blank : cronSpace 32 = true := by decide

theorem IsCronWord.letter {w : GoString} (h : IsCronWord w) : ∀ b ∈ w, cronSpace b = false :=
  fun b hb => (h.2 b hb).1

theorem IsCronWord.blank_not_mem {w : GoString} (h : IsCronWord w) : 32 ∉ w := by
  intro hmem
  exact absurd (h.letter 32 hmem) (by decide)

theorem IsSpace.newline_not_mem {s : GoString} (h : IsSpace s) : 10 ∉ s := by
  intro hmem
  exact absurd (h 10 hmem) (by decide)

section Schedule

variable {parts : List (GoString × GoString)}

theorem fields_parts (h : ∀ p ∈ parts, IsCronField p.1 ∧ IsGap p.2) (s : GoString) :
    fields cronSpace ((parts.flatMap fun p => p.1 ++ p.2) ++ s) =
      parts.map Prod.fst ++ fields cronSpace s := by
  induction parts with
  | nil => rfl
  | cons p parts ih =>
    obtain ⟨⟨hword, hgap⟩, hrest⟩ := List.forall_mem_cons.mp h
    rw [List.flatMap_cons, List.append_assoc, List.append_assoc,
      fields_word_append hword.1.1 hword.1.letter hgap.1 hgap.2, ih hrest, List.map_cons,
      List.cons_append]

theorem newline_not_mem_parts (h : ∀ p ∈ parts, IsCronField p.1 ∧ IsGap p.2) :
    10 ∉ parts.flatMap fun p => p.1 ++ p.2 := by
  intro hmem
  obtain ⟨p, hp, hmem⟩ := List.mem_flatMap.mp hmem
  obtain ⟨hword, hgap⟩ := h p hp
  rcases List.mem_append.mp hmem with hmem | hmem
  · exact (hword.1.2 10 hmem).2 rfl
  · exact hgap.2.newline_not_mem hmem

variable (s : Schedule)

theorem Schedule.fields_text (t : GoString) :
    Text.fields cronSpace (s.text ++ t) = s.fields ++ Text.fields cronSpace t :=
  fields_parts s.formed t

theorem Schedule.newline_not_mem : 10 ∉ s.text := newline_not_mem_parts s.formed

theorem Schedule.fields_length : s.fields.length = 5 := by
  rw [Schedule.fields, List.length_map, s.five]

/-- The text begins with a letter of the first field. -/
theorem Schedule.text_cons : ∃ b t, s.text = b :: t ∧ cronSpace b = false ∧ b ≠ 35 := by
  obtain ⟨⟨⟨w, g⟩, rest⟩, hparts⟩ : ∃ p : (GoString × GoString) × List (GoString × GoString),
      s.parts = p.1 :: p.2 := by
    rcases hp : s.parts with _ | ⟨p, rest⟩
    · have hfive := s.five
      rw [hp] at hfive
      cases hfive
    · exact ⟨(p, rest), rfl⟩
  obtain ⟨hword, -⟩ := s.formed (w, g) (by rw [hparts]; exact List.mem_cons_self)
  obtain ⟨b, w', hw⟩ := List.exists_cons_of_ne_nil hword.1.1
  refine ⟨b, w' ++ (g ++ rest.flatMap fun p => p.1 ++ p.2), ?_, ?_, ?_⟩
  · rw [Schedule.text, hparts, List.flatMap_cons, List.append_assoc]
    simp only at hw
    rw [hw, List.cons_append]
  · exact hword.1.letter b (by rw [hw]; exact List.mem_cons_self)
  · rintro rfl
    exact hword.2.1 (by rw [hw]; exact List.mem_cons_self)

end Schedule

/-! ## The rule -/

/-- A text that begins with a letter does not begin a text that begins with space. -/
theorem not_prefix_space {key x rest : GoString}
    (hkey : ∃ b, key.head? = some b ∧ cronSpace b = false) (hspace : IsSpace x) :
    ¬ key <+: x ++ 32 :: rest := by
  intro hnext
  obtain ⟨b, hb, hletter⟩ := hkey
  obtain ⟨k, rfl⟩ := List.head?_eq_some_iff.mp hb
  rcases x with _ | ⟨c, x⟩
  · obtain ⟨rfl, -⟩ := List.cons_prefix_cons.mp hnext
    exact absurd hletter (by decide)
  · obtain ⟨rfl, -⟩ := List.cons_prefix_cons.mp hnext
    exact absurd (hspace b List.mem_cons_self) (by rw [hletter]; decide)

theorem Schedule.fields_self (s : Schedule) : Text.fields cronSpace s.text = s.fields := by
  have h := s.fields_text []
  rwa [List.append_nil, fields_nil, List.append_nil] at h

section Rule

variable {s : Schedule} {head key rest t : GoString}

/-- A rule with the five fields is not shorter than the schedule: it would be followed by a word where
the schedule has space. -/
theorem length_le_of_fields (hhead : s.text = head ++ [32])
    (hkey : ∃ b, key.head? = some b ∧ cronSpace b = false)
    (hpre : t ++ 32 :: key <+: s.text ++ (key ++ rest))
    (hfields : Text.fields cronSpace t = s.fields) : head.length ≤ t.length := by
  by_contra hshort
  have hlt : (t ++ [32]).length ≤ head.length := by
    rw [List.length_append, List.length_singleton]
    omega
  have hsub : t ++ [32] <+: s.text ++ (key ++ rest) :=
    List.IsPrefix.trans ⟨key, by simp⟩ hpre
  have hhead' : head <+: s.text ++ (key ++ rest) := ⟨32 :: key ++ rest, by rw [hhead]; simp⟩
  obtain ⟨x, rfl⟩ := List.prefix_of_prefix_length_le hsub hhead' hlt
  have hspace : IsSpace x := by
    refine fields_eq_nil_iff.mp ?_
    have hall := hfields.trans s.fields_self.symm
    rw [hhead, List.append_assoc, List.append_assoc, List.singleton_append,
      fields_append_cons cronSpace_blank, fields_append_space x (by simp [cronSpace_blank])] at hall
    exact List.self_eq_append_right.mp hall
  rw [hhead] at hpre
  have hnext : key <+: x ++ 32 :: (key ++ rest) := by
    simpa [List.append_assoc] using hpre
  exact not_prefix_space hkey hspace hnext

/-- The rule has the five fields if and only if it ends where the schedule does. -/
theorem fields_splitHead_iff (hblank : s.text.getLast? = some 32)
    (hkey : ∃ b, key.head? = some b ∧ cronSpace b = false) (rest : GoString) :
    Text.fields cronSpace (splitHead (32 :: key) (s.text ++ (key ++ rest))) = s.fields ↔
      NotBefore key (s.text ++ (key ++ rest)) s.text.length := by
  obtain ⟨head, hhead⟩ : ∃ head, s.text = head ++ [32] := by
    rw [List.getLast?_eq_some_iff] at hblank
    exact hblank
  have hlength : s.text.length = head.length + 1 := by
    rw [hhead, List.length_append, List.length_singleton]
  have hplace : head ++ 32 :: key <+: s.text ++ (key ++ rest) := by
    rw [hhead]
    exact ⟨rest, by simp⟩
  obtain ⟨hpre, hlen⟩ := splitHead_append_prefix hplace (List.cons_ne_nil 32 key)
  constructor
  · intro hfields t' ht'
    obtain ⟨-, hlen'⟩ := splitHead_append_prefix ht' (List.cons_ne_nil 32 key)
    have hle := length_le_of_fields hhead hkey hpre hfields
    omega
  · intro hno
    have hle := hno _ hpre
    have ht1 := prefix_splitHead (32 :: key) (s.text ++ (key ++ rest))
    have ht2 : head <+: s.text ++ (key ++ rest) := ⟨32 :: key ++ rest, by rw [hhead]; simp⟩
    rw [(List.prefix_of_prefix_length_le ht1 ht2 hlen).eq_of_length (by omega), ← s.fields_self, hhead,
      fields_append_space head (by simp [cronSpace_blank])]

end Rule

/-! ## Entries -/

theorem Schedule.not_comment (s : Schedule) (t : GoString) : ¬ str "#" <+: s.text ++ t := by
  obtain ⟨b, u, htext, -, hne⟩ := s.text_cons
  rw [htext, List.cons_append]
  intro h
  exact hne (List.cons_prefix_cons.mp h).1.symm

theorem Schedule.aligned_iff {s : Schedule} :
    s.Aligned ↔ ∃ fs, (∀ f ∈ fs, 32 ∉ f) ∧ fs.length = 5 ∧ s.text = ended 32 fs :=
  exists_eq_ended_iff.symm

theorem IsCommand.head {s : GoString} (h : IsCommand s) :
    ∃ b, s.head? = some b ∧ cronSpace b = false := by
  obtain ⟨b, hb, hletter⟩ := (Option.any_eq_true _ _).mp h.2
  exact ⟨b, hb, by simpa using hletter⟩

theorem IsCronWord.head {w : GoString} (h : IsCronWord w) :
    ∃ b, w.head? = some b ∧ cronSpace b = false := by
  obtain ⟨b, w, rfl⟩ := List.exists_cons_of_ne_nil h.1
  exact ⟨b, rfl, h.letter b List.mem_cons_self⟩

/-! Both loops leave out a line or make one record of it. -/

section Record

variable {skip : Prop} [Decidable skip] {r : CronRecord}

theorem exists_reports_iff {w : Schedule × GoString × GoString} :
    (∃ x, (if skip then none else some r) = some x ∧ x.Reports w) ↔ ¬ skip ∧ r.Reports w := by
  by_cases h : skip
  · simp [h]
  · simp [h]

theorem ite_eq_none_iff : (if skip then none else some r) = none ↔ skip := by
  by_cases h : skip
  · exact iff_of_true (if_pos h) h
  · rw [if_neg h]
    exact iff_of_false (Option.some_ne_none r) h

theorem rule_prefix_of_ite {info : GoString} (hr : r.rule <+: info) {x : CronRecord}
    (h : (if skip then none else some r) = some x) : x.rule <+: info := by
  split at h
  · cases h
  · rwa [← Option.some.inj h]

end Record

section User

variable (e : UserEntry)

/-- The fifth blank stands before the command if and only if the schedule is aligned. -/
theorem UserEntry.cut_iff :
    5 ≤ e.text.count 32 ∧ (splitN e.text 32 6).getD 5 [] = e.command ↔ e.schedule.Aligned := by
  rw [Schedule.aligned_iff]
  constructor
  · rintro ⟨hcount, hcut⟩
    obtain ⟨fs, t, hfs, hlen, htext⟩ := exists_ended hcount
    have hsplit := splitN_ended hfs t
    rw [← htext, hlen] at hsplit
    rw [hsplit, ← hlen, getD_length_append] at hcut
    rw [hcut, UserEntry.text] at htext
    exact ⟨fs, hfs, hlen, List.append_cancel_right htext⟩
  · rintro ⟨fs, hfs, hlen, htext⟩
    have hsplit := splitN_ended hfs e.command
    rw [hlen, ← htext] at hsplit
    rw [UserEntry.text, hsplit, ← hlen, getD_length_append, htext, List.count_append,
      count_ended hfs]
    exact ⟨Nat.le_add_right _ _, rfl⟩

theorem userRecord_reports_iff (name : GoString) :
    (∃ r, userRecord name e.text = some r ∧ r.Reports (e.schedule, name, e.command)) ↔
      UserLineOk (.entry e) := by
  have hcomment : ¬ str "#" <+: e.text := e.schedule.not_comment e.command
  have hrule : e.schedule.Aligned →
      (Text.fields cronSpace (splitHead (32 :: e.command) e.text) = e.schedule.fields ↔
        NotBefore e.command e.text e.schedule.text.length) := by
    intro haligned
    have h := fields_splitHead_iff haligned.2 e.formed.head []
    rwa [List.append_nil] at h
  have hrecord : userRecord name e.text =
      if str "#" <+: e.text ∨ e.text.count 32 < 5 then none else some ⟨_, _, _⟩ := rfl
  rw [UserLineOk, hrecord, exists_reports_iff, ← UserEntry.cut_iff]
  constructor
  · rintro ⟨hskip, -, hcommand, hfields⟩
    have hcut := (⟨not_lt.mp (not_or.mp hskip).2, hcommand⟩ : _ ∧ _)
    simp only at hcommand hfields
    rw [hcommand] at hfields
    exact ⟨hcut, (hrule (e.cut_iff.mp hcut)).mp hfields⟩
  · rintro ⟨hcut, hno⟩
    refine ⟨not_or.mpr ⟨hcomment, not_lt.mpr hcut.1⟩, rfl, hcut.2, ?_⟩
    simp only [hcut.2]
    exact (hrule (e.cut_iff.mp hcut)).mpr hno

end User

section System

variable (e : SystemEntry)

/-- A line that goes on with the user and one blank has no other gap there. -/
theorem SystemEntry.gap_eq_of_head {init : GoString}
    (hhead : e.schedule.text ++ (e.user ++ e.gap) = init ++ (e.user ++ [32])) :
    e.schedule.text = init ∧ e.gap = [32] := by
  obtain ⟨g, b, hgap⟩ := (List.eq_nil_or_concat' e.gap).resolve_left e.formed.2.1.1
  have hspace := e.formed.2.1.2
  rw [hgap, ← List.append_assoc, ← List.append_assoc, ← List.append_assoc] at hhead
  obtain ⟨hhead, hb⟩ := List.append_inj' hhead rfl
  -- behind the user there is no second space
  rcases List.eq_nil_or_concat' g with rfl | ⟨g, c, rfl⟩
  · rw [List.append_nil] at hhead
    exact ⟨List.append_cancel_right hhead, by rw [hgap, List.nil_append, hb]⟩
  · obtain ⟨w, l, huserEnd⟩ := (List.eq_nil_or_concat' e.user).resolve_left e.formed.1.1
    simp only [huserEnd, ← List.append_assoc] at hhead
    obtain ⟨-, hcl⟩ := List.append_inj' hhead rfl
    have hletter := e.formed.1.letter l (by rw [huserEnd]; simp)
    have hc := hspace c (by rw [hgap]; simp)
    rw [List.singleton_inj.mp hcl, hletter] at hc
    cases hc

/-- The fifth and the sixth blank stand around the user if and only if the schedule is aligned and
one blank follows the user. -/
theorem SystemEntry.cut_iff :
    6 ≤ e.text.count 32 ∧ (splitN e.text 32 7).getD 5 [] = e.user ∧
      (splitN e.text 32 7).getD 6 [] = e.command ↔ e.schedule.Aligned ∧ e.gap = [32] := by
  rw [Schedule.aligned_iff]
  constructor
  · rintro ⟨hcount, huser, hcut⟩
    obtain ⟨fs, t, hfs, hlen, htext⟩ := exists_ended hcount
    have hsplit := splitN_ended hfs t
    rw [← htext, hlen] at hsplit
    rw [hsplit, ← hlen, getD_length_append] at hcut
    obtain ⟨init, f, rfl⟩ := (List.eq_nil_or_concat' fs).resolve_left (by rintro rfl; cases hlen)
    rw [List.length_append, List.length_singleton, Nat.add_right_cancel_iff] at hlen
    rw [hsplit, List.append_assoc, List.singleton_append, ← hlen, getD_length_append] at huser
    have hhead : e.schedule.text ++ (e.user ++ e.gap) = ended 32 init ++ (e.user ++ [32]) := by
      rw [hcut, ended_concat, huser, SystemEntry.text, ← List.append_assoc e.user,
        ← List.append_assoc] at htext
      exact List.append_cancel_right htext
    obtain ⟨hschedule, hgap⟩ := e.gap_eq_of_head hhead
    exact ⟨⟨init, fun f hf => hfs f (by simp [hf]), hlen, hschedule⟩, hgap⟩
  · rintro ⟨⟨fs, hfs, hlen, htext⟩, hgap⟩
    have hall : ∀ f ∈ fs ++ [e.user], 32 ∉ f := by
      intro f hf
      rcases List.mem_append.mp hf with hf | hf
      · exact hfs f hf
      · rw [List.mem_singleton.mp hf]
        exact e.formed.1.blank_not_mem
    have hline : e.text = ended 32 (fs ++ [e.user]) ++ e.command := by
      rw [SystemEntry.text, htext, hgap, ended_concat]
      simp
    have hsplit := splitN_ended hall e.command
    have hseven : (fs ++ [e.user]).length = 6 := by
      rw [List.length_append, List.length_singleton, hlen]
    rw [← hline, hseven] at hsplit
    rw [hsplit]
    refine ⟨?_, ?_, ?_⟩
    · rw [hline, List.count_append, count_ended hall, hseven]
      exact Nat.le_add_right _ _
    · rw [List.append_assoc, List.singleton_append, ← hlen, getD_length_append]
    · rw [← hseven, getD_length_append]

theorem systemRecord_reports_iff :
    (∃ r, systemRecord e.text = some r ∧ r.Reports (e.schedule, e.user, e.command)) ↔
      SystemLineOk (.entry e) := by
  have hcomment : ¬ str "#" <+: e.text := e.schedule.not_comment _
  have hrule : e.schedule.Aligned →
      (Text.fields cronSpace (splitHead (32 :: e.user) e.text) = e.schedule.fields ↔
        NotBefore e.user e.text e.schedule.text.length) := fun haligned =>
    fields_splitHead_iff haligned.2 e.formed.1.head _
  have hrecord : systemRecord e.text =
      if str "#" <+: e.text ∨ e.text.count 32 < 6 then none else some ⟨_, _, _⟩ := rfl
  rw [SystemLineOk, hrecord, exists_reports_iff, ← and_assoc, ← SystemEntry.cut_iff]
  constructor
  · rintro ⟨hskip, huser, hcommand, hfields⟩
    have hcut := (⟨not_lt.mp (not_or.mp hskip).2, huser, hcommand⟩ : _ ∧ _ ∧ _)
    simp only at huser hfields
    rw [huser] at hfields
    exact ⟨hcut, (hrule (e.cut_iff.mp hcut).1).mp hfields⟩
  · rintro ⟨hcut, hno⟩
    refine ⟨not_or.mpr ⟨hcomment, not_lt.mpr hcut.1⟩, hcut.2.1, hcut.2.2, ?_⟩
    simp only [hcut.2.1]
    exact (hrule (e.cut_iff.mp hcut).1).mpr hno

end System

/-! ## Other lines -/

theorem prefix_before_mark {t lead rest : GoString} {mark : UInt8} (h : t <+: lead ++ mark :: rest)
    (hmark : mark ∉ t) : t <+: lead := by
  have hlead : lead <+: lead ++ mark :: rest := List.prefix_append _ _
  rcases Nat.lt_or_ge lead.length t.length with hlt | hge
  · have hlead' : lead ++ [mark] <+: lead ++ mark :: rest := ⟨rest, by simp⟩
    have hsub : lead ++ [mark] <+: t :=
      List.prefix_of_prefix_length_le hlead' h (by simpa using hlt)
    exact absurd (hsub.subset (by simp)) hmark
  · exact List.prefix_of_prefix_length_le h hlead hge

/-- A beginning of such a line is not the text of a schedule. -/
theorem fields_ne_of_other {text t : GoString}
    (htext : IsSpace text ∨ IsComment text ∨ IsAssignment text) (ht : t <+: text) (s : Schedule) :
    Text.fields cronSpace t ≠ s.fields := by
  intro heq
  have hfive := s.fields_length
  rw [← heq] at hfive
  have hmark : ∀ b ∈ t, b ≠ 35 ∧ b ≠ 61 := by
    intro b hb
    cases hspace : cronSpace b with
    | true =>
      constructor <;> rintro rfl <;> exact absurd hspace (by decide)
    | false =>
      obtain ⟨f, hf, hbf⟩ := exists_mem_fields hspace hb
      rw [heq] at hf
      obtain ⟨p, hp, rfl⟩ := List.mem_map.mp hf
      obtain ⟨-, hhash, hequals⟩ := (s.formed p hp).1
      exact ⟨fun h => hhash (h ▸ hbf), fun h => hequals (h ▸ hbf)⟩
  rcases htext with hspace | ⟨indent, rest, rfl, hindent, -⟩ |
    ⟨indent, name, gap, value, rfl, hindent, hname, hgap, -⟩
  · have hle := length_fields_le cronSpace ht
    rw [fields_eq_nil_iff.mpr hspace, hfive] at hle
    exact absurd hle (by decide)
  · have hle := length_fields_le cronSpace
      (prefix_before_mark ht fun h => (hmark 35 h).1 rfl)
    rw [fields_eq_nil_iff.mpr hindent, hfive] at hle
    exact absurd hle (by decide)
  · have hlead : t <+: indent ++ (name ++ gap) := by
      have htext : t <+: (indent ++ (name ++ gap)) ++ 61 :: value := by
        simpa [List.append_assoc] using ht
      exact prefix_before_mark htext fun h => (hmark 61 h).2 rfl
    have hle := length_fields_le cronSpace hlead
    rw [fields_space_append hindent, fields_append_space name hgap,
      fields_word hname.1.1 hname.1.letter, hfive, List.length_singleton] at hle
    exact absurd hle (by decide)

/-! ## Lines -/

/-- The record of a line, if there is one, is the one that is wanted. -/
def Fits (r : Option CronRecord) (w : Option (Schedule × GoString × GoString)) : Prop :=
  match w with
  | none => r = none
  | some w => ∃ x, r = some x ∧ x.Reports w

theorem systemLine_fits_iff (l : CronLine SystemEntry) :
    Fits (systemRecord (l.text SystemEntry.text)) (systemWanted l) ↔ SystemLineOk l := by
  cases l with
  | entry e => exact systemRecord_reports_iff e
  | other text h =>
    show systemRecord text = none ↔ Skipped text 6
    exact ite_eq_none_iff

theorem userLine_fits_iff (name : GoString) (l : CronLine UserEntry) :
    Fits (userRecord name (l.text UserEntry.text)) (userWanted name l) ↔ UserLineOk l := by
  cases l with
  | entry e => exact userRecord_reports_iff e name
  | other text h =>
    show userRecord name text = none ↔ Skipped text 5
    exact ite_eq_none_iff

theorem systemRecord_rule {info : GoString} {r : CronRecord} (h : systemRecord info = some r) :
    r.rule <+: info := rule_prefix_of_ite (prefix_splitHead _ _) h

theorem userRecord_rule {name info : GoString} {r : CronRecord}
    (h : userRecord name info = some r) : r.rule <+: info :=
  rule_prefix_of_ite (prefix_splitHead _ _) h

/-! ## Files -/

section Lines

variable {α : Type} {emit : α → Option CronRecord} {want : α → Option (Schedule × GoString × GoString)}

theorem length_filterMap_le {l : List α} (h : ∀ a ∈ l, want a = none → emit a = none) :
    (l.filterMap emit).length ≤ (l.filterMap want).length := by
  induction l with
  | nil => exact le_refl _
  | cons a l ih =>
    obtain ⟨ha, hl⟩ := List.forall_mem_cons.mp h
    have hle := ih hl
    cases hw : want a with
    | none =>
      rw [List.filterMap_cons_none hw, List.filterMap_cons_none (ha hw)]
      exact hle
    | some w =>
      rw [List.filterMap_cons_some hw, List.length_cons]
      cases he : emit a with
      | none =>
        rw [List.filterMap_cons_none he]
        omega
      | some r =>
        rw [List.filterMap_cons_some he, List.length_cons]
        omega

theorem exists_reported {rs : List CronRecord} {ws : List (Schedule × GoString × GoString)}
    (h : List.Forall₂ CronRecord.Reports rs ws) {r : CronRecord} (hr : r ∈ rs) :
    ∃ w, r.Reports w := by
  induction h with
  | nil => cases hr
  | cons hhead _ ih =>
    rcases List.mem_cons.mp hr with rfl | hr
    · exact ⟨_, hhead⟩
    · exact ih hr

/-- Lists of one length are matched line by line. -/
theorem fits_of_forall₂ {l : List α} (hnone : ∀ a ∈ l, want a = none → emit a = none)
    (h : List.Forall₂ CronRecord.Reports (l.filterMap emit) (l.filterMap want)) :
    ∀ a ∈ l, Fits (emit a) (want a) := by
  induction l with
  | nil => exact fun _ ha => absurd ha List.not_mem_nil
  | cons a l ih =>
    obtain ⟨ha, hl⟩ := List.forall_mem_cons.mp hnone
    have hle := length_filterMap_le hl
    cases hw : want a with
    | none =>
      rw [List.filterMap_cons_none hw, List.filterMap_cons_none (ha hw)] at h
      exact List.forall_mem_cons.mpr ⟨by rw [hw]; exact ha hw, ih hl h⟩
    | some w =>
      rw [List.filterMap_cons_some hw] at h
      cases he : emit a with
      | none =>
        rw [List.filterMap_cons_none he] at h
        have hlen := h.length_eq
        rw [List.length_cons] at hlen
        omega
      | some r =>
        rw [List.filterMap_cons_some he, List.forall₂_cons] at h
        refine List.forall_mem_cons.mpr ⟨?_, ih hl h.2⟩
        rw [hw]
        exact ⟨r, he, h.1⟩

theorem forall₂_of_fits {l : List α} (h : ∀ a ∈ l, Fits (emit a) (want a)) :
    List.Forall₂ CronRecord.Reports (l.filterMap emit) (l.filterMap want) := by
  induction l with
  | nil => exact List.Forall₂.nil
  | cons a l ih =>
    obtain ⟨ha, hl⟩ := List.forall_mem_cons.mp h
    cases hw : want a with
    | none =>
      rw [hw] at ha
      rw [List.filterMap_cons_none hw, List.filterMap_cons_none ha]
      exact ih hl
    | some w =>
      rw [hw] at ha
      obtain ⟨r, he, hr⟩ := ha
      rw [List.filterMap_cons_some hw, List.filterMap_cons_some he]
      exact List.Forall₂.cons hr (ih hl)

/-- When a line without an entry never yields the record of an entry, the records are the wanted
ones if and only if every single line gives what is wanted for it. -/
theorem forall₂_filterMap_iff {l : List α}
    (hstray : ∀ a ∈ l, want a = none → ∀ r, emit a = some r → ∀ w, ¬ CronRecord.Reports r w) :
    List.Forall₂ CronRecord.Reports (l.filterMap emit) (l.filterMap want) ↔
      ∀ a ∈ l, Fits (emit a) (want a) := by
  refine ⟨fun h => fits_of_forall₂ (fun a ha hw => ?_) h, forall₂_of_fits⟩
  by_contra hne
  obtain ⟨r, hr⟩ := Option.ne_none_iff_exists'.mp hne
  obtain ⟨w, hrw⟩ := exists_reported h (List.mem_filterMap.mpr ⟨a, ha, hr⟩)
  exact hstray a ha hw r hr w hrw

end Lines

theorem newline_not_mem_other {text : GoString}
    (h : IsSpace text ∨ IsComment text ∨ IsAssignment text) : 10 ∉ text := by
  rcases h with h | ⟨indent, rest, rfl, hindent, hrest⟩ |
    ⟨indent, name, gap, value, rfl, hindent, hname, hgap, hvalue⟩
  · exact h.newline_not_mem
  · have h1 := hindent.newline_not_mem
    simp [h1, hrest]
  · have h1 := hindent.newline_not_mem
    have h2 : 10 ∉ name := fun hmem => (hname.1.2 10 hmem).2 rfl
    have h3 := hgap.newline_not_mem
    simp [h1, h2, h3, hvalue]

theorem newline_not_mem_system (l : CronLine SystemEntry) : 10 ∉ l.text SystemEntry.text := by
  cases l with
  | entry e =>
    have h1 := e.schedule.newline_not_mem
    have h2 : 10 ∉ e.user := fun hmem => (e.formed.1.2 10 hmem).2 rfl
    have h3 := e.formed.2.1.2.newline_not_mem
    have h4 := e.formed.2.2.1
    simp [CronLine.text, SystemEntry.text, h1, h2, h3, h4]
  | other text h => exact newline_not_mem_other h

theorem newline_not_mem_user (l : CronLine UserEntry) : 10 ∉ l.text UserEntry.text := by
  cases l with
  | entry e =>
    have h1 := e.schedule.newline_not_mem
    have h2 := e.formed.1
    simp [CronLine.text, UserEntry.text, h1, h2]
  | other text h => exact newline_not_mem_other h

/-- A loop over the lines of a file sees them one by one; a file without lines has one empty line. -/
theorem filterMap_split_join {ε : Type} {text : ε → GoString} {record : GoString → Option CronRecord}
    (hnil : record [] = none) {lines : List ε} (h : ∀ l ∈ lines, 10 ∉ text l) :
    (split (join (lines.map text) [10]) 10).filterMap record =
      lines.filterMap fun l => record (text l) := by
  rcases lines with _ | ⟨l, lines⟩
  · show [([] : GoString)].filterMap record = []
    rw [List.filterMap_cons_none hnil, List.filterMap_nil]
  · rw [split_join, List.filterMap_map]
    · rfl
    · intro f hf
      obtain ⟨x, hx, rfl⟩ := List.mem_map.mp hf
      exact h x hx
    · simp

/-- A line of one of the files. -/
inductive PlacedLine where
  | system (l : CronLine SystemEntry)
  | user (name : GoString) (l : CronLine UserEntry)

def PlacedLine.record : PlacedLine → Option CronRecord
  | .system l => systemRecord (l.text SystemEntry.text)
  | .user name l => userRecord name (l.text UserEntry.text)

def PlacedLine.wanted : PlacedLine → Option (Schedule × GoString × GoString)
  | .system l => systemWanted l
  | .user name l => userWanted name l

/-- The lines of all files in the order in which they are read. -/
def placedLines (crontab : List (CronLine SystemEntry)) (spool : List (GoString × SpoolFile)) :
    List PlacedLine :=
  crontab.map .system ++ spool.flatMap fun f => f.2.lines.map (.user f.1)

section Files

variable (crontab : List (CronLine SystemEntry)) (spool : List (GoString × SpoolFile))

theorem spoolRecords_item (f : GoString × SpoolFile) :
    spoolRecords (f.1, f.2.item) =
      (f.2.lines.map (PlacedLine.user f.1)).filterMap PlacedLine.record := by
  rw [List.filterMap_map]
  rcases f with ⟨name, _ | _ | lines⟩
  · rfl
  · rfl
  · exact filterMap_split_join rfl fun l _ => newline_not_mem_user l

theorem getCrontab_cronFiles :
    getCrontab (cronFiles crontab spool) =
      (placedLines crontab spool).filterMap PlacedLine.record := by
  rw [placedLines, List.filterMap_append, List.filterMap_flatMap, List.filterMap_map]
  show (split _ 10).filterMap systemRecord ++ (spool.map _).flatMap spoolRecords = _
  rw [filterMap_split_join rfl fun l _ => newline_not_mem_system l, List.flatMap_map]
  congr 1
  exact List.flatMap_congr fun f _ => spoolRecords_item f

theorem cronWanted_placedLines :
    cronWanted crontab spool = (placedLines crontab spool).filterMap PlacedLine.wanted := by
  rw [placedLines, List.filterMap_append, List.filterMap_flatMap, List.filterMap_map, cronWanted]
  congr 1
  exact List.flatMap_congr fun f _ => by rw [List.filterMap_map]; rfl

end Files

theorem PlacedLine.stray {a : PlacedLine} (ha : a.wanted = none) {r : CronRecord}
    (hr : a.record = some r) (w : Schedule × GoString × GoString) : ¬ r.Reports w := by
  rintro ⟨-, -, hfields⟩
  cases a with
  | system l =>
    cases l with
    | entry e => cases ha
    | other text h => exact fields_ne_of_other h (systemRecord_rule hr) w.1 hfields
  | user name l =>
    cases l with
    | entry e => cases ha
    | other text h => exact fields_ne_of_other h (userRecord_rule hr) w.1 hfields

/-- `GetCrontab` reports the entries of the files if and only if each line is one that it can read:
in an entry the blanks are where the parser counts them and the user or the command does not occur
earlier, and the other lines begin with `#` or have few blanks. -/
theorem getCrontab_faithful_iff (crontab : List (CronLine SystemEntry))
    (spool : List (GoString × SpoolFile)) :
    List.Forall₂ CronRecord.Reports (getCrontab (cronFiles crontab spool))
        (cronWanted crontab spool) ↔
      (∀ l ∈ crontab, SystemLineOk l) ∧ ∀ f ∈ spool, ∀ l ∈ f.2.lines, UserLineOk l := by
  rw [getCrontab_cronFiles, cronWanted_placedLines,
    forall₂_filterMap_iff fun a _ ha r hr w => a.stray ha hr w, placedLines, List.forall_mem_append,
    List.forall_mem_map, List.forall_mem_flatMap]
  refine and_congr ?_ ?_
  · exact forall₂_congr fun l _ => systemLine_fits_iff l
  · simp only [List.forall_mem_map]
    exact forall₂_congr fun f _ => forall₂_congr fun l _ => userLine_fits_iff f.1 l

/-- The schedule of the hourly jobs in the crontab of Debian, with tabs between some fields. -/
def hourlySchedule : Schedule where
  parts := [(str "17", [32]), (str "*", [9]), (str "*", [32]), (str "*", [32]), (str "*", [9])]
  five := rfl
  formed := by decide

def hourly : SystemEntry where
  schedule := hourlySchedule
  user := str "root"
  gap := str "    "
  command := str "cd / && run-parts --report /etc/cron.hourly"
  formed := by decide

/-- The sixth of the single blanks stands between the user and the command, and the user is empty. -/
theorem getCrontab_misreads_hourly :
    getCrontab (cronFiles [.entry hourly] []) =
        [⟨str " cd / && run-parts --report /etc/cron.hourly", [], str "17"⟩] ∧
      ¬ List.Forall₂ CronRecord.Reports (getCrontab (cronFiles [.entry hourly] []))
        (cronWanted [.entry hourly] []) := by
  have hrun : getCrontab (cronFiles [.entry hourly] []) =
      [⟨str " cd / && run-parts --report /etc/cron.hourly", [], str "17"⟩] := by
    decide +kernel
  refine ⟨hrun, fun h => ?_⟩
  rw [hrun] at h
  have huser := (List.forall₂_cons.mp h).1.1
  exact absurd huser (by decide)

end YulongHids.Agent
