import YulongHids.Server.ListMeaning
import YulongHids.Server.Proofs.WarningProofs

/-!
# Proofs: what the entries of the lists mean

The server differs from what is documented in the command of a process, the paths of files and the
case of hashes; the agent looks at the process before on Linux, and takes hashes for expressions, too.
-/

namespace YulongHids.Server

open Golang

variable {txt : TextLib} {lists : FilterLists} {c : Check} {v before : Record}

theorem any_compile_iff {e s : GoString} :
    (txt.compile e).any (· s) = true ↔ Matches txt e s := by
  rw [Matches]
  cases txt.compile e with
  | none => simp
  | some re => simp

theorem inArray_true_iff_matches {list : List GoString} {s : GoString} :
    inArray txt list s true = true ↔ ∃ e ∈ list, e ≠ [] ∧ Matches txt e s := by
  simp only [inArray_true_iff, any_compile_iff]

/-! ## The agent -/

theorem agent_inArray_true_iff {list : List GoString} {s : GoString} :
    Agent.inArray txt list s true = true ↔ ∃ e ∈ list, Matches txt e s := by
  simp only [Agent.inArray, List.any_eq_true, if_true, any_compile_iff]

theorem filtered_iff {list : List GoString} :
    Agent.filtered txt list v = true ↔ ∃ e ∈ list, MatchesProcess txt e v := by
  rw [Agent.filtered, Bool.or_eq_true, agent_inArray_true_iff, agent_inArray_true_iff, ← exists_or]
  simp only [MatchesProcess, and_or_left]

theorem ipFiltered_iff {list : List GoString} {ip : GoString} :
    Agent.ipFiltered txt list ip = true ↔ ip ∈ list := by
  simp [Agent.ipFiltered, Agent.inArray, List.any_eq_true]

theorem isFileWhite_iff {list : List GoString} :
    Agent.isFileWhite txt list v = true ↔ ∃ e ∈ list, MatchesFile txt e v := by
  simp only [Agent.isFileWhite, List.any_eq_true, MatchesFile]
  refine exists_congr fun e => and_congr_right fun _ => ?_
  split_ifs
  · rw [beq_iff_eq]
  · exact any_compile_iff

/-- What the agent does with the path of a file: only the entries that are hashes are more than what
is documented. -/
theorem fileFiltered_iff {list : List GoString} :
    Agent.fileFiltered txt list v = true ↔
      (∃ e ∈ list, Agent.isHash e = true ∧ Matches txt e (txt.toLower (v.get (str "path")))) ∨
        (v.get (str "hash") ≠ [] ∧ txt.toLower (v.get (str "hash")) ∈ list) ∨
        ∃ e ∈ list, MatchesFile txt e v := by
  have hpath : (∃ e ∈ list, Matches txt e (txt.toLower (v.get (str "path")))) →
      (∃ e ∈ list, Agent.isHash e = true ∧ Matches txt e (txt.toLower (v.get (str "path")))) ∨
        ∃ e ∈ list, MatchesFile txt e v := by
    rintro ⟨e, he, hmatch⟩
    by_cases hhash : Agent.isHash e = true
    · exact Or.inl ⟨e, he, hhash, hmatch⟩
    · exact Or.inr ⟨e, he, by rwa [MatchesFile, if_neg hhash]⟩
  rw [Agent.fileFiltered, Bool.or_eq_true, Bool.or_eq_true, agent_inArray_true_iff,
    Bool.and_eq_true, bne_iff_ne, ← Agent.ipFiltered, ipFiltered_iff, isFileWhite_iff]
  constructor
  · rintro ((h | h) | h)
    · exact (hpath h).imp_right Or.inr
    · exact Or.inr (Or.inl h)
    · exact Or.inr (Or.inr h)
  · rintro (⟨e, he, -, hmatch⟩ | h | h)
    · exact Or.inl (Or.inl ⟨e, he, hmatch⟩)
    · exact Or.inl (Or.inr h)
    · exact Or.inr h

theorem agentFilter_process_iff (htype : c.info.type = str "process") :
    agentFilter txt lists c before = true ↔
      ∃ e ∈ lists.process, MatchesProcess txt e
        (if c.info.system = str "windows" then c.v else before) := by
  rw [agentFilter, if_pos htype, Agent.processFiltered, filtered_iff]

theorem agentFilter_connection_iff (htype : c.info.type = str "connection") :
    agentFilter txt lists c before = true ↔ cutPort (c.v.get (str "remote")) ∈ lists.ip := by
  have hne : str "connection" ≠ str "process" := by decide
  rw [agentFilter, htype, if_neg hne, if_pos rfl, ipFiltered_iff]

theorem agentFilter_file (htype : c.info.type = str "file") :
    agentFilter txt lists c before = Agent.fileFiltered txt lists.file c.v := by
  have hprocess : str "file" ≠ str "process" := by decide
  have hconnection : str "file" ≠ str "connection" := by decide
  rw [agentFilter, htype, if_neg hprocess, if_neg hconnection]

/-! ## The server -/

/-- `WhiteFilter` by the type of the record. -/
theorem whiteFilter_process (htype : c.info.type = str "process") :
    c.whiteFilter txt lists = true ↔
      ∃ e ∈ lists.process, e ≠ [] ∧ Matches txt e (txt.toLower (c.v.get (str "name"))) := by
  have hfilter : c.filterFor lists = (lists.process, c.v.get (str "name"), true) := by
    simp [Check.filterFor, htype]
  rw [whiteFilter_iff hfilter, inArray_true_iff_matches]

theorem whiteFilter_connection (htype : c.info.type = str "connection") :
    c.whiteFilter txt lists = true ↔
      txt.toLower (cutPort (c.v.get (str "remote"))) ∈ lists.ip := by
  have hfilter : c.filterFor lists = (lists.ip, cutPort (c.v.get (str "remote")), false) := by
    simp [Check.filterFor, htype]
  rw [whiteFilter_iff hfilter, inArray_false_iff]

theorem whiteFilter_loginlog (htype : c.info.type = str "loginlog") :
    c.whiteFilter txt lists = true ↔ txt.toLower (c.v.get (str "remote")) ∈ lists.ip := by
  have hfilter : c.filterFor lists = (lists.ip, c.v.get (str "remote"), false) := by
    simp [Check.filterFor, htype]
  rw [whiteFilter_iff hfilter, inArray_false_iff]

theorem whiteFilter_file (htype : c.info.type = str "file") :
    c.whiteFilter txt lists = true ↔ txt.toLower (c.v.get (str "hash")) ∈ lists.file := by
  have hfilter : c.filterFor lists = (lists.file, c.v.get (str "hash"), false) := by
    simp [Check.filterFor, htype]
  rw [whiteFilter_iff hfilter, inArray_false_iff]

theorem whiteFilter_crontab (htype : c.info.type = str "crontab") :
    c.whiteFilter txt lists = true ↔
      ∃ e ∈ lists.file, e ≠ [] ∧ Matches txt e (txt.toLower (c.v.get (str "command"))) := by
  have hfilter : c.filterFor lists = (lists.file, c.v.get (str "command"), true) := by
    simp [Check.filterFor, htype]
  rw [whiteFilter_iff hfilter, inArray_true_iff_matches]

/-- Records of the other kinds are compared with the list for them. -/
theorem whiteFilter_other
    (htype : c.info.type ∉ ["process", "connection", "loginlog", "file", "crontab"].map str) :
    c.whiteFilter txt lists = true ↔ c.whiteFilter txt lists.onlyOther = true := by
  simp only [List.map_cons, List.map_nil, List.mem_cons, List.not_mem_nil, or_false, not_or] at htype
  obtain ⟨hp, hc, hl, hf, ht⟩ := htype
  have hfilter : ∀ lists : FilterLists,
      c.filterFor lists = (lists.other, c.v.get (str "name"), true) := fun lists => by
    simp [Check.filterFor, hp, hc, hl, hf, ht]
  rw [whiteFilter_iff (hfilter lists), whiteFilter_iff (hfilter lists.onlyOther)]
  rfl

/-- A file with a listed lower-case hash of the right form is on the list. -/
theorem matchesFile_of_hash (hlower : ∀ s, txt.toLower (txt.toLower s) = txt.toLower s)
    (hhash : Agent.isHash (txt.toLower (v.get (str "hash"))) = true) :
    MatchesFile txt (txt.toLower (v.get (str "hash"))) v := by
  rw [MatchesFile, if_pos hhash, hlower]

/-- The two verdicts of the server, and the one of the agent, from the documented one. -/
theorem asDocumented_of_type
    (htype : c.info.type ∈ ["process", "connection", "loginlog", "file"].map str) :
    AsDocumented txt lists before c ↔
      (c.whiteFilter txt lists = true ↔ Documented txt lists c.info.type c.v) ∧
        (c.info.type ∈ ["process", "connection", "file"].map str →
          (Documented txt lists c.info.type c.v ↔ agentFilter txt lists c before = true)) := by
  have hfirst : (c.whiteFilter txt lists = true ↔ Documented txt lists c.info.type c.v ∨
      c.info.type ∉ ["process", "connection", "loginlog", "file"].map str ∧
        c.whiteFilter txt lists.onlyOther = true) ↔
      (c.whiteFilter txt lists = true ↔ Documented txt lists c.info.type c.v) := by
    simp only [htype, not_true_eq_false, false_and, or_false]
  rw [AsDocumented, hfirst]
  constructor
  · exact fun h => ⟨h.1, fun hagent => h.1.symm.trans (h.2.2 hagent)⟩
  · exact fun h => ⟨h.1, blackFilter_iff, fun hagent => h.1.trans (h.2 hagent)⟩

/-- For the other kinds of records nothing is documented but the list for them. -/
theorem asDocumented_of_not_type
    (htype : c.info.type ∉ ["process", "connection", "loginlog", "file"].map str) :
    AsDocumented txt lists before c ↔
      (c.whiteFilter txt lists = true ↔ c.whiteFilter txt lists.onlyOther = true) := by
  have hdoc : ¬ Documented txt lists c.info.type c.v := by
    simp only [List.map_cons, List.map_nil, List.mem_cons, List.not_mem_nil, or_false, not_or]
      at htype
    simp [Documented, htype]
  have hagent : c.info.type ∉ ["process", "connection", "file"].map str := fun h =>
    htype (by simp only [List.map_cons, List.map_nil, List.mem_cons] at h ⊢; tauto)
  rw [AsDocumented]
  constructor
  · rintro ⟨hwhite, -⟩
    simpa only [hdoc, htype, not_false_eq_true, true_and, false_or] using hwhite
  · refine fun hwhite => ⟨?_, blackFilter_iff, fun h => absurd h hagent⟩
    simpa only [hdoc, htype, not_false_eq_true, true_and, false_or] using hwhite

/-- The conditions about the other types are void. -/
theorem ne_type {a b : String} (ha : c.info.type = str a) (hab : a ≠ b) : c.info.type ≠ str b := by
  rw [ha, Ne, str_inj]
  exact hab

section Types

variable {lists : FilterLists}

theorem process_agree_iff (hp : c.info.type = str "process") :
    AsDocumented txt lists before c ↔ ChoicesAgree txt lists before c := by
  have hdoc : Documented txt lists c.info.type c.v ↔
      ∃ e ∈ lists.process, MatchesProcess txt e c.v := by
    simp [Documented, hp]
  have hagent : c.info.type ∈ ["process", "connection", "file"].map str := by simp [hp]
  rw [asDocumented_of_type (by simp [hp]), whiteFilter_process hp, hdoc,
    agentFilter_process_iff hp]
  constructor
  · rintro ⟨hwhite, hbefore⟩
    exact {
      process := fun _ => hwhite.mpr
      processBefore := fun _ hsystem => by simpa [hsystem] using (hbefore hagent).symm
      connection := fun h' => absurd h' (ne_type hp (by decide))
      loginlog := fun h' => absurd h' (ne_type hp (by decide))
      file := fun h' => absurd h' (ne_type hp (by decide))
      hash := fun h' => absurd h' (ne_type hp (by decide))
      path := fun h' => absurd h' (ne_type hp (by decide))
      crontab := fun h' => absurd h' (ne_type hp (by decide)) }
  · intro h
    refine ⟨⟨?_, h.process hp⟩, fun _ => ?_⟩
    · rintro ⟨e, he, -, hmatch⟩
      exact ⟨e, he, Or.inl hmatch⟩
    · by_cases hsystem : c.info.system = str "windows"
      · rw [if_pos hsystem]
      · rw [if_neg hsystem]
        exact (h.processBefore hp hsystem).symm

theorem connection_agree_iff (hc : c.info.type = str "connection") :
    AsDocumented txt lists before c ↔ ChoicesAgree txt lists before c := by
  have hdoc : Documented txt lists c.info.type c.v ↔
      cutPort (c.v.get (str "remote")) ∈ lists.ip := by
    simp [Documented, hc]
  rw [asDocumented_of_type (by simp [hc]), whiteFilter_connection hc, hdoc,
    agentFilter_connection_iff hc]
  constructor
  · rintro ⟨hwhite, -⟩
    exact {
      process := fun h' => absurd h' (ne_type hc (by decide))
      processBefore := fun h' => absurd h' (ne_type hc (by decide))
      connection := fun _ => hwhite
      loginlog := fun h' => absurd h' (ne_type hc (by decide))
      file := fun h' => absurd h' (ne_type hc (by decide))
      hash := fun h' => absurd h' (ne_type hc (by decide))
      path := fun h' => absurd h' (ne_type hc (by decide))
      crontab := fun h' => absurd h' (ne_type hc (by decide)) }
  · exact fun h => ⟨h.connection hc, fun _ => Iff.rfl⟩

theorem loginlog_agree_iff (hl : c.info.type = str "loginlog") :
    AsDocumented txt lists before c ↔ ChoicesAgree txt lists before c := by
  have hdoc : Documented txt lists c.info.type c.v ↔ c.v.get (str "remote") ∈ lists.ip := by
    simp [Documented, hl]
  have hagent : c.info.type ∉ ["process", "connection", "file"].map str := by
    rw [hl]
    decide
  rw [asDocumented_of_type (by simp [hl]), whiteFilter_loginlog hl, hdoc]
  constructor
  · rintro ⟨hwhite, -⟩
    exact {
      process := fun h' => absurd h' (ne_type hl (by decide))
      processBefore := fun h' => absurd h' (ne_type hl (by decide))
      connection := fun h' => absurd h' (ne_type hl (by decide))
      loginlog := fun _ => hwhite
      file := fun h' => absurd h' (ne_type hl (by decide))
      hash := fun h' => absurd h' (ne_type hl (by decide))
      path := fun h' => absurd h' (ne_type hl (by decide))
      crontab := fun h' => absurd h' (ne_type hl (by decide)) }
  · exact fun h => ⟨h.loginlog hl, fun h' => absurd h' hagent⟩

theorem file_agree_iff (hlower : ∀ s, txt.toLower (txt.toLower s) = txt.toLower s)
    (hf : c.info.type = str "file") :
    AsDocumented txt lists before c ↔ ChoicesAgree txt lists before c := by
  have hdoc : Documented txt lists c.info.type c.v ↔
      ∃ e ∈ lists.file, MatchesFile txt e c.v := by
    simp [Documented, hf]
  have hagent : c.info.type ∈ ["process", "connection", "file"].map str := by simp [hf]
  rw [asDocumented_of_type (by simp [hf]), whiteFilter_file hf, hdoc, agentFilter_file hf,
    fileFiltered_iff]
  constructor
  · rintro ⟨hwhite, hfiltered⟩
    exact {
      process := fun h' => absurd h' (ne_type hf (by decide))
      processBefore := fun h' => absurd h' (ne_type hf (by decide))
      connection := fun h' => absurd h' (ne_type hf (by decide))
      loginlog := fun h' => absurd h' (ne_type hf (by decide))
      file := fun _ => hwhite.mpr
      hash := fun _ hmem => Or.inr (hwhite.mp hmem)
      path := fun _ hpath => (hfiltered hagent).mpr (Or.inl hpath)
      crontab := fun h' => absurd h' (ne_type hf (by decide)) }
  · intro h
    have hwhite : txt.toLower (c.v.get (str "hash")) ∈ lists.file →
        ∃ e ∈ lists.file, MatchesFile txt e c.v := by
      intro hmem
      rcases h.hash hf hmem with hhash | hlisted
      · exact ⟨_, hmem, matchesFile_of_hash hlower hhash⟩
      · exact hlisted
    refine ⟨⟨hwhite, h.file hf⟩, fun _ => ⟨fun hlisted => Or.inr (Or.inr hlisted), ?_⟩⟩
    rintro (hpath | ⟨-, hmem⟩ | hlisted)
    · exact h.path hf hpath
    · exact hwhite hmem
    · exact hlisted

theorem crontab_agree_iff (ht : c.info.type = str "crontab") :
    AsDocumented txt lists before c ↔ ChoicesAgree txt lists before c := by
  rw [asDocumented_of_not_type (by simp [ht]), whiteFilter_crontab ht, whiteFilter_crontab ht]
  constructor
  · intro h
    refine {
      process := fun h' => absurd h' (ne_type ht (by decide))
      processBefore := fun h' => absurd h' (ne_type ht (by decide))
      connection := fun h' => absurd h' (ne_type ht (by decide))
      loginlog := fun h' => absurd h' (ne_type ht (by decide))
      file := fun h' => absurd h' (ne_type ht (by decide))
      hash := fun h' => absurd h' (ne_type ht (by decide))
      path := fun h' => absurd h' (ne_type ht (by decide))
      crontab := fun _ e he hne hmatch => ?_ }
    obtain ⟨e', he', -⟩ := h.mp ⟨e, he, hne, hmatch⟩
    cases he'
  · intro h
    refine ⟨?_, ?_⟩
    · rintro ⟨e, he, hne, hmatch⟩
      exact absurd hmatch (h.crontab ht e he hne)
    · rintro ⟨e, he, -⟩
      cases he

end Types

/-- The filters of the server mean what is documented, and what those of the agent mean, exactly
where their choices do not matter. -/
theorem asDocumented_iff (txt : TextLib)
    (hlower : ∀ s, txt.toLower (txt.toLower s) = txt.toLower s) (lists : FilterLists)
    (before : Record) (c : Check) :
    AsDocumented txt lists before c ↔ ChoicesAgree txt lists before c := by
  by_cases hp : c.info.type = str "process"
  · exact process_agree_iff hp
  by_cases hc : c.info.type = str "connection"
  · exact connection_agree_iff hc
  by_cases hl : c.info.type = str "loginlog"
  · exact loginlog_agree_iff hl
  by_cases hf : c.info.type = str "file"
  · exact file_agree_iff hlower hf
  by_cases ht : c.info.type = str "crontab"
  · exact crontab_agree_iff ht
  rw [asDocumented_of_not_type (by simp [hp, hc, hl, hf])]
  refine iff_of_true (whiteFilter_other (by simp [hp, hc, hl, hf, ht])) ?_
  exact ⟨fun h' => absurd h' hp, fun h' => absurd h' hp, fun h' => absurd h' hc,
    fun h' => absurd h' hl, fun h' => absurd h' hf, fun h' => absurd h' hf,
    fun h' => absurd h' hf, fun h' => absurd h' ht⟩

/-! ## Instances -/

theorem lowerByte_lowerByte (b : UInt8) : lowerByte (lowerByte b) = lowerByte b := by
  by_cases hb : 65 ≤ b ∧ b ≤ 90
  · have hlow : lowerByte b = b + 32 := if_pos hb
    have hnot : ¬ (65 ≤ b + 32 ∧ b + 32 ≤ 90) := by
      simp only [UInt8.le_iff_toNat_le, UInt8.toNat_add, UInt8.reduceToNat] at hb ⊢
      omega
    rw [hlow, lowerByte, if_neg hnot]
  · have hlow : lowerByte b = b := if_neg hb
    rw [hlow, hlow]

theorem plainText_lower (s : GoString) :
    plainText.toLower (plainText.toLower s) = plainText.toLower s := by
  simp [plainText, Function.comp_def, lowerByte_lowerByte]

/-- A file in a directory that the white list names by its path. -/
def tempFile : Check :=
  ⟨⟨[], str "file", str "linux", [], 0⟩,
    (AList.insert (str "path") (str "/tmp/a.log") ∅).insert (str "hash")
      (str "0cc175b9c0f1b6a831c399e269772661"), [], [], [], 0⟩

def tempList : FilterLists := ⟨[str "/tmp/"], [], [str "bash"], []⟩

/-- A process that is listed by its name, after another one of the name. -/
theorem asDocumented_process :
    AsDocumented plainText tempList (AList.insert (str "name") (str "BASH") ∅)
      ⟨⟨[], str "process", str "linux", [], 0⟩, AList.insert (str "name") (str "Bash") ∅, [], [], [],
        0⟩ := by
  refine (asDocumented_iff plainText plainText_lower tempList _ _).mpr ?_
  have hmatch : ∀ v : Record, plainText.toLower (v.get (str "name")) = str "bash" →
      ∃ e ∈ tempList.process, MatchesProcess plainText e v := by
    intro v hv
    exact ⟨str "bash", List.mem_cons_self, Or.inl ⟨_, rfl, by rw [hv]; decide⟩⟩
  refine ⟨fun _ _ => ⟨str "bash", List.mem_cons_self, by decide, _, rfl, by decide⟩,
    fun _ _ => iff_of_true (hmatch _ (by decide)) (hmatch _ (by decide)), ?_, ?_, ?_, ?_, ?_, ?_⟩
  all_goals exact fun h => absurd h (by decide)

/-- The file is listed, and the server does not find it. -/
theorem path_not_found :
    ¬ ∀ (txt : TextLib), (∀ s, txt.toLower (txt.toLower s) = txt.toLower s) →
      ∀ (lists : FilterLists) (before : Record) (c : Check), AsDocumented txt lists before c := by
  intro hall
  have hfile := (hall plainText plainText_lower tempList ∅ tempFile).1.mpr
    (Or.inl (Or.inr (Or.inr (Or.inr ⟨rfl, str "/tmp/", List.mem_cons_self, ?_⟩))))
  · exact absurd hfile (by decide)
  · rw [MatchesFile, if_neg (by decide)]
    exact ⟨_, rfl, by decide⟩

end YulongHids.Server
