import YulongHids.Server.Warning

/-!
# Proofs: checks and their notices

Of several alerts with one type, host and value only the first is inserted, because the index does not
contain the source.
-/

namespace YulongHids.Server

open Golang Mongo

/-! ## The rules -/

/-- Without a panic the scan is what `rules` computes. -/
theorem rules_eq_scanRules (env : RuleEnv) (c : Check) (db : List RangedRule) :
    c.rules env db = if (c.scanRules env db).crashed then none
      else some ((c.scanRules env db).check, (c.scanRules env db).alerts) := by
  induction db generalizing c with
  | nil => rfl
  | cons r rest ih =>
    rw [Check.rules, Check.scanRules]
    cases hr : c.rule env r with
    | none => rfl
    | some step =>
      obtain ⟨c', alerts⟩ := step
      simp only [ih c']
      cases (c'.scanRules env rest).crashed with
      | false => rfl
      | true => rfl

/-! ## The lists -/

theorem inArray_true_iff (txt : TextLib) (list : List GoString) (value : GoString) :
    inArray txt list value true = true ↔
      ∃ v ∈ list, v ≠ [] ∧ (txt.compile v).any (· value) = true := by
  simp [inArray, List.any_eq_true]

theorem inArray_false_iff (txt : TextLib) (list : List GoString) (value : GoString) :
    inArray txt list value false = true ↔ value ∈ list := by
  simp [inArray, List.any_eq_true]

theorem length_pos_of_inArray {txt : TextLib} {list : List GoString} {value : GoString}
    {regex : Bool} (h : inArray txt list value regex = true) : 1 ≤ list.length := by
  obtain ⟨v, hv, -⟩ := List.any_eq_true.mp h
  exact List.length_pos_of_mem hv

/-- The two filters with the list, the value and the kind of comparison that they choose. -/
theorem whiteFilter_iff {c : Check} {txt : TextLib} {lists : FilterLists} {list : List GoString}
    {keyword : GoString} {regex : Bool} (hfilter : c.filterFor lists = (list, keyword, regex)) :
    c.whiteFilter txt lists = true ↔ inArray txt list (txt.toLower keyword) regex = true := by
  rw [Check.whiteFilter, hfilter, Bool.and_eq_true, decide_eq_true_eq, and_iff_right_iff_imp]
  exact length_pos_of_inArray

theorem blackFilter_iff {c : Check} {txt : TextLib} {lists : FilterLists} :
    (c.blackFilter txt lists).alerts ≠ [] ↔ c.whiteFilter txt lists = true := by
  rcases hfilter : c.filterFor lists with ⟨list, keyword, regex⟩
  rw [whiteFilter_iff hfilter, Check.blackFilter, hfilter]
  dsimp only
  split_ifs with h
  · simp [h.2]
  · simp only [ne_eq, not_true_eq_false, false_iff]
    exact fun hin => h ⟨length_pos_of_inArray hin, hin⟩

/-! ## One call of `warning` -/

variable {newObjectId : ℕ → ObjectId} {c : Notices} {a b : Alert}

theorem one_le_count_ignored : 1 ≤ count c.docs a.ignoredQ ↔ Ignored c a := by
  rw [count, List.one_le_countP_iff, Ignored]

/-- The notice that is inserted for an alert. -/
def noticeOf (id : ObjectId) (a : Alert) : Notice :=
  ⟨id, a.type, a.ip, a.source, a.level, a.info, 0, none⟩

theorem about_noticeOf (id : ObjectId) : a.about (noticeOf id b) = a.same b := rfl

theorem key_eq_noticeOf_iff (id : ObjectId) {n : Notice} :
    n.key = (noticeOf id a).key ↔ a.about n = true ∧ n.status = 0 ∧ n.uptime = none := by
  simp only [Notice.key, noticeOf, Alert.about, Prod.mk.injEq, Bool.and_eq_true, beq_iff_eq]
  tauto

theorem docs_warning (newObjectId : ℕ → ObjectId) (c : Notices) (a : Alert) :
    ((Ignored c a ∨ Occupied c a) ∧ (warning newObjectId c a).docs = c.docs) ∨
      (¬ Ignored c a ∧ ¬ Occupied c a ∧ ∃ id,
        (warning newObjectId c a).docs = c.docs ++ [noticeOf id a]) := by
  rw [warning]
  by_cases hign : Ignored c a
  · left
    rw [if_pos (one_le_count_ignored.mpr hign)]
    exact ⟨Or.inl hign, rfl⟩
  rw [if_neg (fun h => hign (one_le_count_ignored.mp h))]
  cases hins : c.insert (noticeOf (newObjectId c.docs.length) a) with
  | none =>
    left
    obtain ⟨n, hn, hkey⟩ := Indexed.insert_eq_none.mp hins
    refine ⟨Or.inr ⟨n, hn, (key_eq_noticeOf_iff _).mp hkey⟩, ?_⟩
    exact congrArg (fun o => (o.getD c).docs) hins
  | some c' =>
    right
    refine ⟨hign, fun ⟨n, hn, hocc⟩ => ?_, newObjectId c.docs.length, ?_⟩
    · have hnone := Indexed.insert_eq_none.mpr
        ⟨n, hn, (key_eq_noticeOf_iff (newObjectId c.docs.length)).mpr hocc⟩
      rw [hins] at hnone
      simp at hnone
    · have hdocs := Indexed.docs_insert hins
      rw [← hdocs]
      exact congrArg (fun o => (o.getD c).docs) hins

theorem exists_mem_concat {α : Type*} {l : List α} {x : α} {P : α → Prop} :
    (∃ n ∈ l ++ [x], P n) ↔ (∃ n ∈ l, P n) ∨ P x := by
  simp only [List.mem_append, List.mem_singleton, or_and_right, exists_or, exists_eq_left]

theorem same_self (a : Alert) : a.same a = true := by
  simp [Alert.same]

theorem about_congr (h : a.same b = true) (n : Notice) : a.about n = b.about n := by
  simp only [Alert.same, Bool.and_eq_true, beq_iff_eq] at h
  obtain ⟨⟨htype, hip⟩, hinfo⟩ := h
  rw [Alert.about, Alert.about, htype, hip, hinfo]

theorem ignored_congr (h : a.same b = true) : Ignored c a ↔ Ignored c b := by
  simp only [Ignored, Alert.ignoredQ, about_congr h]

theorem occupied_congr (h : a.same b = true) : Occupied c a ↔ Occupied c b := by
  simp only [Occupied, about_congr h]

theorem ignored_warning : Ignored (warning newObjectId c b) a ↔ Ignored c a := by
  rcases docs_warning newObjectId c b with ⟨-, hdocs⟩ | ⟨-, -, id, hdocs⟩
  · rw [Ignored, hdocs, Ignored]
  · rw [Ignored, hdocs, exists_mem_concat, Ignored]
    refine or_iff_left fun h => ?_
    simp [Alert.ignoredQ, noticeOf] at h

theorem occupied_warning (hign : ¬ Ignored c a) :
    Occupied (warning newObjectId c b) a ↔ Occupied c a ∨ a.same b = true := by
  rcases docs_warning newObjectId c b with ⟨hwhy, hdocs⟩ | ⟨-, -, id, hdocs⟩
  · rw [Occupied, hdocs, ← Occupied]
    refine (or_iff_left_of_imp fun hsame => ?_).symm
    rw [← ignored_congr hsame, ← occupied_congr hsame] at hwhy
    exact hwhy.resolve_left hign
  · rw [Occupied, hdocs, exists_mem_concat, ← Occupied, about_noticeOf]
    simp [noticeOf]

/-! ## The first alert of several -/

section First

variable {pre l : List Alert}

theorem firstLike_append_of_mem (h : ∃ b ∈ pre, a.same b = true) :
    FirstLike (pre ++ l) a ↔ FirstLike pre a := by
  obtain ⟨b, hb⟩ := Option.isSome_iff_exists.mp (List.find?_isSome.mpr h)
  simp only [FirstLike, List.find?_append, hb, Option.some_or]

theorem firstLike_concat_of_not_same (h : a.same b = false) :
    FirstLike (pre ++ [b]) a ↔ FirstLike pre a := by
  simp only [FirstLike, List.find?_append, List.find?_singleton, h, Bool.false_eq_true, if_false,
    Option.or_none]

theorem firstLike_concat_of_first (hpre : ¬ ∃ b ∈ pre, a.same b = true) (h : a.same b = true) :
    FirstLike (pre ++ [b]) a ↔ b.source = a.source ∧ b.level = a.level := by
  have hnone : pre.find? a.same = none := by
    rw [List.find?_eq_none]
    exact fun b hb hs => hpre ⟨b, hb, hs⟩
  simp [FirstLike, List.find?_append, hnone, h]

theorem not_firstLike_of_none (hpre : ¬ ∃ b ∈ pre, a.same b = true) : ¬ FirstLike pre a := by
  rintro ⟨b, hb, -⟩
  exact hpre ⟨b, List.mem_of_find?_eq_some hb, List.find?_some hb⟩

end First

/-! ## Sequences of alerts -/

theorem warnings_concat (c : Notices) (pre : List Alert) (b : Alert) :
    warnings newObjectId c (pre ++ [b]) = warning newObjectId (warnings newObjectId c pre) b := by
  simp [warnings]

theorem ignored_warnings (pre : List Alert) :
    Ignored (warnings newObjectId c pre) a ↔ Ignored c a := by
  induction pre using List.reverseRecOn with
  | nil => exact Iff.rfl
  | append_singleton pre b ih => rw [warnings_concat, ignored_warning, ih]

theorem occupied_warnings (hign : ¬ Ignored c a) (pre : List Alert) :
    Occupied (warnings newObjectId c pre) a ↔ Occupied c a ∨ ∃ b ∈ pre, a.same b = true := by
  induction pre using List.reverseRecOn with
  | nil => simp [warnings]
  | append_singleton pre b ih =>
    have hign' : ¬ Ignored (warnings newObjectId c pre) a := by rwa [ignored_warnings]
    rw [warnings_concat, occupied_warning hign', ih, exists_mem_concat, or_assoc]

/-- What the notices show of an alert after others: its own one from before, or that of the first
alert like it if there was room for a notice. -/
theorem noticed_warnings (hign : ¬ Ignored c a) (pre : List Alert) :
    Noticed (warnings newObjectId c pre) a ↔
      Noticed c a ∨ ¬ Occupied c a ∧ FirstLike pre a := by
  induction pre using List.reverseRecOn with
  | nil =>
    refine (or_iff_left fun h => ?_).symm
    exact not_firstLike_of_none (by simp) h.2
  | append_singleton pre b ih =>
    have hign' : ¬ Ignored (warnings newObjectId c pre) a := by rwa [ignored_warnings]
    have hocc := @occupied_warnings newObjectId c a hign pre
    rw [warnings_concat]
    rcases docs_warning newObjectId (warnings newObjectId c pre) b with
      ⟨hwhy, hdocs⟩ | ⟨-, hfree, id, hdocs⟩
    · rw [Noticed, hdocs, ← Noticed, ih]
      cases hsame : a.same b with
      | false => rw [firstLike_concat_of_not_same hsame]
      | true =>
        -- nothing is written, so the value was occupied from before or by an alert in `pre`
        rw [← ignored_congr hsame, ← occupied_congr hsame] at hwhy
        rcases hocc.mp (hwhy.resolve_left hign') with h | h
        · simp [h]
        · rw [firstLike_append_of_mem h]
    · rw [Noticed, hdocs, exists_mem_concat, ← Noticed, ih, about_noticeOf]
      cases hsame : a.same b with
      | false => simp [firstLike_concat_of_not_same hsame]
      | true =>
        rw [← occupied_congr hsame, hocc, not_or] at hfree
        rw [firstLike_concat_of_first hfree.2 hsame]
        have hnone := not_firstLike_of_none hfree.2
        simp [hnone, hfree.1, noticeOf]

/-- Every alert of a run of `Check.Run` leaves its own notice if and only if each one that was not
ignored has one already, or is like the first alert for its type, host and value, and there was no
notice in the way of that one. -/
theorem alerts_noticed_iff (newObjectId : ℕ → ObjectId) (c : Notices) (check : Check)
    (batches : List ScanBatch) :
    EachNoticed newObjectId c (check.scanMonitor batches).alerts ↔
      ∀ a ∈ (check.scanMonitor batches).alerts, ¬ Ignored c a →
        Noticed c a ∨ ¬ Occupied c a ∧ FirstLike (check.scanMonitor batches).alerts a := by
  have hcall : ∀ pre a post, (check.scanMonitor batches).alerts = pre ++ a :: post →
      ¬ Ignored c a → (Noticed (warning newObjectId (warnings newObjectId c pre) a) a ↔
        Noticed c a ∨ ¬ Occupied c a ∧ FirstLike (check.scanMonitor batches).alerts a) := by
    intro pre a post hsplit hign
    have hmem : ∃ b ∈ pre ++ [a], a.same b = true := ⟨a, by simp, same_self a⟩
    have hsplit' : (check.scanMonitor batches).alerts = (pre ++ [a]) ++ post := by simp [hsplit]
    rw [← warnings_concat, noticed_warnings hign, hsplit', firstLike_append_of_mem hmem]
  constructor
  · intro h a ha hign
    obtain ⟨pre, post, hsplit⟩ := List.append_of_mem ha
    refine (hcall pre a post hsplit hign).mp (h pre a post hsplit ?_)
    rwa [ignored_warnings]
  · intro h pre a post hsplit hign
    rw [ignored_warnings] at hign
    have ha : a ∈ (check.scanMonitor batches).alerts := by simp [hsplit]
    exact (hcall pre a post hsplit hign).mpr (h a ha hign)

/-- A rule for processes with the name `nc`. -/
def netcatRule : RangedRule where
  rule := ⟨⟨str "netcat", [], [], 1⟩, str "process", str "all",
    (∅ : GoMap Rule).insert (str "name") ⟨str "string", str "nc"⟩, true⟩
  order := [⟨str "name", ⟨str "string", str "nc"⟩⟩]
  perm := List.Perm.refl _

/-- A process `nc`, which is on the black list too. -/
def netcatBatch : ScanBatch where
  ip := str "10.0.0.1"
  type := str "process"
  system := str "linux"
  uptime := 0
  records := [⟨(∅ : Record).insert (str "name") (str "nc"), plainText, ⟨[], [], [str "nc"], []⟩,
    ⟨[], [], [], []⟩, [], [netcatRule]⟩]

def newCheck : Check := ⟨⟨[], [], [], [], 0⟩, ∅, [], [], [], 0⟩

/-- The alert of the rule comes second and leaves no notice. -/
theorem alerts_share_notice :
    ((newCheck.scanMonitor [netcatBatch]).alerts.map fun a => (a.source, a.info)) =
        [(str "blacklist", str "nc"), (str "netcat", str "nc")] ∧
      ¬ EachNoticed (fun n => [n.toUInt8]) ⟨[], List.nodup_nil⟩
        (newCheck.scanMonitor [netcatBatch]).alerts := by
  refine ⟨by decide, fun h => ?_⟩
  have hlast := h [⟨str "process", str "10.0.0.1", str "blacklist", 0, str "nc",
    str "存在于黑名单列表中"⟩] ⟨str "process", str "10.0.0.1", str "netcat", 1, str "nc", []⟩ []
    (by decide) (by decide)
  exact absurd hlast (by decide)

end YulongHids.Server
