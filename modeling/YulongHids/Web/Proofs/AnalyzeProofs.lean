import YulongHids.Golang.Proofs.ParseIntProofs
import YulongHids.Web.Analyze

/-!
# Proofs: search queries of the console

A comparison is read with the first operator visited that contains its characters. The documents of
a query do not depend on the order of its entries; the collection is the one of the last entry.
-/

namespace YulongHids.Web

open Golang

/-! ## Comparisons -/

theorem ne_of_not_hit {α : Type*} {p : α → Bool} {b y : α} (hb : ¬ p b = true) (hy : p y = true) :
    b ≠ y := by
  rintro rfl
  exact hb hy

theorem mem_tail_of_hit {α : Type*} {l : List α} {p : α → Bool} {b y : α} (hb : ¬ p b = true)
    (hy : p y = true) (hmem : y ∈ b :: l) : y ∈ l := by
  rcases List.mem_cons.mp hmem with rfl | hmem
  · exact absurd hy hb
  · exact hmem

/-- The first hit of a search is `x` when `x` stands before every other hit. -/
theorem find?_eq_iff_idxOf_le {α : Type*} [BEq α] [LawfulBEq α] {l : List α} {p : α → Bool}
    {a x : α} (hx : x ∈ l) (hpx : p x = true) (h : l.find? p = some a) :
    a = x ↔ ∀ y ∈ l, p y = true → l.idxOf x ≤ l.idxOf y := by
  induction l with
  | nil => exact absurd hx List.not_mem_nil
  | cons b l ih =>
    by_cases hpb : p b = true
    · rw [List.find?_cons_of_pos hpb, Option.some.injEq] at h
      subst h
      constructor
      · rintro rfl y _ _
        rw [List.idxOf_cons_self]
        exact Nat.zero_le _
      · intro hfirst
        have hle := hfirst b List.mem_cons_self hpb
        by_contra hne
        rw [List.idxOf_cons_self, Nat.le_zero, List.idxOf_cons_ne _ hne] at hle
        exact Nat.succ_ne_zero _ hle
    · rw [List.find?_cons_of_neg hpb] at h
      have hxb := ne_of_not_hit hpb hpx
      rw [ih (mem_tail_of_hit hpb hpx hx) h]
      constructor
      · intro hfirst y hy hpy
        rw [List.idxOf_cons_ne _ hxb, List.idxOf_cons_ne _ (ne_of_not_hit hpb hpy)]
        exact Nat.succ_le_succ (hfirst y (mem_tail_of_hit hpb hpy hy) hpy)
      · intro hfirst y hy hpy
        have hle := hfirst y (List.mem_cons_of_mem b hy) hpy
        rw [List.idxOf_cons_ne _ hxb, List.idxOf_cons_ne _ (ne_of_not_hit hpb hpy)] at hle
        exact Nat.le_of_succ_le_succ hle

/-- The characters of the operators. -/
def signs : GoString := str "<>="

theorem digitValue_sign {c : UInt8} (h : c ∈ signs) : digitValue c = none := by
  have hall : (signs.all fun c => digitValue c = none) = true := by decide
  exact of_decide_eq_true (List.all_eq_true.mp hall c h)

theorem parseInt0_sign {c : UInt8} (h : c ∈ signs) (s : GoString) :
    parseInt0 (c :: s) = (0, some .errSyntax) := by
  refine parseInt0_eq_syntax ?_ ?_ ?_ (digitValue_sign h) <;> rintro rfl <;> exact absurd h (by decide)

/-- A number does not begin with a character of an operator. -/
theorem formatInt_not_sign {n : ℤ} {c : UInt8} {s : GoString} (h : formatInt n = c :: s) :
    c ∉ signs := by
  obtain ⟨c', s', h', hc⟩ := formatInt_eq_cons n
  obtain ⟨rfl, rfl⟩ := List.cons.inj (h.symm.trans h')
  intro hmem
  have hnone := digitValue_sign hmem
  rcases hc with rfl | hc
  · exact absurd hmem (by decide)
  · rw [digitValue_digit hc] at hnone
    exact absurd hnone (by simp)

variable {op : GoString} {order : List (GoString × GoString)} {n : ℤ}

/-- A cutset with the characters of `op` cuts `op` off the number. -/
theorem trimLeft_of_subset {cut : GoString} (hcut : cut ⊆ signs) (h : op ⊆ cut) (n : ℤ) :
    trimLeft (op ++ formatInt n) cut = formatInt n := by
  obtain ⟨c, s, hs, -⟩ := formatInt_eq_cons n
  have hc : c ∉ cut := fun hc => formatInt_not_sign hs (hcut hc)
  rw [trimLeft, List.dropWhile_append_of_pos fun c hc => by simpa using h hc, hs,
    List.dropWhile_cons_of_neg (by simpa using hc)]

/-- Any other cutset leaves a character of `op` in front. -/
theorem trimLeft_of_not_subset {cut : GoString} (h : ¬ op ⊆ cut) (s : GoString) :
    ∃ c ∈ op, ∃ t, trimLeft (op ++ s) cut = c :: t := by
  induction op with
  | nil => exact absurd (List.nil_subset cut) h
  | cons c op ih =>
    by_cases hc : c ∈ cut
    · obtain ⟨c', hc', t, ht⟩ := ih fun hop => h (List.cons_subset.mpr ⟨hc, hop⟩)
      refine ⟨c', List.mem_cons_of_mem c hc', t, ?_⟩
      rw [← ht, List.cons_append, trimLeft, List.dropWhile_cons_of_pos (by simpa using hc), trimLeft]
    · exact ⟨c, List.mem_cons_self, op ++ s, List.dropWhile_cons_of_neg (by simpa using hc)⟩

/-- The loop stops at the first operator that contains the characters of `op`. -/
theorem operatorLoop_eq (hop : op ⊆ signs) (horder : ∀ e ∈ order, e.1 ⊆ signs)
    (hn : n.natAbs < 2 ^ 63) {e : GoString × GoString}
    (h : order.find? (fun e => decide (op ⊆ e.1)) = some e) (value : ℤ) :
    operatorLoop (op ++ formatInt n) order value = (n, e.2) := by
  induction order generalizing value with
  | nil => exact absurd h (by simp)
  | cons e' order ih =>
    obtain ⟨common, oper⟩ := e'
    have hcommon : common ⊆ signs := horder (common, oper) List.mem_cons_self
    by_cases hsub : op ⊆ common
    · rw [List.find?_cons_of_pos (by simpa using hsub), Option.some.injEq] at h
      simp only [operatorLoop, trimLeft_of_subset hcommon hsub, parseInt0_formatInt hn, ← h]
    · rw [List.find?_cons_of_neg (by simpa using hsub)] at h
      obtain ⟨c, hc, t, ht⟩ := trimLeft_of_not_subset hsub (formatInt n)
      simp only [operatorLoop, ht, parseInt0_sign (hop hc)]
      exact ih (fun e he => horder e (List.mem_cons_of_mem _ he)) h 0

/-- The operators of the table differ, so the one that is returned tells the one that was found. -/
theorem meantOperator_eq_iff {e : GoString × GoString} (he : e ∈ mongoComparisonOperator)
    (hop : op ∈ mongoComparisonOperator.map Prod.fst) : e.2 = meantOperator op ↔ e.1 = op := by
  have hall : (mongoComparisonOperator.all fun e =>
      (mongoComparisonOperator.map Prod.fst).all fun op =>
        decide (e.2 = meantOperator op ↔ e.1 = op)) = true := by decide
  exact of_decide_eq_true (List.all_eq_true.mp (List.all_eq_true.mp hall e he) op hop)

theorem table_subset_signs {e : GoString × GoString} (he : e ∈ mongoComparisonOperator) :
    e.1 ⊆ signs := by
  have hall : (mongoComparisonOperator.all fun e => decide (e.1 ⊆ signs)) = true := by decide
  exact of_decide_eq_true (List.all_eq_true.mp hall e he)

/-- Whatever the order, a comparison is read as its number. -/
theorem parseIntQuery_eq (horder : order.Perm mongoComparisonOperator) (hop : op ≠ [])
    (hmem : op ∈ mongoComparisonOperator.map Prod.fst) (hn : n.natAbs < 2 ^ 63) :
    ∃ e ∈ mongoComparisonOperator, order.find? (fun e => decide (op ⊆ e.1)) = some e ∧
      parseIntQuery order (op ++ formatInt n) = (n, e.2) := by
  obtain ⟨own, hown, rfl⟩ := List.mem_map.mp hmem
  have hfound : (order.find? fun e => decide (own.1 ⊆ e.1)).isSome = true := List.find?_isSome.mpr
    ⟨own, horder.mem_iff.mpr hown, decide_eq_true (List.Subset.refl own.1)⟩
  obtain ⟨e, he⟩ := Option.isSome_iff_exists.mp hfound
  have hsigns : own.1 ⊆ signs := table_subset_signs hown
  refine ⟨e, horder.mem_iff.mp (List.mem_of_find?_eq_some he), he, ?_⟩
  obtain ⟨c, op, hc⟩ := List.exists_cons_of_ne_nil hop
  have hdirect : parseInt0 (own.1 ++ formatInt n) = (0, some .errSyntax) := by
    rw [hc, List.cons_append, parseInt0_sign (hsigns (hc ▸ List.mem_cons_self))]
  simp only [parseIntQuery, hdirect]
  exact operatorLoop_eq hsigns (fun e he => table_subset_signs (horder.mem_iff.mp he)) hn he 0

/-- A comparison is read with the operator it is written with, for each number, when no other
operator with the same characters is visited before it. -/
theorem parseIntQuery_iff_visitedFirst (horder : order.Perm mongoComparisonOperator)
    (hop : op = [] ∨ op ∈ mongoComparisonOperator.map Prod.fst) (hn : n.natAbs < 2 ^ 63) :
    parseIntQuery order (op ++ formatInt n) = (n, meantOperator op) ↔ VisitedFirst order op := by
  by_cases hnil : op = []
  · subst hnil
    refine iff_of_true ?_ fun h => absurd rfl h
    simp only [List.nil_append, parseIntQuery, parseInt0_formatInt hn]
    rfl
  have hmem := hop.resolve_left hnil
  obtain ⟨e, he, hfind, heq⟩ := parseIntQuery_eq horder hnil hmem hn
  have hkeys : (order.map Prod.fst).find? (fun common => decide (op ⊆ common)) = some e.1 := by
    rw [List.find?_map, Function.comp_def, hfind, Option.map_some]
  have hopkeys : op ∈ order.map Prod.fst := (horder.map Prod.fst).mem_iff.mpr hmem
  rw [heq, Prod.mk.injEq, eq_self, true_and, meantOperator_eq_iff he hmem,
    find?_eq_iff_idxOf_le hopkeys (decide_eq_true (List.Subset.refl op)) hkeys, VisitedFirst]
  simp only [decide_eq_true_eq, ne_eq, hnil, not_false_eq_true, true_imp_iff]

theorem parseIntQuery_iff_visitedFirst_less :
    parseIntQuery mongoComparisonOperator (str "<-10") = (-10, meantOperator (str "<")) ↔
      VisitedFirst mongoComparisonOperator (str "<") := by
  have hop : str "<" ∈ mongoComparisonOperator.map Prod.fst := by decide
  exact parseIntQuery_iff_visitedFirst (n := -10) (List.Perm.refl _) (Or.inr hop) (by decide)

/-- With `>=` visited before `>`, the query `>3` also finds what occurred three times. -/
theorem parseIntQuery_greater_as_least :
    mongoComparisonOperator.reverse.Perm mongoComparisonOperator ∧
      parseIntQuery mongoComparisonOperator.reverse (str ">" ++ formatInt 3) = (3, str "$gte") ∧
      parseIntQuery mongoComparisonOperator.reverse (str ">" ++ formatInt 3) ≠
        (3, meantOperator (str ">")) :=
  ⟨List.reverse_perm _, by decide, by decide⟩

/-- The operators of two characters are read right in every order. -/
theorem parseIntQuery_of_length_two (horder : order.Perm mongoComparisonOperator)
    (hop : op ∈ mongoComparisonOperator.map Prod.fst) (hlen : op.length = 2)
    (hn : n.natAbs < 2 ^ 63) : parseIntQuery order (op ++ formatInt n) = (n, meantOperator op) := by
  have hnil : op ≠ [] := List.ne_nil_of_length_pos (by omega)
  obtain ⟨e, he, hfind, heq⟩ := parseIntQuery_eq horder hnil hop hn
  have hsub : op ⊆ e.1 := by simpa using List.find?_some hfind
  have hall : (mongoComparisonOperator.all fun e => (mongoComparisonOperator.map Prod.fst).all
      fun op => decide (op.length = 2 → op ⊆ e.1 → e.1 = op)) = true := by decide
  have hown : e.1 = op := of_decide_eq_true
    (List.all_eq_true.mp (List.all_eq_true.mp hall e he) op hop) hlen hsub
  rw [heq, (meantOperator_eq_iff he hop).mpr hown]

/-! ## Query documents -/

section Documents

variable {intQuery : GoString → ℤ × GoString} {m m1 m2 : Record}

/-- The fields of the match document that an entry sets. -/
def matchWrites (intQuery : GoString → ℤ × GoString) (entry : (_ : GoString) × GoString) :
    List ((_ : GoString) × Cond) :=
  if entry.1 = str "exist_count" then
    if comparisonText entry.2 then
      [⟨str "server_list", .present⟩,
        ⟨str "$where", .text (str "this.server_list.length" ++ entry.2)⟩]
    else []
  else if entry.1 ∈ notDataPrefixLst then
    [⟨entry.1, if entry.1 = str "count" then
      .compare (intQuery entry.2).2 (intQuery entry.2).1 else .text entry.2⟩]
  else [⟨str "data." ++ entry.1, .text entry.2⟩]

/-- The equations of the `$and` list that come from an entry. -/
def andWrites (entry : (_ : GoString) × GoString) : List (GoString × GoString) :=
  if entry.1 = str "exist_count" ∨ entry.1 ∈ notDataPrefixLst then []
  else [(str "$$d." ++ entry.1, entry.2)]

/-- What one entry of a query does. -/
theorem searchStep_eq (st : SearchDocs) (entry : (_ : GoString) × GoString) :
    searchStep intQuery st entry =
      { matchQuery := (matchWrites intQuery entry).foldl (fun d w => d.insert w.1 w.2) st.matchQuery
        condAndQuery := st.condAndQuery ++ andWrites entry
        dbstring := collectionOf entry.1 } := by
  obtain ⟨skey, svalue⟩ := entry
  unfold searchStep matchWrites andWrites
  by_cases hexist : skey = str "exist_count"
  · by_cases hcmp : comparisonText svalue = true
    · simp only [hexist, hcmp, if_true, true_or, List.foldl_cons, List.foldl_nil, List.append_nil]
    · simp only [hexist, hcmp, if_true, if_false, true_or, List.foldl_nil, List.append_nil,
        Bool.false_eq_true]
  · by_cases hown : skey ∈ notDataPrefixLst
    · simp only [hexist, hown, if_true, if_false, or_true, List.foldl_cons, List.foldl_nil,
        List.append_nil]
    · simp only [hexist, hown, if_false, or_self, List.foldl_cons, List.foldl_nil]

/-- What the loop does with all entries. -/
theorem searchLoop_eq (entries : List ((_ : GoString) × GoString)) (st : SearchDocs) :
    entries.foldl (searchStep intQuery) st =
      { matchQuery := (entries.flatMap (matchWrites intQuery)).foldl
          (fun d w => d.insert w.1 w.2) st.matchQuery
        condAndQuery := st.condAndQuery ++ entries.flatMap andWrites
        dbstring := (entries.getLast?.map fun entry => collectionOf entry.1).getD st.dbstring } := by
  induction entries generalizing st with
  | nil => simp
  | cons entry entries ih =>
    rw [List.foldl_cons, ih, searchStep_eq]
    simp only [List.flatMap_cons, List.foldl_append, List.append_assoc, SearchDocs.mk.injEq,
      true_and]
    cases entries with
    | nil => rfl
    | cons entry' entries => rfl

/-- The key of the entry that sets a field of the match document. -/
def ownerOf (field : GoString) : GoString :=
  if field ∈ [str "server_list", str "$where"] then str "exist_count"
  else if field ∈ notDataPrefixLst then field
  else field.drop 5

theorem data_not_own {l : List GoString} (h : (l.all fun s => !(str "data.").isPrefixOf s) = true)
    (skey : GoString) : str "data." ++ skey ∉ l := by
  intro hmem
  have hprefix := List.all_eq_true.mp h _ hmem
  rw [List.isPrefixOf_iff_prefix.mpr (List.prefix_append _ _)] at hprefix
  exact absurd hprefix (by decide)

theorem ownerOf_matchWrites {entry : (_ : GoString) × GoString} {w : (_ : GoString) × Cond}
    (hw : w ∈ matchWrites intQuery entry) : ownerOf w.1 = entry.1 := by
  unfold matchWrites at hw
  split at hw
  · next hexist =>
    split at hw
    · rcases List.mem_pair.mp hw with rfl | rfl
      · rw [hexist]; rfl
      · rw [hexist]; rfl
    · exact absurd hw List.not_mem_nil
  · split at hw
    · next hown =>
      obtain rfl := List.mem_singleton.mp hw
      have hall : (notDataPrefixLst.all fun k => decide (ownerOf k = k)) = true := by decide
      exact of_decide_eq_true (List.all_eq_true.mp hall _ hown)
    · obtain rfl := List.mem_singleton.mp hw
      rw [ownerOf, if_neg (data_not_own (by decide) _), if_neg (data_not_own (by decide) _)]
      exact List.drop_left' rfl

theorem matchWrites_keys_nodup (entry : (_ : GoString) × GoString) :
    (matchWrites intQuery entry).keys.Nodup := by
  unfold matchWrites
  split
  · split
    · have hne : str "server_list" ∉ [str "$where"] := by decide
      exact List.nodup_cons.mpr ⟨hne, List.nodup_singleton _⟩
    · exact List.nodup_nil
  · split
    · exact List.nodup_singleton _
    · exact List.nodup_singleton _

/-- No field of the match document is set by two entries. -/
theorem matchWrites_nodupKeys (m : Record) :
    (m.entries.flatMap (matchWrites intQuery)).NodupKeys := by
  have hpair := List.nodupKeys_iff_pairwise.mp m.nodupKeys
  rw [List.NodupKeys, List.keys, List.map_flatMap, List.nodup_flatMap]
  refine ⟨fun entry _ => matchWrites_keys_nodup entry, hpair.imp ?_⟩
  intro e1 e2 hne field h1 h2
  obtain ⟨w1, hw1, rfl⟩ := List.mem_map.mp h1
  obtain ⟨w2, hw2, heq⟩ := List.mem_map.mp h2
  have howner := ownerOf_matchWrites hw2
  rw [heq, ownerOf_matchWrites hw1] at howner
  exact hne howner

/-- Fields of different names may be set in any order. -/
theorem foldl_insert_perm {l l' : List ((_ : GoString) × Cond)} (h : l.Perm l') (hl : l.NodupKeys)
    (d : MatchDoc) :
    l.foldl (fun d w => d.insert w.1 w.2) d = l'.foldl (fun d w => d.insert w.1 w.2) d := by
  refine h.foldl_eq' (fun w1 h1 w2 h2 d => ?_) d
  by_cases hk : w1.1 = w2.1
  · obtain ⟨k1, v1⟩ := w1
    obtain ⟨k2, v2⟩ := w2
    obtain rfl : k1 = k2 := hk
    rw [hl.eq_of_mk_mem h1 h2]
  · exact Finmap.insert_insert_of_ne d hk

/-- The match document of a query does not depend on the order of its entries. -/
theorem matchQuery_of_perm (intQuery : GoString → ℤ × GoString)
    (h : m1.entries.Perm m2.entries) :
    (searchParser intQuery m1).1 = (searchParser intQuery m2).1 := by
  simp only [searchParser, searchLoop, searchLoop_eq]
  exact foldl_insert_perm (h.flatMap_right _) (matchWrites_nodupKeys m1) ∅

/-- Two project documents are the same up to the order of their `$and` lists. -/
def SameUpToAnd (p p' : ProjectDoc) : Prop :=
  ∃ l l', l.Perm l' ∧ p = projectQuery l ∧ p' = projectQuery l'

theorem projectQuery_of_perm (intQuery : GoString → ℤ × GoString)
    (h : m1.entries.Perm m2.entries) :
    SameUpToAnd (searchParser intQuery m1).2.1 (searchParser intQuery m2).2.1 := by
  simp only [searchParser, searchLoop, searchLoop_eq, List.nil_append]
  exact ⟨_, _, h.flatMap_right _, rfl, rfl⟩

/-- The collection is the one that the last entry asks for. -/
theorem dbstring_eq (m : Record) : (searchParser intQuery m).2.2 =
    (m.entries.getLast?.map fun entry => collectionOf entry.1).getD [] := by
  rw [searchParser, searchLoop, searchLoop_eq]

theorem isCountQuery_iff : isCountQuery m = true ↔ ∃ k ∈ m.keys, k ∈ statisticsDBKeys := by
  rw [isCountQuery, List.any_eq_true]
  constructor
  · rintro ⟨k, hk, h⟩
    exact ⟨k, AList.mem_keys.mp (AList.lookup_isSome.mp h), hk⟩
  · rintro ⟨k, h, hk⟩
    exact ⟨k, hk, AList.lookup_isSome.mpr (AList.mem_keys.mpr h)⟩

/-- A key of a query is the last one in some order of its entries. -/
theorem exists_order_last (intQuery : GoString → ℤ × GoString) {k : GoString} (hk : k ∈ m.keys) :
    ∃ m' : Record, m'.entries.Perm m.entries ∧ (searchParser intQuery m').2.2 = collectionOf k := by
  obtain ⟨entry, hentry, rfl⟩ := List.mem_map.mp hk
  obtain ⟨l1, l2, hl⟩ := List.append_of_mem hentry
  have hperm : ((l1 ++ l2) ++ [entry]).Perm m.entries := by
    rw [hl, List.append_assoc]
    exact List.Perm.append_left l1 (List.perm_append_comm)
  refine ⟨⟨(l1 ++ l2) ++ [entry], (List.perm_nodupKeys hperm).mpr m.nodupKeys⟩, hperm, ?_⟩
  rw [dbstring_eq, List.getLast?_concat]
  rfl

/-- When all keys ask for one collection, the order does not matter; the empty query names none. -/
theorem dbstring_of_all {m' : Record} {s : GoString} (hperm : m'.entries.Perm m.entries)
    (h : ∀ k ∈ m.keys, collectionOf k = s) :
    (searchParser intQuery m').2.2 = if m.keys = [] then [] else s := by
  rw [dbstring_eq]
  cases hlast : m'.entries.getLast? with
  | none =>
    have hnil : m.entries = [] := by
      rw [List.getLast?_eq_none_iff.mp hlast] at hperm
      exact List.nil_perm.mp hperm
    have hkeys : m.keys = [] := by rw [AList.keys, hnil]; rfl
    rw [if_pos hkeys]
    rfl
  | some entry =>
    have hmem : entry ∈ m.entries := hperm.mem_iff.mp (List.mem_of_getLast? hlast)
    have hkey : entry.1 ∈ m.keys := List.mem_map_of_mem hmem
    rw [if_neg (List.ne_nil_of_mem hkey), ← h entry.1 hkey]
    rfl

/-- In every order of its entries a query is translated to the same documents. It goes to the same
collection in every order, the one that `isCountQuery` tells, exactly when all of its keys or none
of them ask for the statistics. -/
theorem searchParser_alike_iff (intQuery : GoString → ℤ × GoString) (m : Record) :
    (∀ m1 m2 : Record, m1.entries.Perm m.entries → m2.entries.Perm m.entries →
      (searchParser intQuery m1).1 = (searchParser intQuery m2).1 ∧
      SameUpToAnd (searchParser intQuery m1).2.1 (searchParser intQuery m2).2.1 ∧
      (searchParser intQuery m1).2.2 = (searchParser intQuery m2).2.2 ∧
      ((searchParser intQuery m1).2.2 = str "Statistics" ↔ isCountQuery m = true)) ↔
    (∀ k ∈ m.keys, k ∈ statisticsDBKeys) ∨ ∀ k ∈ m.keys, k ∉ statisticsDBKeys := by
  constructor
  · intro h
    by_contra hmix
    obtain ⟨hall, hnone⟩ := not_or.mp hmix
    obtain ⟨k, hk, hinfo⟩ := not_forall₂.mp hall
    obtain ⟨k', hk', hstat⟩ := not_forall₂.mp hnone
    rw [not_not] at hstat
    obtain ⟨m', hperm, hdb⟩ := exists_order_last intQuery hk
    have hcount := (h m' m' hperm hperm).2.2.2.mpr (isCountQuery_iff.mpr ⟨k', hk', hstat⟩)
    rw [hdb, collectionOf, if_neg hinfo] at hcount
    exact absurd hcount (by decide)
  · intro h m1 m2 h1 h2
    have hperm := h1.trans h2.symm
    refine ⟨matchQuery_of_perm intQuery hperm, projectQuery_of_perm intQuery hperm, ?_⟩
    rcases h with hall | hnone
    · have hcoll : ∀ k ∈ m.keys, collectionOf k = str "Statistics" := fun k hk => if_pos (hall k hk)
      rw [dbstring_of_all h1 hcoll, dbstring_of_all h2 hcoll, isCountQuery_iff]
      refine ⟨rfl, ?_⟩
      by_cases hnil : m.keys = []
      · rw [if_pos hnil, hnil]
        exact iff_of_false (by decide) (by simp)
      · obtain ⟨k, hk⟩ := List.exists_mem_of_ne_nil _ hnil
        rw [if_neg hnil]
        exact iff_of_true rfl ⟨k, hk, hall k hk⟩
    · have hcoll : ∀ k ∈ m.keys, collectionOf k = str "Info" := fun k hk => if_neg (hnone k hk)
      rw [dbstring_of_all h1 hcoll, dbstring_of_all h2 hcoll, isCountQuery_iff]
      refine ⟨rfl, iff_of_false ?_ ?_⟩
      · split <;> decide
      · rintro ⟨k, hk, hstat⟩
        exact hnone k hk hstat

/-- The query of the manual for the processes that occurred three times. -/
def countQuery : Record :=
  ((∅ : Record).insert (str "count") (str "3")).insert (str "type") (str "process")

/-- The same query, with `count` visited first. -/
def countFirstQuery : Record :=
  ((∅ : Record).insert (str "type") (str "process")).insert (str "count") (str "3")

/-- The order decides whether the count is looked up in the statistics. -/
theorem searchParser_count_lost :
    countFirstQuery.entries.Perm countQuery.entries ∧ isCountQuery countFirstQuery = true ∧
      (searchParser (parseIntQuery mongoComparisonOperator) countQuery).2.2 = str "Statistics" ∧
      (searchParser (parseIntQuery mongoComparisonOperator) countFirstQuery).2.2 = str "Info" := by
  refine ⟨by decide, by decide, ?_, ?_⟩
  · rw [dbstring_eq]
    decide
  · rw [dbstring_eq]
    decide

end Documents

end YulongHids.Web
