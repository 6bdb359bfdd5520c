import YulongHids.Golang.Proofs.StringsProofs
import YulongHids.Web.QueryString

/-!
# Proofs: query strings of the console

A query written from a map, in any order and with any blanks around keys and values, is read back as
that map.
-/

namespace YulongHids.Web

open Golang

theorem unicodeSpaces_twoSided : Text.TwoSided unicodeSpaces where
  left := ⟨by decide, by decide +kernel⟩
  right := ⟨by decide, by decide +kernel⟩
  no_inner_start := by
    have hall : (unicodeSpaces.all fun w => unicodeSpaces.all fun w' =>
        w.tail.all fun b => w'.head? != some b) = true := by decide +kernel
    simpa only [List.all_eq_true, bne_iff_ne] using hall

/-- Blanks around a trimmed text are cut off. -/
theorem trimUnicode_blanks {s : GoString} (h : trimUnicode s = s) (w w' : Blanks) :
    trimUnicode (w.text ++ s ++ w'.text) = s :=
  Text.trim_words unicodeSpaces_twoSided h w.spaces w'.spaces

/-- A separator, which is none of the bytes of a space, is not in the blanks. -/
theorem Blanks.not_mem_text (w : Blanks) {b : UInt8}
    (hb : (unicodeSpaces.all fun c => decide (b ∉ c)) = true) : b ∉ w.text := by
  intro hmem
  obtain ⟨c, hc, hbc⟩ := List.mem_flatten.mp hmem
  exact of_decide_eq_true (List.all_eq_true.mp hb c (w.spaces hc)) hbc

theorem splitN2_append_cons {s : GoString} {sep : UInt8} (h : sep ∉ s) (t : GoString) :
    splitN2 (s ++ sep :: t) sep = [s, t] := by
  have hne : ∀ b ∈ s, (b != sep) = true := by
    intro b hb
    rw [bne_iff_ne]
    rintro rfl
    exact h hb
  rw [splitN2, if_pos (List.mem_append_right s List.mem_cons_self),
    List.takeWhile_append_of_pos hne, List.dropWhile_append_of_pos hne,
    List.takeWhile_cons_of_neg (by simp), List.dropWhile_cons_of_neg (by simp), List.append_nil]
  rfl

variable {lib : TextLib} {p : QueryPair} {pairs : List QueryPair} {m : Record}

/-- One pair is read as its entry. -/
theorem splitStep_pair (h : Writable lib p.entry) (resultmap : Record) :
    splitStep lib 58 resultmap p.text = resultmap.insert p.key p.value := by
  have hcolon : 58 ∉ p.beforeKey.text ++ p.key ++ p.afterKey.text := by
    simp only [List.mem_append, not_or]
    exact ⟨⟨p.beforeKey.not_mem_text (by decide), h.key_colon⟩, p.afterKey.not_mem_text (by decide)⟩
  have hkey : trimUnicode p.key = p.key := h.key_trimmed
  have hvalue : trimUnicode p.value = p.value := h.value_trimmed
  have hlower : lib.toLower p.key = p.key := h.key_lower
  simp only [splitStep, QueryPair.text, splitN2_append_cons hcolon]
  rw [trimUnicode_blanks hkey, trimUnicode_blanks hvalue, hlower]

/-- The bar stands between the pairs only. -/
theorem bar_not_mem_pair (h : Writable lib p.entry) : 124 ∉ p.text := by
  simp only [QueryPair.text, List.mem_append, List.mem_cons, not_or]
  refine ⟨⟨⟨p.beforeKey.not_mem_text (by decide), h.key_bar⟩,
    p.afterKey.not_mem_text (by decide)⟩, by decide, ⟨⟨p.beforeValue.not_mem_text (by decide),
    h.value_bar⟩, p.afterValue.not_mem_text (by decide)⟩⟩

theorem split_queryText (h : ∀ p ∈ pairs, Writable lib p.entry) (hne : pairs ≠ []) :
    split (queryText pairs) 124 = pairs.map QueryPair.text := by
  refine split_join ?_ (by simpa using hne)
  intro f hf
  obtain ⟨p, hp, rfl⟩ := List.mem_map.mp hf
  exact bar_not_mem_pair (h p hp)

/-- What the loop makes of the pairs: a key that occurs is looked up among them. -/
theorem lookup_foldl_splitStep (h : ∀ p ∈ pairs, Writable lib p.entry)
    (hnodup : (pairs.map QueryPair.entry).NodupKeys) (resultmap : Record) (k : GoString) :
    ((pairs.map QueryPair.text).foldl (splitStep lib 58) resultmap).lookup k =
      ((pairs.map QueryPair.entry).dlookup k).or (resultmap.lookup k) := by
  induction pairs generalizing resultmap with
  | nil => rfl
  | cons p pairs ih =>
    obtain ⟨hnew, hnodup⟩ := List.nodupKeys_cons.mp hnodup
    rw [List.map_cons, List.foldl_cons, splitStep_pair (h p List.mem_cons_self),
      ih (fun q hq => h q (List.mem_cons_of_mem p hq)) hnodup, List.map_cons]
    by_cases hk : k = p.key
    · subst hk
      have hnone : (pairs.map QueryPair.entry).dlookup p.key = none :=
        List.dlookup_eq_none.mpr hnew
      have hself : (p.entry :: pairs.map QueryPair.entry).dlookup p.key = some p.value :=
        List.dlookup_cons_eq (β := fun _ => GoString) _ p.key p.value
      rw [AList.lookup_insert, hnone, hself]
      rfl
    · have hcons : (p.entry :: pairs.map QueryPair.entry).dlookup k =
          (pairs.map QueryPair.entry).dlookup k := List.dlookup_cons_ne _ p.entry hk
      rw [AList.lookup_insert_ne hk, hcons]

/-- A query written from the entries of a map, in any order and with any blanks, is read as that
map, and has a type if the map has one. -/
theorem splitStrToMap_queryText (hperm : (pairs.map QueryPair.entry).Perm m.entries)
    (hm : ∀ entry ∈ m.entries, Writable lib entry) :
    (∀ k, (splitStrToMap lib (queryText pairs) 124 58).lookup k = m.lookup k) ∧
      (queryString2Map lib (queryText pairs)).2 = (m.lookup (str "type")).isNone := by
  have hpairs : ∀ p ∈ pairs, Writable lib p.entry := fun p hp =>
    hm p.entry (hperm.mem_iff.mp (List.mem_map_of_mem hp))
  have hnodup : (pairs.map QueryPair.entry).NodupKeys :=
    (List.perm_nodupKeys hperm).mpr m.nodupKeys
  have hlookup : ∀ k, (splitStrToMap lib (queryText pairs) 124 58).lookup k = m.lookup k := by
    intro k
    have hk : (pairs.map QueryPair.entry).dlookup k = m.lookup k := List.perm_dlookup k hnodup hperm
    by_cases hnil : pairs = []
    · subst hnil
      rw [← hk]
      rfl
    · rw [splitStrToMap, split_queryText hpairs hnil, lookup_foldl_splitStep hpairs hnodup, hk,
        AList.lookup_empty, Option.or_none]
  refine ⟨hlookup, ?_⟩
  rw [queryString2Map, hlookup]

def noBlanks : Blanks := ⟨[], List.nil_subset _⟩

/-- A search for a path, with a blank before the bar and a wide one behind it. -/
def pathPairs : List QueryPair :=
  [⟨str "type", str "file", noBlanks, noBlanks, noBlanks, ⟨[[32]], by decide⟩⟩,
    ⟨str "path", str "d:\\w\\a.txt", ⟨[[227, 128, 128]], by decide⟩, noBlanks, noBlanks, noBlanks⟩]

def pathQuery : Record :=
  ((∅ : Record).insert (str "path") (str "d:\\w\\a.txt")).insert (str "type") (str "file")

theorem splitStrToMap_queryText_path :
    queryText pathPairs = str "type:file |\u3000path:d:\\w\\a.txt" ∧
      (∀ k, (splitStrToMap plainText (queryText pathPairs) 124 58).lookup k = pathQuery.lookup k) ∧
      (queryString2Map plainText (queryText pathPairs)).2 =
        (pathQuery.lookup (str "type")).isNone := by
  refine ⟨by decide, splitStrToMap_queryText (by decide) ?_⟩
  intro entry hentry
  rcases List.mem_pair.mp hentry with rfl | rfl
  · exact ⟨by decide, by decide, by decide, by decide, by decide, by decide⟩
  · exact ⟨by decide, by decide, by decide, by decide, by decide, by decide⟩

end YulongHids.Web
