import Mathlib.Data.List.Infix
import Mathlib.Tactic

/-!
# Trimming words from the ends of a text

A character of a text may be written with several letters, as in UTF-8. The functions here cut such
words off the ends of a list of letters. When the words form a code that can be read from both
sides, they cut off exactly the words that were put around a trimmed text.
-/

namespace YulongHids.Text

variable {α : Type*} [DecidableEq α] {words : List (List α)} {w s : List α}

/-- Cut words off the front; `k` letters are still to be dropped. -/
def trimLoop (words : List (List α)) : ℕ → List α → List α
  | _, [] => []
  | k + 1, _ :: s => trimLoop words k s
  | 0, b :: s =>
    match words.find? (·.isPrefixOf (b :: s)) with
    | none => b :: s
    | some w => trimLoop words (w.length - 1) s

def trimLeft (words : List (List α)) (s : List α) : List α := trimLoop words 0 s

def trimRight (words : List (List α)) (s : List α) : List α :=
  (trimLeft (words.map List.reverse) s.reverse).reverse

/-- Cut words off both ends. -/
def trim (words : List (List α)) (s : List α) : List α := trimRight words (trimLeft words s)

/-- No word is empty or begins another one. -/
structure PrefixFree (words : List (List α)) : Prop where
  ne_nil : [] ∉ words
  prefix_eq : ∀ w ∈ words, ∀ w' ∈ words, w <+: w' → w = w'

/-- A code that can be read from both sides, where no word begins inside another one. -/
structure TwoSided (words : List (List α)) : Prop where
  left : PrefixFree words
  right : PrefixFree (words.map List.reverse)
  no_inner_start : ∀ w ∈ words, ∀ w' ∈ words, ∀ b ∈ w.tail, w'.head? ≠ some b

theorem trimLoop_suffix (words : List (List α)) (k : ℕ) (s : List α) : trimLoop words k s <:+ s.drop k := by
  induction s generalizing k with
  | nil => cases k <;> exact List.nil_suffix
  | cons b s ih =>
    cases k with
    | succ k => exact ih k
    | zero =>
      rw [trimLoop]
      split
      · exact List.suffix_refl _
      · next w _ => exact (ih _).trans ((List.drop_suffix _ s).trans (List.suffix_cons b s))

theorem trimLoop_eq_drop (k : ℕ) (s : List α) : trimLoop words k s = trimLoop words 0 (s.drop k) := by
  induction s generalizing k with
  | nil => cases k <;> rfl
  | cons b s ih =>
    cases k with
    | zero => rfl
    | succ k => exact ih k

theorem trimLeft_suffix_self (words : List (List α)) (s : List α) : trimLeft words s <:+ s :=
  trimLoop_suffix words 0 s

theorem trimRight_prefix_self (words : List (List α)) (s : List α) : trimRight words s <+: s := by
  have h := List.reverse_prefix.mpr (trimLeft_suffix_self (words.map List.reverse) s.reverse)
  rwa [List.reverse_reverse] at h

/-- A text is trimmed at the front when no word begins it. -/
theorem trimLeft_eq_self_iff (h : [] ∉ words) :
    trimLeft words s = s ↔ ∀ w ∈ words, ¬ w <+: s := by
  cases s with
  | nil =>
    refine iff_of_true rfl fun w hw hpre => h ?_
    rwa [List.prefix_nil.mp hpre] at hw
  | cons b s =>
    rw [trimLeft, trimLoop]
    cases hfind : words.find? (·.isPrefixOf (b :: s)) with
    | none =>
      refine iff_of_true rfl fun w hw hpre => ?_
      exact List.find?_eq_none.mp hfind w hw (List.isPrefixOf_iff_prefix.mpr hpre)
    | some w =>
      refine iff_of_false ?_ fun hno => ?_
      · intro heq
        have hle := (trimLoop_suffix words (w.length - 1) s).length_le
        have hlen : (trimLoop words (w.length - 1) s).length = (b :: s).length :=
          congrArg List.length heq
        rw [List.length_cons] at hlen
        rw [List.length_drop] at hle
        omega
      · have hpre := List.find?_some hfind
        exact hno w (List.mem_of_find?_eq_some hfind) (List.isPrefixOf_iff_prefix.mp hpre)

/-- One word in front is cut off. -/
theorem trimLeft_word_append (h : PrefixFree words) (hw : w ∈ words) (s : List α) :
    trimLeft words (w ++ s) = trimLeft words s := by
  have hfind : ∃ w', words.find? (·.isPrefixOf (w ++ s)) = some w' :=
    Option.isSome_iff_exists.mp (List.find?_isSome.mpr
      ⟨w, hw, List.isPrefixOf_iff_prefix.mpr (List.prefix_append w s)⟩)
  obtain ⟨w', hw'⟩ := hfind
  have hmem := List.mem_of_find?_eq_some hw'
  have hfound := List.find?_some hw'
  have hpre : w' <+: w ++ s := List.isPrefixOf_iff_prefix.mp hfound
  have heq : w' = w := by
    rcases List.prefix_or_prefix_of_prefix hpre (List.prefix_append w s) with hle | hle
    · exact h.prefix_eq w' hmem w hw hle
    · exact (h.prefix_eq w hw w' hmem hle).symm
  subst heq
  cases w' with
  | nil => exact absurd hw h.ne_nil
  | cons b w =>
    simp only [trimLeft, List.cons_append] at hw' ⊢
    rw [trimLoop, hw']
    show trimLoop words ((b :: w).length - 1) (w ++ s) = _
    rw [List.length_cons, Nat.add_sub_cancel, trimLoop_eq_drop, List.drop_left]

theorem trimLeft_words_append (h : PrefixFree words) {ws : List (List α)} (hws : ws ⊆ words)
    (s : List α) : trimLeft words (ws.flatten ++ s) = trimLeft words s := by
  induction ws with
  | nil => rfl
  | cons w ws ih =>
    obtain ⟨hw, hws⟩ := List.cons_subset.mp hws
    rw [List.flatten_cons, List.append_assoc, trimLeft_word_append h hw, ih hws]

/-- A trimmed text is trimmed at both ends. -/
theorem trim_eq_self_iff : trim words s = s ↔ trimLeft words s = s ∧ trimRight words s = s := by
  constructor
  · intro h
    have hleft : trimLeft words s = s := by
      have hr := (trimRight_prefix_self words (trimLeft words s)).length_le
      have hl := (trimLeft_suffix_self words s).length_le
      refine (trimLeft_suffix_self words s).eq_of_length (le_antisymm hl ?_)
      rwa [show trimRight words (trimLeft words s) = s from h] at hr
    rw [trim, hleft] at h
    exact ⟨hleft, h⟩
  · rintro ⟨hl, hr⟩
    rw [trim, hl, hr]

/-- A text that does not begin with a word still does not when words follow it. -/
theorem trimLeft_append_words (h : TwoSided words) (hs : s ≠ []) (htrim : trimLeft words s = s)
    {ws : List (List α)} (hws : ws ⊆ words) :
    trimLeft words (s ++ ws.flatten) = s ++ ws.flatten := by
  rw [trimLeft_eq_self_iff h.left.ne_nil] at htrim ⊢
  intro w hw hpre
  rcases List.prefix_or_prefix_of_prefix hpre (List.prefix_append s ws.flatten) with hle | hle
  · exact htrim w hw hle
  · obtain ⟨rest, rfl⟩ := hle
    have hrest : rest <+: ws.flatten := (List.prefix_append_right_inj s).mp hpre
    cases rest with
    | nil => exact htrim _ hw (by rw [List.append_nil])
    | cons b rest =>
      -- the word ends inside the words that follow, so one of them begins inside it
      cases ws with
      | nil => exact absurd (List.prefix_nil.mp hrest) (List.cons_ne_nil b rest)
      | cons w' ws =>
        have hw' := hws List.mem_cons_self
        obtain ⟨c, w', rfl⟩ := List.exists_cons_of_ne_nil (l := w') fun hnil =>
          h.left.ne_nil (hnil ▸ hw')
        rw [List.flatten_cons, List.cons_append, List.cons_prefix_cons] at hrest
        obtain ⟨a, s, rfl⟩ := List.exists_cons_of_ne_nil hs
        refine h.no_inner_start _ hw _ hw' b ?_ (by rw [hrest.1]; rfl)
        exact List.mem_append_right s List.mem_cons_self

/-- Words around a trimmed text are cut off. -/
theorem trim_words (h : TwoSided words) (hs : trim words s = s) {ws ws' : List (List α)}
    (hws : ws ⊆ words) (hws' : ws' ⊆ words) :
    trim words (ws.flatten ++ s ++ ws'.flatten) = s := by
  obtain ⟨hl, hr⟩ := trim_eq_self_iff.mp hs
  rw [trim, List.append_assoc, trimLeft_words_append h.left hws]
  by_cases hnil : s = []
  · subst hnil
    have hall := trimLeft_words_append h.left hws' []
    rw [List.append_nil] at hall
    rw [List.nil_append, hall]
    rfl
  · rw [trimLeft_append_words h hnil hl hws', trimRight, List.reverse_append, List.reverse_flatten]
    have hrev : (ws'.map List.reverse).reverse ⊆ words.map List.reverse := fun w hw =>
      List.map_subset _ hws' (List.mem_reverse.mp hw)
    rw [trimLeft_words_append h.right hrev]
    exact hr

end YulongHids.Text
