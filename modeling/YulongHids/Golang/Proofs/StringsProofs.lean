import Mathlib.Data.List.TakeWhile
import YulongHids.Golang.Strings

/-!
# Proofs: Go strings

What the developments need of `strings.Split`, `strings.Join`, `sort.Strings` and `strconv`.
-/

namespace YulongHids.Golang

/-- The first field of a string is what stands before the first separator. -/
theorem split_headD (s : GoString) (sep : UInt8) :
    (split s sep).headD [] = s.takeWhile (· != sep) := by
  induction s with
  | nil => rfl
  | cons b s ih =>
    obtain ⟨f, fs, hsplit⟩ := List.exists_cons_of_ne_nil (List.splitOn_ne_nil sep s)
    simp only [split, hsplit, List.headD_cons] at ih
    simp only [split, List.splitOn_cons_eq_if_modifyHead, hsplit]
    by_cases hb : b = sep
    · simp [hb]
    · simp [hb, ih]

theorem split_eq_singleton {s : GoString} {sep : UInt8} (h : sep ∉ s) : split s sep = [s] :=
  List.splitOn_eq_singleton h

/-- Splitting at a separator that is seen. -/
theorem split_append_cons (s t : GoString) (sep : UInt8) :
    split (s ++ sep :: t) sep = split s sep ++ split t sep :=
  List.splitOn_append_cons_self s t

theorem length_split (s : GoString) (sep : UInt8) :
    (split s sep).length = s.count sep + 1 := by
  induction s with
  | nil => rfl
  | cons b s ih =>
    simp only [split] at ih
    rw [split, List.splitOn_cons_eq_if_modifyHead]
    by_cases hb : b = sep
    · subst hb
      simp [ih]
    · simp [hb, ih]

theorem not_mem_of_mem_split {s f : GoString} {sep : UInt8} (h : f ∈ split s sep) : sep ∉ f := by
  induction s generalizing f with
  | nil =>
    rw [split, List.splitOn_nil, List.mem_singleton] at h
    simp [h]
  | cons b s ih =>
    obtain ⟨g, gs, hsplit⟩ := List.exists_cons_of_ne_nil (List.splitOn_ne_nil sep s)
    simp only [split, hsplit, List.mem_cons] at ih
    simp only [split, List.splitOn_cons_eq_if_modifyHead, hsplit] at h
    by_cases hb : b = sep
    · simp only [hb, beq_self_eq_true, if_true, List.mem_cons] at h
      rcases h with rfl | h
      · simp
      · exact ih h
    · simp only [beq_iff_eq, hb, if_false, List.modifyHead_cons, List.mem_cons] at h
      rcases h with rfl | h
      · rw [List.mem_cons, not_or]
        exact ⟨fun h => hb h.symm, ih (Or.inl rfl)⟩
      · exact ih (Or.inr h)

/-- Splitting what was joined with a separator that occurs in none of the fields. -/
theorem split_join {l : List GoString} {sep : UInt8} (h : ∀ f ∈ l, sep ∉ f) (hl : l ≠ []) :
    split (join l [sep]) sep = l :=
  List.splitOn_intercalate sep h hl

/-! ## `SplitN` -/

theorem splitN_append_cons {f : GoString} {sep : UInt8} (h : sep ∉ f) (s : GoString) (n : ℕ) :
    splitN (f ++ sep :: s) sep (n + 2) = f :: splitN s sep (n + 1) := by
  have hne : ∀ b ∈ f, (b != sep) = true := by
    intro b hb
    rw [bne_iff_ne]
    rintro rfl
    exact h hb
  rw [splitN, if_pos (by simp), List.takeWhile_append_of_pos hne, List.dropWhile_append_of_pos hne]
  simp

theorem getD_length_append {α : Type*} (l : List α) (a : α) (m : List α) (d : α) :
    (l ++ a :: m).getD l.length d = a := by
  rw [List.getD_eq_getElem?_getD, List.getElem?_append_right (le_refl _), Nat.sub_self]
  rfl

/-- Fields that are each ended by the separator. -/
def ended (sep : UInt8) (fs : List GoString) : GoString := fs.flatMap fun f => f ++ [sep]

theorem splitN_ended {fs : List GoString} {sep : UInt8} (h : ∀ f ∈ fs, sep ∉ f) (s : GoString) :
    splitN (ended sep fs ++ s) sep (fs.length + 1) = fs ++ [s] := by
  induction fs with
  | nil => rfl
  | cons f fs ih =>
    obtain ⟨hf, hfs⟩ := List.forall_mem_cons.mp h
    have hcons : ended sep (f :: fs) ++ s = f ++ sep :: (ended sep fs ++ s) := by simp [ended]
    rw [hcons, List.length_cons, splitN_append_cons hf, ih hfs, List.cons_append]

theorem count_ended {fs : List GoString} {sep : UInt8} (h : ∀ f ∈ fs, sep ∉ f) :
    (ended sep fs).count sep = fs.length := by
  induction fs with
  | nil => rfl
  | cons f fs ih =>
    obtain ⟨hf, hfs⟩ := List.forall_mem_cons.mp h
    have hcons : ended sep (f :: fs) = f ++ sep :: ended sep fs := by simp [ended]
    rw [hcons, List.count_append, List.count_eq_zero.mpr hf, List.count_cons_self, ih hfs,
      List.length_cons, Nat.zero_add]

/-- A string in which the separator occurs `n` times begins with `n` fields. -/
theorem exists_ended {s : GoString} {sep : UInt8} {n : ℕ} (h : n ≤ s.count sep) :
    ∃ fs t, (∀ f ∈ fs, sep ∉ f) ∧ fs.length = n ∧ s = ended sep fs ++ t := by
  induction n generalizing s with
  | zero => exact ⟨[], s, by simp, rfl, rfl⟩
  | succ n ih =>
    have hmem : sep ∈ s := List.count_pos_iff.mp (by omega)
    obtain ⟨f, t, rfl, hf⟩ := List.eq_append_cons_of_mem hmem
    have hcount : n ≤ t.count sep := by
      rw [List.count_append, List.count_cons_self, List.count_eq_zero.mpr hf] at h
      omega
    obtain ⟨fs, u, hfs, hlen, rfl⟩ := ih hcount
    refine ⟨f :: fs, u, List.forall_mem_cons.mpr ⟨hf, hfs⟩, by rw [List.length_cons, hlen], ?_⟩
    simp [ended]

theorem ended_concat (sep : UInt8) (fs : List GoString) (f : GoString) :
    ended sep (fs ++ [f]) = ended sep fs ++ (f ++ [sep]) := by
  rw [ended, List.flatMap_append, List.flatMap_singleton, ended]

/-- A string is made of `n` ended fields if the separator occurs `n` times and stands at its end. -/
theorem exists_eq_ended_iff {s : GoString} {sep : UInt8} {n : ℕ} :
    (∃ fs, (∀ f ∈ fs, sep ∉ f) ∧ fs.length = n + 1 ∧ s = ended sep fs) ↔
      s.count sep = n + 1 ∧ s.getLast? = some sep := by
  constructor
  · rintro ⟨fs, hfs, hlen, rfl⟩
    refine ⟨by rw [count_ended hfs, hlen], ?_⟩
    rcases List.eq_nil_or_concat' fs with rfl | ⟨init, f, rfl⟩
    · cases hlen
    · rw [ended_concat, ← List.append_assoc, List.getLast?_concat]
  · rintro ⟨hcount, hlast⟩
    obtain ⟨fs, t, hfs, hlen, rfl⟩ := exists_ended (le_of_eq hcount.symm)
    have ht : sep ∉ t := by
      rw [List.count_append, count_ended hfs] at hcount
      exact List.count_eq_zero.mp (by omega)
    rcases List.eq_nil_or_concat' t with rfl | ⟨init, b, rfl⟩
    · exact ⟨fs, hfs, hlen, List.append_nil _⟩
    · rw [← List.append_assoc, List.getLast?_concat, Option.some.injEq] at hlast
      exact absurd (by simp [hlast]) ht

/-! ## What stands before a separator -/

theorem prefix_splitHead (sep s : GoString) : splitHead sep s <+: s := by
  induction s with
  | nil => exact List.prefix_refl []
  | cons b s ih =>
    rw [splitHead]
    split
    · exact List.nil_prefix
    · exact (List.cons_prefix_cons.mpr ⟨rfl, ih⟩)

/-- It ends at the first occurrence of the separator. -/
theorem splitHead_append_prefix {sep s t : GoString} (h : t ++ sep <+: s) (hsep : sep ≠ []) :
    splitHead sep s ++ sep <+: s ∧ (splitHead sep s).length ≤ t.length := by
  induction s generalizing t with
  | nil =>
    have hnil := List.prefix_nil.mp h
    exact absurd (List.append_eq_nil_iff.mp hnil).2 hsep
  | cons b s ih =>
    rw [splitHead]
    by_cases hhead : sep <+: b :: s
    · rw [if_pos hhead]
      exact ⟨hhead, Nat.zero_le _⟩
    · rw [if_neg hhead]
      rcases t with _ | ⟨c, t⟩
      · exact absurd h hhead
      · obtain ⟨rfl, htail⟩ := List.cons_prefix_cons.mp h
        obtain ⟨hpre, hlen⟩ := ih htail
        refine ⟨List.cons_prefix_cons.mpr ⟨rfl, hpre⟩, ?_⟩
        rw [List.length_cons, List.length_cons]
        omega

/-! ## `Cut` -/

theorem exists_cut {sep s : GoString} (h : sep <:+: s) : ∃ a r, cut sep s = some (a, r) := by
  induction s with
  | nil =>
    rw [List.infix_nil] at h
    exact ⟨[], [], by rw [cut, if_pos h]⟩
  | cons b s ih =>
    rw [cut]
    by_cases hpre : sep <+: b :: s
    · exact ⟨_, _, if_pos hpre⟩
    · rw [if_neg hpre]
      obtain ⟨a, r, hcut⟩ := ih ((List.infix_cons_iff.mp h).resolve_left hpre)
      exact ⟨b :: a, r, by rw [hcut]; rfl⟩

/-- `Cut` cuts at an occurrence of the separator, and what follows any other is behind the cut. -/
theorem cut_eq_some {sep s a r : GoString} (hsep : sep ≠ []) (h : cut sep s = some (a, r)) :
    s = a ++ (sep ++ r) ∧ ∀ a' r', s = a' ++ (sep ++ r') → r' <:+ r := by
  induction s generalizing a with
  | nil =>
    rw [cut, if_neg hsep] at h
    cases h
  | cons b s ih =>
    rw [cut] at h
    by_cases hpre : sep <+: b :: s
    · rw [if_pos hpre, Option.some.injEq, Prod.mk.injEq] at h
      obtain ⟨rfl, rfl⟩ := h
      obtain ⟨t, ht⟩ := hpre
      rw [← ht, List.drop_left]
      refine ⟨rfl, fun a' r' heq => ?_⟩
      have hlen := congrArg List.length heq
      simp only [List.length_append] at hlen
      exact List.suffix_of_suffix_length_le ⟨a' ++ sep, by rw [heq, List.append_assoc]⟩
        (List.suffix_append sep t) (by omega)
    · rw [if_neg hpre, Option.map_eq_some_iff] at h
      obtain ⟨⟨a, r'⟩, hcut, heq⟩ := h
      obtain ⟨rfl, rfl⟩ := Prod.mk.injEq .. ▸ heq
      obtain ⟨hs, hlast⟩ := ih hcut
      refine ⟨by rw [hs, List.cons_append], fun a' r' heq' => ?_⟩
      rcases a' with _ | ⟨c, a'⟩
      · exact absurd ⟨r', heq'.symm⟩ hpre
      · exact hlast a' r' (List.cons.inj heq').2

/-- Sorting depends on the multiset of the strings only. -/
theorem sortStrings_eq_of_perm {l l' : List GoString} (h : l.Perm l') :
    sortStrings l = sortStrings l' := by
  refine List.Perm.eq_of_pairwise (fun a b _ _ => List.le_antisymm)
    (List.pairwise_insertionSort (· ≤ ·) l) (List.pairwise_insertionSort (· ≤ ·) l') ?_
  exact (List.perm_insertionSort _ _).trans (h.trans (List.perm_insertionSort _ _).symm)

theorem mem_join {l : List GoString} {sep : GoString} {b : UInt8} (h : b ∈ join l sep) :
    b ∈ sep ∨ ∃ f ∈ l, b ∈ f := by
  induction l with
  | nil => simp [join] at h
  | cons f l ih =>
    cases l with
    | nil => exact Or.inr ⟨f, List.mem_cons_self .., by simpa [join] using h⟩
    | cons f' l =>
      simp only [join, List.intercalate_cons_cons, List.mem_append] at h ih
      rcases h with (h | h) | h
      · exact Or.inr ⟨f, List.mem_cons_self .., h⟩
      · exact Or.inl h
      · rcases ih h with h | ⟨f'', hf, hb⟩
        · exact Or.inl h
        · exact Or.inr ⟨f'', List.mem_cons_of_mem _ hf, hb⟩

/-! ## Spaces -/

theorem rdropWhile_append_cons {α : Type*} {p : α → Bool} {a : α} (ha : p a = false)
    (l m : List α) : (l ++ a :: m).rdropWhile p = l ++ a :: m.rdropWhile p := by
  induction m using List.reverseRecOn with
  | nil => rw [List.rdropWhile_concat_neg _ _ _ (by simp [ha]), List.rdropWhile_nil]
  | append_singleton m b ih =>
    rw [← List.cons_append, ← List.append_assoc]
    by_cases hb : p b = true
    · rw [List.rdropWhile_concat_pos _ _ _ hb, List.rdropWhile_concat_pos _ _ _ hb, ih]
    · rw [List.rdropWhile_concat_neg _ _ _ hb, List.rdropWhile_concat_neg _ _ _ hb,
        List.append_assoc, List.cons_append]

theorem replaceSpaces_append {w : GoString} (hw : ∀ b ∈ w, spaceClass b = false) (s : GoString) :
    replaceSpaces (w ++ s) = w ++ replaceSpaces s := by
  induction w with
  | nil => rfl
  | cons b w ih =>
    rw [List.cons_append, replaceSpaces, hw b List.mem_cons_self,
      ih fun c hc => hw c (List.mem_cons_of_mem b hc)]
    rfl

/-- What begins with space begins with one blank afterwards. -/
theorem replaceSpaces_space {b : UInt8} (hb : spaceClass b = true) (s : GoString) :
    ∃ t, replaceSpaces (b :: s) = 32 :: t := by
  induction s generalizing b with
  | nil => exact ⟨[], by simp [replaceSpaces, hb]⟩
  | cons c s ih =>
    rw [replaceSpaces, if_pos hb]
    split
    · next hc => exact ih (by simpa using hc)
    · exact ⟨_, rfl⟩

theorem replaceSpaces_blanks {s : GoString} (hs : s.head?.any spaceClass = false) (n : ℕ) :
    replaceSpaces (List.replicate (n + 1) 32 ++ s) = 32 :: replaceSpaces s := by
  have hblank : spaceClass 32 = true := by decide
  induction n with
  | zero => simp [replaceSpaces, hblank, hs]
  | succ n ih =>
    rw [List.replicate_succ, List.cons_append, replaceSpaces, if_pos hblank, if_pos]
    · exact ih
    · simp [List.replicate_succ, hblank]

/-! ## Decimal numbers -/

theorem digitByte_toNat {d : ℕ} (h : d < 10) : (48 + d.toUInt8).toNat = 48 + d := by
  simp only [UInt8.toNat_add, UInt8.reduceToNat, UInt8.toNat_ofNat', Nat.toUInt8]
  omega

theorem itoa_digit {n : ℕ} {b : UInt8} (h : b ∈ itoa n) : 48 ≤ b ∧ b ≤ 57 := by
  unfold itoa at h
  split at h
  · rw [List.mem_singleton] at h
    subst h
    exact ⟨by decide, by decide⟩
  · simp only [List.mem_map, List.mem_reverse] at h
    obtain ⟨d, hd, rfl⟩ := h
    have hlt := Nat.digits_lt_base (by norm_num) hd
    have hb := digitByte_toNat hlt
    simp only [UInt8.le_iff_toNat_le, hb, UInt8.reduceToNat]
    omega

theorem head?_itoa {n : ℕ} (hn : n ≠ 0) : (itoa n).head? ≠ some 48 := by
  have hne : Nat.digits 10 n ≠ [] := Nat.digits_ne_nil_iff_ne_zero.mpr hn
  have hlast := Nat.getLast_digit_ne_zero 10 hn
  have hlt := Nat.digits_lt_base (by norm_num) (List.getLast_mem hne)
  rw [itoa, if_neg hn, List.head?_map, List.head?_reverse, List.getLast?_eq_some_getLast hne]
  intro h
  have hb := congrArg UInt8.toNat (Option.some.inj h)
  rw [digitByte_toNat hlt] at hb
  change 48 + _ = 48 at hb
  omega

theorem length_itoa_le {n k : ℕ} (hk : 0 < k) (h : n < 10 ^ k) : (itoa n).length ≤ k := by
  unfold itoa
  split
  · exact hk
  · rw [List.length_map, List.length_reverse]
    exact Nat.digits_length_le_iff (by norm_num) n |>.mpr h

theorem not_mem_itoa {n : ℕ} {b : UInt8} (h : b < 48 ∨ 57 < b) : b ∉ itoa n := by
  intro hb
  obtain ⟨h1, h2⟩ := itoa_digit hb
  rcases h with h | h
  · exact absurd h (UInt8.not_lt.mpr h1)
  · exact absurd h (UInt8.not_lt.mpr h2)

theorem le_foldl_digits (ds : List ℕ) (n : ℕ) : n ≤ ds.foldl (fun n d => n * 10 + d) n := by
  induction ds generalizing n with
  | nil => exact le_refl n
  | cons d ds ih => exact le_trans (by omega) (ih (n * 10 + d))

theorem parseDigits_digits (ds : List ℕ) (hd : ∀ d ∈ ds, d < 10) (n : ℕ)
    (h : ds.foldl (fun n d => n * 10 + d) n < 2 ^ 64) :
    parseDigits (ds.map fun d => 48 + d.toUInt8) n =
      .ok (ds.foldl (fun n d => n * 10 + d) n) := by
  induction ds generalizing n with
  | nil => rfl
  | cons d ds ih =>
    have hlt : d < 10 := hd d (List.mem_cons_self ..)
    have hb := digitByte_toNat hlt
    have hle : n * 10 + d < 2 ^ 64 := lt_of_le_of_lt (le_foldl_digits ds (n * 10 + d)) h
    have hdigit : ¬ (48 + d.toUInt8 < 48 ∨ 57 < 48 + d.toUInt8) := by
      simp only [UInt8.lt_iff_toNat_lt, hb, UInt8.reduceToNat]
      omega
    rw [List.map_cons, parseDigits, if_neg hdigit, hb, Nat.add_sub_cancel_left,
      if_neg (Nat.not_le.mpr hle)]
    exact ih (fun d' h' => hd d' (List.mem_cons_of_mem _ h')) _ h

theorem parseUint_itoa {n : ℕ} (h : n < 2 ^ 64) : parseUint (itoa n) = .ok n := by
  unfold parseUint itoa
  by_cases hn : n = 0
  · subst hn
    rfl
  have hval : (Nat.digits 10 n).reverse.foldl (fun n d => n * 10 + d) 0 = n := by
    rw [List.foldl_reverse]
    conv_rhs => rw [← Nat.ofDigits_digits 10 n, Nat.ofDigits_eq_foldr]
    simp only [Nat.cast_id]
    congr 1
    funext d n
    ring
  have hne : (Nat.digits 10 n).reverse.map (fun d => 48 + d.toUInt8) ≠ [] := by
    simpa [Nat.digits_eq_nil_iff_eq_zero] using hn
  rw [if_neg hn, if_neg hne, parseDigits_digits _ ?_ 0 (by rw [hval]; exact h), hval]
  intro d hd
  exact Nat.digits_lt_base (by norm_num) (List.mem_reverse.mp hd)

theorem cutSign_itoa (n : ℕ) : cutSign (itoa n) = (false, itoa n) := by
  unfold cutSign
  split
  · next s h => exact absurd (h ▸ List.mem_cons_self ..) (@not_mem_itoa n 43 (by decide))
  · next s h => exact absurd (h ▸ List.mem_cons_self ..) (@not_mem_itoa n 45 (by decide))
  · rfl

theorem atoi_itoa {n : ℕ} (h : n < 2 ^ 63) : atoi (itoa n) = ((n : ℤ), none) := by
  have h64 : n < 2 ^ 64 := lt_trans h (by norm_num)
  simp only [atoi, cutSign_itoa, parseUint_itoa h64, Bool.false_eq_true, if_false]
  rw [if_neg (by exact_mod_cast Nat.not_le.mpr h)]

end YulongHids.Golang
