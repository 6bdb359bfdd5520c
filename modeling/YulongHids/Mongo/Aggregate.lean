import YulongHids.Mongo.Collection

/-!
# Sorted pages

The stages `$sort`, `$skip` and `$limit` of an aggregation on the list of the documents that reach
them. Pages that are cut out before the sort are pieces of the sorted list only when the documents
come in an order that keeps every page in front of the later ones.
-/

namespace YulongHids.Mongo

variable {α : Type*} {l : List α} {size n p : ℕ} {rank : α → ℕ}

/-- The rank of a date in the order of the store: a missing one stands before all others. -/
def dateRank : Option ℕ → ℕ
  | none => 0
  | some t => t + 1

/-- `$sort`, in descending order of a rank. -/
def sortDesc (rank : α → ℕ) (l : List α) : List α := l.insertionSort fun a b => rank b ≤ rank a

/-- A document that may come first in descending order of a rank; the store promises no order among
documents of one rank. -/
def MayBeFirst (rank : α → ℕ) (l : List α) (d : α) : Prop := d ∈ l ∧ ∀ e ∈ l, rank e ≤ rank d

/-- `$skip`, then `$limit`. -/
def slice (start size : ℕ) (l : List α) : List α := (l.drop start).take size

/-- Page `p` of a list, where the first page is page 0. -/
def page (size : ℕ) (l : List α) (p : ℕ) : List α := slice (p * size) size l

/-- Every document of a page ranks above the documents of the later pages. -/
def PagesDescend (rank : α → ℕ) (size : ℕ) (l : List α) : Prop :=
  ∀ i j, ∀ hi : i < l.length, ∀ hj : j < l.length, i / size < j / size → rank l[j] < rank l[i]

theorem sortDesc_perm (rank : α → ℕ) (l : List α) : (sortDesc rank l).Perm l :=
  List.perm_insertionSort _ l

theorem sortDesc_pairwise (rank : α → ℕ) (l : List α) :
    (sortDesc rank l).Pairwise fun a b => rank b ≤ rank a := by
  have : Std.Total fun a b : α => rank b ≤ rank a := ⟨fun a b => le_total (rank b) (rank a)⟩
  have : IsTrans α fun a b => rank b ≤ rank a := ⟨fun _ _ _ hab hbc => le_trans hbc hab⟩
  exact List.pairwise_insertionSort _ l

theorem sortDesc_map {β : Type*} {f : α → β} {rank' : β → ℕ}
    (h : ∀ a b, rank b ≤ rank a ↔ rank' (f b) ≤ rank' (f a)) (l : List α) :
    sortDesc rank' (l.map f) = (sortDesc rank l).map f :=
  (List.map_insertionSort (r := fun a b => rank b ≤ rank a)
    (s := fun a b => rank' b ≤ rank' a) f l fun a _ b _ => h a b).symm

/-- A list sorted by a rank that tells its documents apart is determined by its documents. -/
theorem eq_sortDesc_iff {l' : List α} (hperm : l'.Perm l) (hrank : (l.map rank).Nodup) :
    l' = sortDesc rank l ↔ l'.Pairwise fun a b => rank b ≤ rank a := by
  constructor
  · rintro rfl
    exact sortDesc_pairwise rank l
  · intro h
    refine List.Perm.eq_of_pairwise ?_ h (sortDesc_pairwise rank l)
      (hperm.trans (sortDesc_perm rank l).symm)
    intro a b ha hb hab hba
    have ha' : a ∈ l := hperm.mem_iff.mp ha
    have hb' : b ∈ l := (sortDesc_perm rank l).mem_iff.mp hb
    exact List.inj_on_of_nodup_map hrank ha' hb' (le_antisymm hba hab)

/-! ## Pages -/

/-- The first pages together are the front of the list. -/
theorem flatten_pages (size n : ℕ) (l : List α) :
    ((List.range n).map (page size l)).flatten = l.take (n * size) := by
  induction n with
  | zero => simp
  | succ n ih =>
    rw [List.range_succ, List.map_append, List.flatten_append, ih, Nat.succ_mul, List.take_add]
    simp [page, slice]

theorem mem_of_mem_page {a : α} (h : a ∈ page size l p) : a ∈ l :=
  List.mem_of_mem_drop (List.mem_of_mem_take h)

/-- A page holds the documents at the positions that its number is the quotient of. -/
theorem mem_page (hsize : 0 < size) {a : α} :
    a ∈ page size l p ↔ ∃ i, ∃ hi : i < l.length, i / size = p ∧ l[i] = a := by
  rw [page, slice, List.mem_iff_getElem]
  simp only [List.length_take, List.length_drop, List.getElem_take, List.getElem_drop]
  constructor
  · rintro ⟨i, hi, h⟩
    refine ⟨p * size + i, by omega, ?_, h⟩
    rw [Nat.mul_comm, Nat.mul_add_div hsize, Nat.div_eq_of_lt (by omega), Nat.add_zero]
  · rintro ⟨i, hi, rfl, h⟩
    have hmod := Nat.mod_lt i hsize
    have hdiv := Nat.div_add_mod' i size
    refine ⟨i % size, by omega, ?_⟩
    simp only [hdiv]
    exact h

/-- Pages that are sorted one by one make up the sorted list exactly when they descend. -/
theorem flatten_sorted_pages_iff (hsize : 0 < size) (hcover : l.length ≤ n * size)
    (hrank : (l.map rank).Nodup) :
    ((List.range n).map fun p => sortDesc rank (page size l p)).flatten = sortDesc rank l ↔
      PagesDescend rank size l := by
  have hpages : ((List.range n).map fun p => sortDesc rank (page size l p)).flatten.Perm l := by
    have hall := flatten_pages size n l
    rw [List.take_of_length_le hcover] at hall
    conv_rhs => rw [← hall]
    rw [← List.flatMap_def, ← List.flatMap_def]
    exact List.Perm.flatMap_left _ fun p _ => sortDesc_perm rank _
  have hmem : ∀ p a, a ∈ sortDesc rank (page size l p) ↔
      ∃ i, ∃ hi : i < l.length, i / size = p ∧ l[i] = a := fun p a =>
    (sortDesc_perm rank _).mem_iff.trans (mem_page hsize)
  rw [eq_sortDesc_iff hpages hrank, List.pairwise_flatten, List.pairwise_map]
  constructor
  · rintro ⟨-, hdesc⟩ i j hi hj hij
    have hjn : j / size < n := Nat.div_lt_of_lt_mul (by rw [Nat.mul_comm]; omega)
    have hle := List.pairwise_iff_getElem.mp hdesc (i / size) (j / size)
      (by rw [List.length_range]; omega) (by rwa [List.length_range]) hij
    rw [List.getElem_range, List.getElem_range] at hle
    refine lt_of_le_of_ne (hle _ ((hmem _ _).mpr ⟨i, hi, rfl, rfl⟩) _
      ((hmem _ _).mpr ⟨j, hj, rfl, rfl⟩)) ?_
    intro heq
    have hsame := List.inj_on_of_nodup_map hrank (List.getElem_mem hj) (List.getElem_mem hi) heq
    have hidx := (List.Nodup.of_map rank hrank).getElem_inj_iff.mp hsame
    rw [hidx] at hij
    exact absurd hij (lt_irrefl _)
  · intro hdesc
    refine ⟨?_, ?_⟩
    · intro l' hl'
      obtain ⟨p, -, rfl⟩ := List.mem_map.mp hl'
      exact sortDesc_pairwise rank _
    · refine List.Pairwise.imp ?_ List.pairwise_lt_range
      intro p q hpq a ha b hb
      obtain ⟨i, hi, rfl, rfl⟩ := (hmem p a).mp ha
      obtain ⟨j, hj, rfl, rfl⟩ := (hmem q b).mp hb
      exact (hdesc i j hi hj hpq).le

end YulongHids.Mongo
