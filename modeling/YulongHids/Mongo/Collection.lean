import Mathlib.Data.List.Sort
import Mathlib.Tactic

/-!
# Collections of a document store

A collection is the list of its documents in natural order. Selectors are Boolean predicates, an
update is a function on documents; operations on one document act on the first match.
-/

namespace YulongHids.Mongo

variable {α : Type*}

/-- `bson.ObjectId`: a string of twelve bytes. -/
abbrev ObjectId := List UInt8

/-- A collection: its documents in natural order. -/
abbrev Collection (α : Type*) := List α

/-- `Find(p).Count()`. -/
def count (c : Collection α) (p : α → Bool) : ℕ := c.countP p

/-- `Find(p).One()`: the first match. -/
def one (c : Collection α) (p : α → Bool) : Option α := c.find? p

def insert (c : Collection α) (d : α) : Collection α := c ++ [d]

/-- `Update(p, f)`: change the first match; a collection without one stays as it is. -/
def update : Collection α → (α → Bool) → (α → α) → Collection α
  | [], _, _ => []
  | d :: c, p, f => if p d then f d :: c else d :: update c p f

/-- `Find(p).Apply` with `Remove`: the first match, and the collection without it. -/
def findAndRemove (c : Collection α) (p : α → Bool) : Option α × Collection α :=
  (c.find? p, c.eraseP p)

/-- `Find(p).Sort(le).Skip(start).Limit(limit).All()`, where the limit 0 means no limit. -/
def find (c : Collection α) (p : α → Bool) (le : α → α → Bool) (start limit : ℕ) : List α :=
  let page := ((c.filter p).insertionSort fun a b => le a b = true).drop start
  if limit = 0 then page else page.take limit

/-- `Distinct(key)` over the documents matching `p`: the values of the key, each once. The store
does not promise an order, so the answer is any list with these two properties. -/
structure Distinct {κ : Type*} (c : Collection α) (p : α → Bool) (key : α → κ) where
  values : List κ
  nodup : values.Nodup
  mem_iff : ∀ k, k ∈ values ↔ ∃ d ∈ c, p d = true ∧ key d = k

variable {c : Collection α} {p q : α → Bool} {f : α → α} {le : α → α → Bool}

theorem findAndRemove_cons_true (d : α) :
    findAndRemove (d :: c) (fun _ => true) = (some d, c) := by
  simp [findAndRemove]

theorem mem_find_all (d : α) : d ∈ find c p le 0 0 ↔ d ∈ c ∧ p d = true := by
  simp [find, List.mem_insertionSort]

theorem one_le_count_iff : 1 ≤ count c p ↔ (one c p).isSome := by
  simp [count, one, Nat.one_le_iff_ne_zero]

theorem filter_insert (d : α) : (insert c d).filter p = c.filter p ++ if p d then [d] else [] := by
  rw [insert, List.filter_append, List.filter_singleton]
  cases p d <;> rfl

/-- The update of the first match, seen as the list of all matches. -/
theorem filter_update_self (h : ∀ d, p d = true → p (f d) = true) :
    (update c p f).filter p = (c.filter p).modifyHead f := by
  induction c with
  | nil => rfl
  | cons d c ih =>
    cases hd : p d with
    | true => simp [update, hd, h d hd]
    | false => simp [update, hd, ih]

/-- An update is not seen through a selector that no document matches before or after it. -/
theorem filter_update_disjoint (h : ∀ d, p d = true → q d = false ∧ q (f d) = false) :
    (update c p f).filter q = c.filter q := by
  induction c with
  | nil => rfl
  | cons d c ih =>
    cases hd : p d with
    | true => simp [update, hd, h d hd]
    | false => simp [update, hd, ih, List.filter_cons]

theorem one_eq_head? : one c p = (c.filter p).head? := List.head?_filter.symm

theorem one_insert (d : α) : one (insert c d) p = (one c p).or (if p d then some d else none) := by
  rw [one_eq_head?, one_eq_head?, filter_insert, List.head?_append]
  cases p d <;> rfl

/-- The update of the document a selector finds, seen through the same selector. -/
theorem one_update_self (h : ∀ d, p d = true → p (f d) = true) :
    one (update c p f) p = (one c p).map f := by
  rw [one_eq_head?, one_eq_head?, filter_update_self h, List.head?_modifyHead]

theorem one_update_disjoint (h : ∀ d, p d = true → q d = false ∧ q (f d) = false) :
    one (update c p f) q = one c q := by
  rw [one_eq_head?, one_eq_head?, filter_update_disjoint h]

/-- The update of a document that two selectors find, seen through the other one. -/
theorem one_update_of_eq {d : α} (hf : q (f d) = q d) (hp : one c p = some d)
    (hq : one c q = some d) : one (update c p f) q = some (f d) := by
  have hqd : q d = true := List.find?_some hq
  induction c with
  | nil => cases hp
  | cons e c ih =>
    rw [one, List.find?_cons] at hp hq
    cases hpe : p e with
    | true =>
      rw [hpe] at hp
      obtain rfl : e = d := Option.some.inj hp
      simp [update, hpe, one, hf, hqd]
    | false =>
      have hqe : q e = false := by
        by_contra h
        rw [Bool.not_eq_false] at h
        rw [h] at hq
        obtain rfl : e = d := Option.some.inj hq
        exact absurd (List.find?_some (hpe ▸ hp)) (by simp [hpe])
      rw [hpe] at hp
      rw [hqe] at hq
      simpa [update, hpe, one, hqe] using ih hp hq

/-- The update of a document is not seen through a selector that finds another one. -/
theorem one_update_of_ne (hf : ∀ d, q (f d) = q d)
    (h : ∀ d, one c p = some d → one c q ≠ some d) : one (update c p f) q = one c q := by
  induction c with
  | nil => rfl
  | cons e c ih =>
    cases hpe : p e with
    | true =>
      have hqe : q e = false := by
        by_contra hq
        rw [Bool.not_eq_false] at hq
        exact h e (by simp [one, hpe]) (by simp [one, hq])
      simp [update, hpe, one, hf, hqe]
    | false =>
      cases hqe : q e with
      | true => simp [update, hpe, one, hqe]
      | false => simpa [update, hpe, one, hqe] using ih (by simpa [one, hpe, hqe] using h)

/-- A document of an updated collection was there before, or it is the updated match. -/
theorem mem_update {d : α} (h : d ∈ update c p f) : d ∈ c ∨ ∃ e ∈ c, p e = true ∧ d = f e := by
  induction c with
  | nil => exact Or.inl h
  | cons e c ih =>
    cases hp : p e with
    | true =>
      simp only [update, hp, if_true, List.mem_cons] at h
      rcases h with rfl | h
      · exact Or.inr ⟨e, List.mem_cons_self, hp, rfl⟩
      · exact Or.inl (List.mem_cons_of_mem e h)
    | false =>
      simp only [update, hp, Bool.false_eq_true, if_false, List.mem_cons] at h
      rcases h with rfl | h
      · exact Or.inl List.mem_cons_self
      · rcases ih h with hd | ⟨e', he', hrest⟩
        · exact Or.inl (List.mem_cons_of_mem e hd)
        · exact Or.inr ⟨e', List.mem_cons_of_mem e he', hrest⟩

/-- An update leaves a field that it does not set. -/
theorem map_update {κ : Type*} {key : α → κ} (h : ∀ d, p d = true → key (f d) = key d) :
    (update c p f).map key = c.map key := by
  induction c with
  | nil => rfl
  | cons e c ih =>
    cases hp : p e with
    | true => simp [update, hp, h e hp]
    | false => simp [update, hp, ih]

/-- A removal is not seen through a selector that does not match what is removed. -/
theorem one_findAndRemove_disjoint (h : ∀ d, p d = true → q d = false) :
    one (findAndRemove c p).2 q = one c q := by
  simp only [findAndRemove, one]
  induction c with
  | nil => rfl
  | cons e c ih =>
    cases hp : p e with
    | true => simp [hp, h e hp]
    | false => simp [hp, List.find?_cons, ih]

theorem count_eq_zero_iff : count c p = 0 ↔ c.filter p = [] := by
  rw [count, List.countP_eq_length_filter, List.length_eq_zero_iff]

end YulongHids.Mongo
