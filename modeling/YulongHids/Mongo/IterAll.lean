import Mathlib.Tactic

/-!
# Reading all documents into a slice

`Iter.All` of the driver decodes the documents into the elements that the slice has already, from the
first one on, and gives the slice its new length at the end. An element is decoded in place, too: it
gets its zero value, and then one field of the document after the other. Others who hold the slice
see all of this, in its old length.
-/

namespace YulongHids.Mongo

/-- How documents, as lists of their fields, are decoded into values. -/
structure Decoder (α ε : Type*) where
  zero : α
  set : α → ε → α

namespace Decoder

variable {α ε : Type*} (dec : Decoder α ε)

/-- What a document is decoded to. -/
def value (d : List ε) : α := d.foldl dec.set dec.zero

/-- The values of an element while a document is decoded into it. -/
def partials (d : List ε) : List α := d.scanl dec.set dec.zero

/-- The elements that others see while documents are decoded into them, one view for each step. -/
def seen : List (List ε) → List α → List (List α)
  | [], old => [old]
  | _ :: _, [] => [[]]
  | d :: docs, a :: old =>
    ((a :: old) :: (dec.partials d).map (· :: old)) ++ (seen docs old).map (dec.value d :: ·)

/-- A document that does not change the element it is decoded into, not even meanwhile. -/
def Steady (d : List ε) (a : α) : Prop := ∀ p ∈ dec.partials d, p = a

/-- A document that shows the old or the new value of its element only. -/
def Switches (d : List ε) (a : α) : Prop := ∀ p ∈ dec.partials d, p = a ∨ p = dec.value d

/-- All elements are steady but one, which switches; none is added or left out. -/
def SwitchesOne (docs : List (List ε)) (old : List α) : Prop :=
  ∃ pre d a post, docs = pre ++ d :: post ∧
    old = pre.map dec.value ++ a :: post.map dec.value ∧ dec.Switches d a ∧
    ∀ e ∈ pre ++ post, dec.Steady e (dec.value e)

/-- The others see the old or the new elements only. -/
def Unmixed (docs : List (List ε)) (old : List α) : Prop :=
  ∀ v ∈ dec.seen docs old, v = old ∨ v = docs.map dec.value

variable {dec} {d : List ε} {docs : List (List ε)} {old : List α} {a : α}

theorem value_mem_partials : dec.value d ∈ dec.partials d := by
  rw [partials, value]
  generalize dec.zero = z
  induction d generalizing z with
  | nil => exact List.mem_singleton_self z
  | cons e d ih =>
    rw [List.scanl_cons, List.foldl_cons]
    exact List.mem_cons_of_mem z (ih (dec.set z e))

theorem zero_mem_partials : dec.zero ∈ dec.partials d := by
  rw [partials]
  cases d with
  | nil => exact List.mem_singleton_self _
  | cons e d =>
    rw [List.scanl_cons]
    exact List.mem_cons_self

theorem Steady.value_eq (h : dec.Steady d a) : dec.value d = a := h _ value_mem_partials

theorem Switches.steady (h : dec.Switches d a) (hvalue : dec.value d = a) : dec.Steady d a := by
  intro p hp
  rcases h p hp with hold | hnew
  · exact hold
  · exact hnew.trans hvalue

/-! ## What is seen -/

theorem old_mem_seen (docs : List (List ε)) (old : List α) : old ∈ dec.seen docs old := by
  cases docs with
  | nil => exact List.mem_singleton_self old
  | cons d docs =>
    cases old with
    | nil => exact List.mem_singleton_self []
    | cons a old => exact List.mem_append_left _ List.mem_cons_self

/-- The views of a slice, by those of its first element and of the others. -/
theorem forall_seen_cons {P : List α → Prop} :
    (∀ v ∈ dec.seen (d :: docs) (a :: old), P v) ↔
      P (a :: old) ∧ (∀ p ∈ dec.partials d, P (p :: old)) ∧
        ∀ v ∈ dec.seen docs old, P (dec.value d :: v) := by
  rw [seen, List.forall_mem_append, List.forall_mem_cons, List.forall_mem_map, List.forall_mem_map,
    and_assoc]

/-- Nothing is seen to change exactly if every element is steady. -/
theorem seen_eq_iff (docs : List (List ε)) (old : List α) :
    (∀ v ∈ dec.seen docs old, v = old) ↔ ∀ p ∈ docs.zip old, dec.Steady p.1 p.2 := by
  induction docs generalizing old with
  | nil => simp [seen]
  | cons d docs ih =>
    cases old with
    | nil => simp [seen]
    | cons a old =>
      rw [forall_seen_cons, List.zip_cons_cons, List.forall_mem_cons, ← ih old]
      simp only [List.cons.injEq, and_true, true_and]
      refine and_congr_right fun hsteady => ?_
      simp only [Steady.value_eq hsteady, true_and]

/-- Documents that are decoded into their own values; what is behind them is not seen. -/
theorem seen_append_eq_iff (docs more : List (List ε)) :
    (∀ v ∈ dec.seen (docs ++ more) (docs.map dec.value), v = docs.map dec.value) ↔
      ∀ d ∈ docs, dec.Steady d (dec.value d) := by
  rw [seen_eq_iff]
  induction docs with
  | nil => simp
  | cons d docs ih =>
    rw [List.cons_append, List.map_cons, List.zip_cons_cons, List.forall_mem_cons,
      List.forall_mem_cons, ih]

theorem seen_map_eq_iff (docs : List (List ε)) :
    (∀ v ∈ dec.seen docs (docs.map dec.value), v = docs.map dec.value) ↔
      ∀ d ∈ docs, dec.Steady d (dec.value d) := by
  have h := @seen_append_eq_iff _ _ dec docs []
  rwa [List.append_nil] at h

/-! ## One element after the other -/

/-- If the first element does not change, it is steady, and the rest decides. -/
theorem unmixed_cons_self (hvalue : dec.value d = a) :
    dec.Unmixed (d :: docs) (a :: old) ↔ dec.Steady d a ∧ dec.Unmixed docs old := by
  rw [Unmixed, forall_seen_cons, List.map_cons, hvalue]
  simp only [List.cons.injEq, true_and, and_true, true_or, Unmixed]
  refine and_congr_left fun _ => forall₂_congr fun p _ => ?_
  exact or_iff_left_of_imp And.left

/-- If the first element changes, then it switches, and the others are steady. -/
theorem unmixed_cons_ne (hvalue : dec.value d ≠ a) :
    dec.Unmixed (d :: docs) (a :: old) ↔
      dec.Switches d a ∧ old = docs.map dec.value ∧ ∀ e ∈ docs, dec.Steady e (dec.value e) := by
  rw [Unmixed, forall_seen_cons, List.map_cons]
  simp only [List.cons.injEq, true_and, true_or, hvalue, false_and, false_or, and_true]
  constructor
  · rintro ⟨hpartials, hseen⟩
    have hold : old = docs.map dec.value := hseen old (old_mem_seen docs old)
    refine ⟨fun p hp => ?_, hold, (seen_map_eq_iff docs).mp fun v hv => hseen v (hold ▸ hv)⟩
    exact (hpartials p hp).imp_right And.left
  · rintro ⟨hswitches, rfl, hsteady⟩
    refine ⟨fun p hp => ?_, (seen_map_eq_iff docs).mpr hsteady⟩
    exact (hswitches p hp).imp_right fun hp => ⟨hp, rfl⟩

theorem switchesOne_cons_iff :
    dec.SwitchesOne (d :: docs) (a :: old) ↔
      (dec.Switches d a ∧ old = docs.map dec.value ∧ ∀ e ∈ docs, dec.Steady e (dec.value e)) ∨
        (dec.value d = a ∧ dec.Steady d a ∧ dec.SwitchesOne docs old) := by
  constructor
  · rintro ⟨pre, d', a', post, hdocs, hold, hswitches, hsteady⟩
    cases pre with
    | nil =>
      obtain ⟨rfl, rfl⟩ := List.cons.inj hdocs
      obtain ⟨rfl, rfl⟩ := List.cons.inj hold
      exact Or.inl ⟨hswitches, rfl, hsteady⟩
    | cons e pre =>
      obtain ⟨rfl, rfl⟩ := List.cons.inj hdocs
      obtain ⟨rfl, rfl⟩ := List.cons.inj hold
      have hall := List.forall_mem_cons.mp hsteady
      exact Or.inr ⟨rfl, hall.1, pre, d', a', post, rfl, rfl, hswitches, hall.2⟩
  · rintro (⟨hswitches, rfl, hsteady⟩ | ⟨rfl, hfirst, pre, d', a', post, rfl, rfl, hswitches, hsteady⟩)
    · exact ⟨[], d, a, docs, rfl, rfl, hswitches, hsteady⟩
    · exact ⟨d :: pre, d', a', post, rfl, rfl, hswitches, List.forall_mem_cons.mpr ⟨hfirst, hsteady⟩⟩

/-- Nothing in between is seen exactly if every element is steady that there was and that is read
again, or if one of them switches and nothing else changes. -/
theorem unmixed_iff (docs : List (List ε)) (old : List α) :
    dec.Unmixed docs old ↔
      (∀ p ∈ docs.zip old, dec.Steady p.1 p.2) ∨ dec.SwitchesOne docs old := by
  induction docs generalizing old with
  | nil => exact iff_of_true (fun v hv => Or.inl (List.mem_singleton.mp hv)) (Or.inl nofun)
  | cons d docs ih =>
    cases old with
    | nil => exact iff_of_true (fun v hv => Or.inl (List.mem_singleton.mp hv)) (Or.inl nofun)
    | cons a old =>
      rw [List.zip_cons_cons, List.forall_mem_cons, switchesOne_cons_iff]
      by_cases hvalue : dec.value d = a
      · rw [unmixed_cons_self hvalue, ih old]
        constructor
        · rintro ⟨hfirst, hsteady | hone⟩
          · exact Or.inl ⟨hfirst, hsteady⟩
          · exact Or.inr (Or.inr ⟨hvalue, hfirst, hone⟩)
        · rintro (⟨hfirst, hsteady⟩ | ⟨hswitches, rfl, hsteady⟩ | ⟨-, hfirst, hone⟩)
          · exact ⟨hfirst, Or.inl hsteady⟩
          · refine ⟨hswitches.steady hvalue, Or.inl ?_⟩
            exact (seen_eq_iff docs _).mp ((seen_map_eq_iff docs).mpr hsteady)
          · exact ⟨hfirst, Or.inr hone⟩
      · have hnot : ¬ dec.Steady d a := fun h => hvalue h.value_eq
        rw [unmixed_cons_ne hvalue]
        simp only [hnot, false_and, and_false, or_false, false_or]

end Decoder

end YulongHids.Mongo
