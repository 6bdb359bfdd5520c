import Mathlib.Data.List.Infix
import Mathlib.Tactic

/-!
# The words of a text

A text over letters of which some are space. Its words are the longest parts without space; a text
that begins another one has no more words than it.
-/

namespace YulongHids.Text

variable {α : Type*} (space : α → Bool)

/-- The longest parts of a text without space, in order. -/
def fields (s : List α) : List (List α) := (s.splitOnP space).filter fun f => !f.isEmpty

variable {space} {s t w : List α} {b : α}

theorem fields_append_cons (hb : space b = true) (s t : List α) :
    fields space (s ++ b :: t) = fields space s ++ fields space t := by
  rw [fields, List.splitOnP_append_cons s t hb, List.filter_append]
  rfl

theorem fields_nil : fields space [] = [] := by
  rw [fields, List.splitOnP_nil]
  rfl

theorem fields_cons (hb : space b = true) (t : List α) :
    fields space (b :: t) = fields space t := by
  have h := fields_append_cons hb [] t
  rwa [fields_nil] at h

theorem fields_space_append (hs : ∀ b ∈ s, space b = true) (t : List α) :
    fields space (s ++ t) = fields space t := by
  induction s with
  | nil => rfl
  | cons b s ih =>
    obtain ⟨hb, hs⟩ := List.forall_mem_cons.mp hs
    rw [List.cons_append, fields_cons hb, ih hs]

theorem fields_append_space (s : List α) (ht : ∀ b ∈ t, space b = true) :
    fields space (s ++ t) = fields space s := by
  rcases t with _ | ⟨b, t⟩
  · rw [List.append_nil]
  · obtain ⟨hb, ht⟩ := List.forall_mem_cons.mp ht
    have hnil := fields_space_append ht []
    rw [List.append_nil, fields_nil] at hnil
    rw [fields_append_cons hb, hnil, List.append_nil]

theorem fields_word (hw : w ≠ []) (h : ∀ b ∈ w, space b = false) : fields space w = [w] := by
  rw [fields, List.splitOnP_eq_singleton h]
  simp [hw]

/-- A word, the space behind it, and the rest. -/
theorem fields_word_append {g : List α} (hw : w ≠ []) (h : ∀ b ∈ w, space b = false) (hg : g ≠ [])
    (hspace : ∀ b ∈ g, space b = true) (t : List α) :
    fields space (w ++ (g ++ t)) = w :: fields space t := by
  obtain ⟨b, g, rfl⟩ := List.exists_cons_of_ne_nil hg
  obtain ⟨hb, hg⟩ := List.forall_mem_cons.mp hspace
  rw [List.cons_append, fields_append_cons hb, fields_word hw h, fields_space_append hg]
  rfl

theorem exists_first_space (space : α → Bool) (s : List α) :
    (∀ b ∈ s, space b = false) ∨
      ∃ u c v, s = u ++ c :: v ∧ space c = true ∧ ∀ b ∈ u, space b = false := by
  induction s with
  | nil => exact Or.inl (by simp)
  | cons b s ih =>
    cases hb : space b with
    | true => exact Or.inr ⟨[], b, s, rfl, hb, by simp⟩
    | false =>
      rcases ih with h | ⟨u, c, v, rfl, hc, hu⟩
      · exact Or.inl (List.forall_mem_cons.mpr ⟨hb, h⟩)
      · exact Or.inr ⟨b :: u, c, v, rfl, hc, List.forall_mem_cons.mpr ⟨hb, hu⟩⟩

/-- A letter that is not space is in a word. -/
theorem exists_mem_fields (hb : space b = false) (hmem : b ∈ s) : ∃ f ∈ fields space s, b ∈ f := by
  induction hn : s.length using Nat.strong_induction_on generalizing s with
  | _ n ih =>
    rcases exists_first_space space s with h | ⟨u, c, v, rfl, hc, hu⟩
    · have hs := fields_word (List.ne_nil_of_mem hmem) h
      exact ⟨s, by rw [hs]; exact List.mem_singleton_self s, hmem⟩
    · rw [fields_append_cons hc]
      rcases List.mem_append.mp hmem with hmem | hmem
      · have hs := fields_word (List.ne_nil_of_mem hmem) hu
        exact ⟨u, by rw [hs]; simp, hmem⟩
      · rcases List.mem_cons.mp hmem with rfl | hmem
        · rw [hc] at hb
          cases hb
        · have hlt : v.length < n := by
            rw [← hn, List.length_append, List.length_cons]
            omega
          obtain ⟨f, hf, hbf⟩ := ih _ hlt hmem rfl
          exact ⟨f, List.mem_append_right _ hf, hbf⟩

theorem length_fields_le (space : α → Bool) (h : t <+: s) :
    (fields space t).length ≤ (fields space s).length := by
  obtain ⟨r, rfl⟩ := h
  induction hn : t.length using Nat.strong_induction_on generalizing t with
  | _ n ih =>
    rcases exists_first_space space t with h | ⟨u, c, v, rfl, hc, hu⟩
    · rcases t with _ | ⟨b, t⟩
      · rw [fields_nil]
        exact Nat.zero_le _
      · rw [fields_word (List.cons_ne_nil b t) h]
        obtain ⟨f, hf, -⟩ := exists_mem_fields (h b List.mem_cons_self)
          (List.mem_append_left r (List.mem_cons_self (l := t)))
        exact List.length_pos_of_mem hf
    · have hlt : v.length < n := by
        rw [← hn, List.length_append, List.length_cons]
        omega
      rw [List.append_assoc, List.cons_append, fields_append_cons hc, fields_append_cons hc,
        List.length_append, List.length_append]
      exact Nat.add_le_add_left (ih _ hlt rfl) _

/-- A text without words is all space. -/
theorem fields_eq_nil_iff : fields space s = [] ↔ ∀ b ∈ s, space b = true := by
  constructor
  · intro h b hb
    by_contra hspace
    obtain ⟨f, hf, -⟩ := exists_mem_fields (Bool.eq_false_iff.mpr hspace) hb
    rw [h] at hf
    cases hf
  · intro h
    have hnil := fields_space_append h []
    rwa [List.append_nil, fields_nil] at hnil

end YulongHids.Text
