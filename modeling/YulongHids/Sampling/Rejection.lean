import Mathlib.Algebra.BigOperators.Fin
import Mathlib.Data.Fintype.BigOperators
import Mathlib.Data.List.OfFn
import Mathlib.Tactic

/-!
# Rejection sampling

Values are drawn one after the other, and a draw is accepted with some result or dropped. Where all
results are accepted for equally many draws, all lists of results come first for equally many
sequences of draws.
-/

namespace YulongHids.Sampling

variable {α β : Type*} {f : α → Option β} {m : ℕ} {a : α} {b : β} {t t' : List β}

/-- The results of a sequence of draws. -/
def accepted (f : α → Option β) (c : Fin m → α) : List β := (List.ofFn c).filterMap f

theorem accepted_cons (c : Fin m → α) :
    accepted f (Fin.cons a c : Fin (m + 1) → α) = (f a).toList ++ accepted f c := by
  rw [accepted, List.ofFn_succ, Fin.cons_zero, List.filterMap_cons]
  simp only [Fin.cons_succ]
  cases f a <;> rfl

/-- Results in front of the list of a sequence, by the first draw. -/
theorem cons_prefix_accepted_cons_iff (c : Fin m → α) :
    b :: t <+: accepted f (Fin.cons a c : Fin (m + 1) → α) ↔
      (f a = some b ∧ t <+: accepted f c) ∨ (f a = none ∧ b :: t <+: accepted f c) := by
  rw [accepted_cons]
  cases f a with
  | none => simp
  | some b' => simp [List.cons_prefix_cons, eq_comm]

variable [Fintype α] [DecidableEq β]

/-- How many sequences of draws have these results in front. -/
def ways (f : α → Option β) (m : ℕ) (t : List β) : ℕ :=
  Fintype.card { c : Fin m → α // t <+: accepted f c }

theorem ways_zero_cons (f : α → Option β) (b : β) (t : List β) : ways f 0 (b :: t) = 0 := by
  rw [ways, Fintype.card_eq_zero_iff]
  exact ⟨fun c => by simpa [accepted] using c.2⟩

theorem ways_succ_cons (f : α → Option β) (m : ℕ) (b : β) (t : List β) :
    ways f (m + 1) (b :: t) =
      Fintype.card { a // f a = some b } * ways f m t +
        Fintype.card { a // f a = none } * ways f m (b :: t) := by
  have hsplit : ways f (m + 1) (b :: t) = Fintype.card { p : α × (Fin m → α) //
      (f p.1 = some b ∧ t <+: accepted f p.2) ∨ (f p.1 = none ∧ b :: t <+: accepted f p.2) } :=
    Fintype.card_congr ((Fin.consEquiv fun _ => α).subtypeEquiv fun p =>
      (cons_prefix_accepted_cons_iff p.2).symm).symm
  have hdisjoint : Disjoint (fun p : α × (Fin m → α) => f p.1 = some b ∧ t <+: accepted f p.2)
      (fun p => f p.1 = none ∧ b :: t <+: accepted f p.2) := by
    rw [Pi.disjoint_iff]
    intro p
    rw [Prop.disjoint_iff, not_and_or]
    by_cases h : f p.1 = none
    · exact Or.inl fun hsome => by rw [h] at hsome; cases hsome.1
    · exact Or.inr fun hnone => h hnone.1
  rw [hsplit, Fintype.card_subtype_or_disjoint _ _ hdisjoint,
    Fintype.card_congr (Equiv.subtypeProdEquivProd (p := fun a => f a = some b)
      (q := fun c : Fin m → α => t <+: accepted f c)),
    Fintype.card_congr (Equiv.subtypeProdEquivProd (p := fun a => f a = none)
      (q := fun c : Fin m → α => b :: t <+: accepted f c)),
    Fintype.card_prod, Fintype.card_prod]
  rfl

/-- Lists of equally many results, all of them accepted for equally many draws. -/
theorem ways_eq (hlen : t.length = t'.length)
    (hfair : ∀ b ∈ t, ∀ b' ∈ t', Fintype.card { a // f a = some b } = Fintype.card { a // f a = some b' }) :
    ways f m t = ways f m t' := by
  induction m generalizing t t' with
  | zero =>
    cases t with
    | nil =>
      obtain rfl : t' = [] := List.length_eq_zero_iff.mp hlen.symm
      rfl
    | cons b t =>
      obtain ⟨b', t', rfl⟩ := List.exists_cons_of_length_eq_add_one hlen.symm
      rw [ways_zero_cons, ways_zero_cons]
  | succ m ih =>
    cases t with
    | nil =>
      obtain rfl : t' = [] := List.length_eq_zero_iff.mp hlen.symm
      rfl
    | cons b t =>
      obtain ⟨b', t', rfl⟩ := List.exists_cons_of_length_eq_add_one hlen.symm
      have htail : ways f m t = ways f m t' :=
        ih (Nat.succ_inj.mp hlen) fun x hx x' hx' =>
          hfair x (List.mem_cons_of_mem _ hx) x' (List.mem_cons_of_mem _ hx')
      have hhead := hfair b List.mem_cons_self b' List.mem_cons_self
      rw [ways_succ_cons, ways_succ_cons, hhead, htail, ih hlen hfair]

end YulongHids.Sampling
