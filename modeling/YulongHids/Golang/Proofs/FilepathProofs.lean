import YulongHids.Golang.Filepath

/-!
# Proofs: directory trees

A walk is the sequence of the calls in the order of the listing, up to the first error that the
callback returns.
-/

namespace YulongHids.Golang.Filepath

section Walk

variable {σ : Type} (fn : σ → GoString → Visit → σ × Bool)

theorem visits_append (l m : List (GoString × Visit)) (s : σ) :
    visits fn (l ++ m) s =
      match visits fn l s with
      | (s', true) => (s', true)
      | (s', false) => visits fn m s' := by
  induction l generalizing s with
  | nil => rfl
  | cons e l ih =>
    obtain ⟨path, v⟩ := e
    rw [List.cons_append, visits, visits]
    rcases fn s path v with ⟨s', _ | _⟩
    · exact ih s'
    · rfl

theorem walkEntries_eq (es : Entries) (parent : GoString) (s : σ) :
    walkEntries fn parent es s = visits fn (es.listing parent) s := by
  induction es generalizing parent s with
  | nil => rfl
  | leaf name kind rest ih =>
    rw [walkEntries, Entries.listing, visits]
    rcases fn s (join parent name) kind.visit with ⟨s', _ | _⟩
    · exact ih parent s'
    · rfl
  | dir name children rest ihc ihr =>
    rw [walkEntries, Entries.listing, visits]
    rcases fn s (join parent name) .dir with ⟨s', _ | _⟩
    · simp only [visits_append, ihc]
      rcases visits fn (children.listing (join parent name)) s' with ⟨s'', _ | _⟩
      · exact ihr parent s''
      · rfl
    · rfl

theorem walk_eq (root : GoString) (node : Node) (s : σ) :
    walk fn root node s = visits fn (node.listing root) s := by
  cases node with
  | leaf kind =>
    rw [walk, Node.listing, visits]
    rcases fn s root kind.visit with ⟨s', _ | _⟩
    · rfl
    · rfl
  | dir children =>
    rw [walk, Node.listing, visits]
    rcases fn s root .dir with ⟨s', _ | _⟩
    · exact walkEntries_eq fn children root s'
    · rfl

/-- A callback that returns the errors it gets, and no others, sees the entries in front of the first
one. -/
theorem walk_fst_of_returns {g : σ → GoString × Visit → σ} {root : GoString} {node : Node}
    (herror : ∀ s path, fn s path .error = (s, true))
    (hok : ∀ s path v, v ≠ .error → fn s path v = (g s (path, v), false)) (s : σ) :
    (walk fn root node s).1 = (node.reached root).foldl g s := by
  rw [walk_eq, Node.reached]
  induction node.listing root generalizing s with
  | nil => rfl
  | cons e l ih =>
    obtain ⟨path, v⟩ := e
    rw [visits]
    by_cases hv : v = .error
    · subst hv
      rw [herror]
      rfl
    · rw [hok s path v hv, List.takeWhile_cons, if_pos (decide_eq_true hv)]
      exact ih _

end Walk

/-- What is reached is listed. -/
theorem mem_listing_of_mem_reached {root : GoString} {node : Node} {e : GoString × Visit}
    (h : e ∈ node.reached root) : e ∈ node.listing root := List.takeWhile_subset _ h

end YulongHids.Golang.Filepath
