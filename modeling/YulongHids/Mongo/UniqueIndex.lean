import YulongHids.Mongo.Collection

/-!
# Collections with a unique index

The index is given by the function `key` to the indexed fields; a missing field counts as a value of
its own. A write that would put two documents under one key fails, and a bulk update stops there with
the documents before it updated.
-/

namespace YulongHids.Mongo

variable {α κ : Type*}

/-- A collection in which the index has no two documents under one key. -/
structure Indexed (key : α → κ) where
  docs : Collection α
  unique : (docs.map key).Nodup

/-- What a bulk update makes of a document. -/
def updated (p : α → Bool) (f : α → α) (d : α) : α := if p d then f d else d

namespace Indexed

variable {key : α → κ}

/-- `RemoveAll(p)`. -/
def removeAll (c : Indexed key) (p : α → Bool) : Indexed key :=
  ⟨c.docs.filter fun d => !p d, c.unique.sublist (List.filter_sublist.map key)⟩

section Writes

variable [DecidableEq κ]

/-- `Insert`, `none` if there is a document under the key. -/
def insert (c : Indexed key) (d : α) : Option (Indexed key) :=
  if h : key d ∈ c.docs.map key then none
  else some ⟨c.docs ++ [d], by
    rw [List.map_append, List.nodup_append']
    exact ⟨c.unique, List.nodup_singleton _, by simpa using h⟩⟩

/-- A bulk update that has got to `todo`, and whether it ends without an error. -/
def updateFrom (p : α → Bool) (f : α → α) : (done todo : List α) →
    ((done ++ todo).map key).Nodup → Indexed key × Bool
  | done, [], h => (⟨done, by simpa using h⟩, true)
  | done, d :: todo, h =>
    if hp : p d then
      if hk : key (f d) ∈ (done ++ todo).map key then (⟨done ++ d :: todo, h⟩, false)
      else updateFrom p f (done ++ [f d]) todo (by
        rw [List.append_assoc, List.singleton_append, List.map_append, List.map_cons,
          List.nodup_middle, List.nodup_cons, ← List.map_append]
        rw [List.map_append, List.map_cons, List.nodup_middle, List.nodup_cons,
          ← List.map_append] at h
        exact ⟨hk, h.2⟩)
    else updateFrom p f (done ++ [d]) todo (by simpa using h)

/-- `UpdateAll(p, f)`: the collection afterwards, and whether there was no error. -/
def updateAll (c : Indexed key) (p : α → Bool) (f : α → α) : Indexed key × Bool :=
  updateFrom p f [] c.docs c.unique

theorem insert_eq_none {c : Indexed key} {d : α} :
    c.insert d = none ↔ ∃ d' ∈ c.docs, key d' = key d := by
  rw [insert]
  split
  · next h =>
    simp only [true_iff]
    exact List.mem_map.mp h
  · next h =>
    simp only [reduceCtorEq, false_iff]
    exact fun hd => h (List.mem_map.mpr hd)

theorem docs_insert {c c' : Indexed key} {d : α} (h : c.insert d = some c') :
    c'.docs = c.docs ++ [d] := by
  rw [insert] at h
  split at h
  · simp at h
  · rw [← Option.some.inj h]

end Writes

/-! ## Collisions -/

variable {p : α → Bool} {f : α → α}

/-- The document `d` between `pre` and `post` is selected, but the updated `pre` and `post` have a
document under its new key. -/
structure Collides (key : α → κ) (p : α → Bool) (f : α → α) (pre : List α) (d : α) (post : List α) :
    Prop where
  selected : p d = true
  taken : key (f d) ∈ (pre.map (updated p f) ++ post).map key

/-- The first document of a list with a collision, and what stands before and behind it. -/
structure FirstCollision (key : α → κ) (p : α → Bool) (f : α → α) (docs pre : List α) (d : α)
    (post : List α) : Prop where
  docs_eq : docs = pre ++ d :: post
  collides : Collides key p f pre d post
  first : ∀ pre' d' post', pre = pre' ++ d' :: post' →
    ¬ Collides key p f pre' d' (post' ++ d :: post)

section First

variable {docs pre pre' post post' : List α} {d d' : α}

theorem FirstCollision.eq_of_append (h : FirstCollision key p f docs pre d post)
    (h' : FirstCollision key p f docs pre' d' post') {l : List α} (hpre : pre' = pre ++ l)
    (hpost : d :: post = l ++ d' :: post') : pre = pre' ∧ d = d' ∧ post = post' := by
  cases l with
  | nil =>
    rw [List.nil_append, List.cons.injEq] at hpost
    rw [List.append_nil] at hpre
    exact ⟨hpre.symm, hpost.1, hpost.2⟩
  | cons a l =>
    obtain ⟨rfl, rfl⟩ := List.cons.inj hpost
    exact absurd h.collides (h'.first pre d l hpre)

theorem FirstCollision.unique (h : FirstCollision key p f docs pre d post)
    (h' : FirstCollision key p f docs pre' d' post') : pre = pre' ∧ d = d' ∧ post = post' := by
  have heq : pre ++ d :: post = pre' ++ d' :: post' := h.docs_eq.symm.trans h'.docs_eq
  rcases List.append_eq_append_iff.mp heq with ⟨l, hpre, hpost⟩ | ⟨l, hpre, hpost⟩
  · exact h.eq_of_append h' hpre hpost
  · obtain ⟨h1, h2, h3⟩ := h'.eq_of_append h hpre hpost
    exact ⟨h1.symm, h2.symm, h3.symm⟩

end First

section Updates

variable [DecidableEq κ]

theorem updateFrom_cases (todo : List α) :
    ∀ (pre done : List α) (h : ((done ++ todo).map key).Nodup), done = pre.map (updated p f) →
    (∀ pre' d' post', pre = pre' ++ d' :: post' → ¬ Collides key p f pre' d' (post' ++ todo)) →
    ((updateFrom p f done todo h).2 = true ∧
      (updateFrom p f done todo h).1.docs = (pre ++ todo).map (updated p f) ∧
      ∀ pre' d' post', pre ++ todo = pre' ++ d' :: post' → ¬ Collides key p f pre' d' post') ∨
    ((updateFrom p f done todo h).2 = false ∧
      ∃ pre' d' post', FirstCollision key p f (pre ++ todo) pre' d' post' ∧
        (updateFrom p f done todo h).1.docs = pre'.map (updated p f) ++ d' :: post') := by
  induction todo with
  | nil =>
    intro pre done h hdone hpre
    refine Or.inl ⟨rfl, ?_, fun pre' d' post' hsplit => ?_⟩
    · simpa [updateFrom] using hdone
    · rw [List.append_nil] at hsplit
      simpa using hpre pre' d' post' hsplit
  | cons d todo ih =>
    intro pre done h hdone hpre
    -- a document that is passed joins the others without a collision
    have hpass : ¬ Collides key p f pre d todo → ∀ pre' d' post',
        pre ++ [d] = pre' ++ d' :: post' → ¬ Collides key p f pre' d' (post' ++ todo) := by
      intro hd pre' d' post' hsplit
      rcases List.eq_nil_or_concat post' with rfl | ⟨l, a, rfl⟩
      · obtain ⟨rfl, hlast⟩ := List.append_inj' hsplit rfl
        obtain rfl := List.singleton_inj.mp hlast
        exact hd
      · rw [List.concat_eq_append, ← List.cons_append, ← List.append_assoc] at hsplit
        obtain ⟨hinit, hlast⟩ := List.append_inj' hsplit rfl
        obtain rfl := List.singleton_inj.mp hlast
        simpa using hpre pre' d' l hinit
    have hassoc : pre ++ d :: todo = (pre ++ [d]) ++ todo := by simp
    by_cases hp : p d = true
    · by_cases hk : key (f d) ∈ (done ++ todo).map key
      · rw [updateFrom, dif_pos hp, dif_pos hk]
        exact Or.inr ⟨rfl, pre, d, todo, ⟨rfl, ⟨hp, hdone ▸ hk⟩, hpre⟩,
          congrArg (· ++ d :: todo) hdone⟩
      · rw [updateFrom, dif_pos hp, dif_neg hk, hassoc]
        refine ih (pre ++ [d]) _ _ ?_ (hpass fun hc => hk (hdone ▸ hc.taken))
        simp [hdone, updated, hp]
    · rw [updateFrom, dif_neg hp, hassoc]
      refine ih (pre ++ [d]) _ _ ?_ (hpass fun hc => hp hc.selected)
      simp [hdone, updated, hp]

/-- A bulk update passes over the documents that are not selected. -/
theorem updateFrom_append {todo : List α} (htodo : ∀ d ∈ todo, p d = false) (done rest : List α)
    (h : ((done ++ (todo ++ rest)).map key).Nodup) (h' : (((done ++ todo) ++ rest).map key).Nodup) :
    updateFrom p f done (todo ++ rest) h = updateFrom p f (done ++ todo) rest h' := by
  induction todo generalizing done with
  | nil => simp only [List.nil_append, List.append_nil]
  | cons d todo ih =>
    have hd : ¬ p d = true := by rw [htodo d List.mem_cons_self]; decide
    have hassoc : done ++ d :: todo = (done ++ [d]) ++ todo := by simp
    simp only [hassoc] at h' ⊢
    rw [← ih (fun e he => htodo e (List.mem_cons_of_mem d he)) (done ++ [d])
      (by simpa using h) h']
    simp only [List.cons_append, updateFrom, dif_neg hd]

theorem docs_updateFrom_unselected {todo : List α} (htodo : ∀ d ∈ todo, p d = false) (done : List α)
    (h : ((done ++ todo).map key).Nodup) :
    (updateFrom p f done todo h).1.docs = done ++ todo := by
  induction todo generalizing done with
  | nil => rw [updateFrom, List.append_nil]
  | cons d todo ih =>
    have hd : ¬ p d = true := by rw [htodo d List.mem_cons_self]; decide
    rw [updateFrom, dif_neg hd, ih (fun e he => htodo e (List.mem_cons_of_mem d he)),
      List.append_assoc, List.singleton_append]

/-- The update of the one document that is selected. -/
theorem updateAll_single {c : Indexed key} {pre post : List α} {d : α}
    (hdocs : c.docs = pre ++ d :: post) (hd : p d = true) (hpre : ∀ e ∈ pre, p e = false)
    (hpost : ∀ e ∈ post, p e = false) :
    (key (f d) ∉ (pre ++ post).map key ∧ (c.updateAll p f).1.docs = pre ++ f d :: post) ∨
      key (f d) ∈ (pre ++ post).map key ∧ (c.updateAll p f).1.docs = c.docs := by
  obtain ⟨docs, hunique⟩ := c
  obtain rfl : docs = pre ++ d :: post := hdocs
  have hrun : Indexed.updateAll ⟨pre ++ d :: post, hunique⟩ p f =
      updateFrom p f pre (d :: post) hunique := updateFrom_append hpre [] _ hunique hunique
  rw [hrun, updateFrom, dif_pos hd]
  by_cases hk : key (f d) ∈ (pre ++ post).map key
  · rw [dif_pos hk]
    exact Or.inr ⟨hk, rfl⟩
  · rw [dif_neg hk]
    refine Or.inl ⟨hk, ?_⟩
    rw [docs_updateFrom_unselected hpost, List.append_assoc, List.singleton_append]

/-- A bulk update updates everything that is selected, if there is no collision; otherwise it stops
at the first. -/
theorem updateAll_cases (c : Indexed key) (p : α → Bool) (f : α → α) :
    ((c.updateAll p f).2 = true ∧ (c.updateAll p f).1.docs = c.docs.map (updated p f) ∧
      ∀ pre d post, c.docs = pre ++ d :: post → ¬ Collides key p f pre d post) ∨
    ((c.updateAll p f).2 = false ∧ ∃ pre d post, FirstCollision key p f c.docs pre d post ∧
      (c.updateAll p f).1.docs = pre.map (updated p f) ++ d :: post) :=
  updateFrom_cases c.docs [] [] c.unique rfl (by simp)

end Updates

end Indexed

end YulongHids.Mongo
