import YulongHids.Transition.Run

/-!
# The last event of a run

What a state remembers of its run is proved by induction from the end of the run: the places of a
longer history are those of the shorter one and the last one.
-/

namespace YulongHids.Transition

section Places

variable {ε : Type*} {es pre post : List ε} {e x : ε}

/-- A place in a list and one event more is the last one, or it is in the list. -/
theorem place_concat (h : es ++ [e] = pre ++ x :: post) :
    (pre = es ∧ x = e ∧ post = []) ∨ ∃ post', post = post' ++ [e] ∧ es = pre ++ x :: post' := by
  rcases List.eq_nil_or_concat post with rfl | ⟨post', y, rfl⟩
  · obtain ⟨rfl, hx⟩ := List.append_inj' h rfl
    obtain ⟨rfl, -⟩ := List.cons.inj hx
    exact Or.inl ⟨rfl, rfl, rfl⟩
  · rw [List.concat_eq_append] at h ⊢
    have hassoc : es ++ [e] = (pre ++ x :: post') ++ [y] := by
      rw [h, List.append_assoc, List.cons_append]
    obtain ⟨rfl, hy⟩ := List.append_inj' hassoc rfl
    obtain ⟨rfl, -⟩ := List.cons.inj hy
    exact Or.inr ⟨post', rfl, rfl⟩

/-- A place in a list is one in any longer list. -/
theorem place_append (h : es = pre ++ x :: post) (es' : List ε) :
    es ++ es' = pre ++ x :: (post ++ es') := by
  rw [h, List.append_assoc, List.cons_append]

end Places

section Run

variable {σ ε : Type*} {step : σ → ε → Option σ} {s : σ} {e : ε} {es : List ε}

theorem run_concat_iff {t : σ} :
    run step s (es ++ [e]) = some t ↔ ∃ s', run step s es = some s' ∧ step s' e = some t := by
  rw [run_append_iff]
  refine exists_congr fun s' => and_congr_right fun _ => ?_
  rw [run_cons_iff]
  simp only [run_nil, Option.some.injEq, exists_eq_right]

/-- Induction over the events of a run, from the first to the last. -/
theorem run_induction {motive : List ε → σ → Prop} (hnil : motive [] s)
    (hconcat : ∀ es s' e t, run step s es = some s' → motive es s' → step s' e = some t →
      motive (es ++ [e]) t) {t : σ} (hrun : run step s es = some t) : motive es t := by
  induction es using List.reverseRecOn generalizing t with
  | nil =>
    rw [run_nil, Option.some.injEq] at hrun
    exact hrun ▸ hnil
  | append_singleton es e ih =>
    obtain ⟨s', hs', hstep⟩ := run_concat_iff.mp hrun
    exact hconcat es s' e t hs' (ih hs') hstep

/-- What the events of a run give, each at the state that it meets, in their order. -/
def collected {α : Type*} (step : σ → ε → Option σ) (f : σ → ε → List α) : σ → List ε → List α
  | _, [] => []
  | s, e :: es => f s e ++
    match step s e with
    | none => []
    | some s' => collected step f s' es

@[simp] theorem collected_nil {α : Type*} {f : σ → ε → List α} : collected step f s [] = [] := rfl

theorem collected_concat {α : Type*} {f : σ → ε → List α} {t : σ} (hrun : run step s es = some t)
    (e : ε) : collected step f s (es ++ [e]) = collected step f s es ++ f t e := by
  induction es generalizing s with
  | nil =>
    rw [run_nil, Option.some.injEq] at hrun
    subst hrun
    rw [List.nil_append, collected_nil, collected, List.nil_append]
    cases step s e <;> simp
  | cons x es ih =>
    obtain ⟨s', hs', hes⟩ := run_cons_iff.mp hrun
    rw [List.cons_append, collected, collected]
    simp only [hs']
    rw [ih hes, List.append_assoc]

end Run

end YulongHids.Transition
