import Mathlib.Tactic

/-!
# Runs of a transition system

A system is given by a partial step function `step : σ → ε → Option σ`; a run is a list of events
that are possible one after the other. `Along P` says that `P` holds of every event of a run
together with the state it meets. What one step keeps is carried to whole runs here, once.
-/

namespace YulongHids.Transition

variable {σ ε : Type*}

/-- The state after a list of events, `none` if one of them is not possible. -/
def run (step : σ → ε → Option σ) : σ → List ε → Option σ
  | s, [] => some s
  | s, e :: es =>
    match step s e with
    | none => none
    | some s' => run step s' es

/-- Every event of a run meets a state with `P`. -/
def Along (step : σ → ε → Option σ) (P : σ → ε → Prop) : σ → List ε → Prop
  | _, [] => True
  | s, e :: es => P s e ∧ ∀ s', step s e = some s' → Along step P s' es

section Run

variable {step : σ → ε → Option σ} {s s' : σ} {e : ε} {es es' : List ε}

@[simp] theorem run_nil : run step s [] = some s := rfl

theorem run_cons_iff {t : σ} :
    run step s (e :: es) = some t ↔ ∃ s', step s e = some s' ∧ run step s' es = some t := by
  rw [run]
  cases step s e with
  | none => simp
  | some s' => simp

/-- A step with a guard. -/
theorem guard_iff {c : Prop} [Decidable c] {t : σ} :
    (if c then some s else none) = some t ↔ c ∧ t = s := by
  rw [Option.ite_none_right_eq_some, Option.some_inj, eq_comm]

theorem run_append_iff {t : σ} :
    run step s (es ++ es') = some t ↔ ∃ s', run step s es = some s' ∧ run step s' es' = some t := by
  induction es generalizing s with
  | nil => simp
  | cons e es ih =>
    simp only [List.cons_append, run_cons_iff, ih]
    constructor
    · rintro ⟨s1, h1, s2, h2, h3⟩
      exact ⟨s2, ⟨s1, h1, h2⟩, h3⟩
    · rintro ⟨s2, ⟨s1, h1, h2⟩, h3⟩
      exact ⟨s1, h1, s2, h2, h3⟩

end Run

section Along

variable {step : σ → ε → Option σ} {s s' : σ} {e : ε} {es es' : List ε} {I : σ → Prop}
  {P Q R : σ → ε → Prop}

theorem along_cons_iff (hstep : step s e = some s') :
    Along step P s (e :: es) ↔ P s e ∧ Along step P s' es := by
  constructor
  · rintro ⟨h, hrest⟩
    exact ⟨h, hrest s' hstep⟩
  · rintro ⟨h, hrest⟩
    refine ⟨h, fun s1 h1 => ?_⟩
    obtain rfl : s' = s1 := Option.some.inj (hstep.symm.trans h1)
    exact hrest

theorem Along.cons (hstep : step s e = some s') (h : P s e) (hrest : Along step P s' es) :
    Along step P s (e :: es) :=
  (along_cons_iff hstep).mpr ⟨h, hrest⟩

theorem along_append_iff (hrun : run step s es = some s') :
    Along step P s (es ++ es') ↔ Along step P s es ∧ Along step P s' es' := by
  induction es generalizing s with
  | nil =>
    obtain rfl : s = s' := Option.some.inj hrun
    simp [Along]
  | cons e es ih =>
    obtain ⟨s1, h1, h2⟩ := run_cons_iff.mp hrun
    rw [List.cons_append, along_cons_iff h1, along_cons_iff h1, ih h2, and_assoc]

theorem along_true (s : σ) (es : List ε) : Along step (fun _ _ => True) s es := by
  induction es generalizing s with
  | nil => trivial
  | cons e es ih => exact ⟨trivial, fun s' _ => ih s'⟩

/-- What holds along a run holds of the event after any of its first parts. -/
theorem Along.after (es : List ε) (e : ε) (es' : List ε) (h : Along step P s (es ++ e :: es'))
    (hrun : run step s es = some s') : P s' e := by
  induction es generalizing s with
  | nil =>
    rw [run_nil, Option.some.injEq] at hrun
    exact hrun ▸ h.1
  | cons e' es ih =>
    obtain ⟨s1, h1, h2⟩ := run_cons_iff.mp hrun
    exact ih (h.2 s1 h1) h2

/-- What every step that meets a state with `P` keeps, a run along `P` keeps. -/
theorem Along.invariant (hstep : ∀ s e s', I s → P s e → step s e = some s' → I s')
    (h0 : I s) (hP : Along step P s es) (hrun : run step s es = some s') : I s' := by
  induction es generalizing s with
  | nil =>
    rw [run_nil, Option.some.injEq] at hrun
    exact hrun ▸ h0
  | cons e es ih =>
    obtain ⟨s1, h1, h2⟩ := run_cons_iff.mp hrun
    exact ih (hstep s e s1 h0 hP.1 h1) (hP.2 s1 h1) h2

/-- What every step keeps, a run keeps. -/
theorem run_invariant (hstep : ∀ s e s', I s → step s e = some s' → I s') (h0 : I s)
    (hrun : run step s es = some s') : I s' :=
  Along.invariant (P := fun _ _ => True) (fun s e s' h _ => hstep s e s' h) h0 (along_true _ _) hrun

/-- What holds in every state of a run holds after each of its steps. -/
theorem forall_reached_iff (h0 : I s) :
    (∀ es1 s', es1 <+: es → run step s es1 = some s' → I s') ↔
      Along step (fun s e => ∀ s', step s e = some s' → I s') s es := by
  induction es generalizing s with
  | nil =>
    refine ⟨fun _ => trivial, fun _ es1 s' hes1 hrun => ?_⟩
    obtain rfl := List.prefix_nil.mp hes1
    exact Option.some.inj hrun ▸ h0
  | cons e es ih =>
    constructor
    · intro hall
      have hnext : ∀ s', step s e = some s' → I s' := fun s' hstep =>
        hall [e] s' (List.prefix_cons_iff.mpr (Or.inr ⟨[], rfl, List.nil_prefix⟩))
          (run_cons_iff.mpr ⟨s', hstep, rfl⟩)
      refine ⟨hnext, fun s1 h1 => (ih (hnext s1 h1)).mp fun es1 s' hes1 hrun => ?_⟩
      exact hall (e :: es1) s' (List.prefix_cons_iff.mpr (Or.inr ⟨es1, rfl, hes1⟩))
        (run_cons_iff.mpr ⟨s1, h1, hrun⟩)
    · rintro ⟨hnext, hrest⟩ es1 s' hes1 hrun
      rcases List.prefix_cons_iff.mp hes1 with rfl | ⟨es2, rfl, hes2⟩
      · exact Option.some.inj hrun ▸ h0
      · obtain ⟨s1, h1, h2⟩ := run_cons_iff.mp hrun
        exact (ih (hnext s1 h1)).mpr (hrest s1 h1) es2 s' hes2 h2

/-- An invariant of the runs along `P` turns `P` into what it implies under the invariant. -/
theorem Along.of_invariant (hstep : ∀ s e s', I s → P s e → step s e = some s' → I s')
    (hPQ : ∀ s e, I s → P s e → Q s e) (h0 : I s) (hP : Along step P s es) :
    Along step Q s es := by
  induction es generalizing s with
  | nil => trivial
  | cons e es ih =>
    refine ⟨hPQ s e h0 hP.1, fun s1 h1 => ?_⟩
    exact ih (hstep s e s1 h0 hP.1 h1) (hP.2 s1 h1)

/-- Two conditions that agree under an invariant hold along the same runs. The runs may be restricted
to those along `R`, and it is enough that the events that meet one of the conditions keep the
invariant. -/
theorem along_iff_of_invariant (hR : Along step R s es)
    (hstep : ∀ s e s', I s → R s e → P s e → step s e = some s' → I s')
    (hPQ : ∀ s e s', I s → R s e → step s e = some s' → (P s e ↔ Q s e)) (h0 : I s)
    (hrun : run step s es = some s') : Along step P s es ↔ Along step Q s es := by
  induction es generalizing s with
  | nil => exact Iff.rfl
  | cons e es ih =>
    obtain ⟨s1, h1, h2⟩ := run_cons_iff.mp hrun
    rw [along_cons_iff h1, along_cons_iff h1, hPQ s e s1 h0 hR.1 h1]
    refine and_congr_right fun hQ => ?_
    have hP : P s e := (hPQ s e s1 h0 hR.1 h1).mpr hQ
    exact ih (hR.2 s1 h1) (hstep s e s1 h0 hR.1 hP h1) h2

/-- A run that is not along `P` has a first part along `P`, an event without it, and a rest. -/
theorem exists_first_of_not_along (hrun : run step s es = some s') (hP : ¬ Along step P s es) :
    ∃ es1 e es2 s1 s2, es = es1 ++ e :: es2 ∧ run step s es1 = some s1 ∧ Along step P s es1 ∧
      ¬ P s1 e ∧ step s1 e = some s2 ∧ run step s2 es2 = some s' := by
  induction es generalizing s with
  | nil => exact absurd trivial hP
  | cons e es ih =>
    obtain ⟨t, h1, h2⟩ := run_cons_iff.mp hrun
    rw [along_cons_iff h1, not_and] at hP
    by_cases hhere : P s e
    · obtain ⟨es1, e', es2, s1, s2, rfl, hr1, ha1, hn1, hs1, hr2⟩ := ih h2 (hP hhere)
      exact ⟨e :: es1, e', es2, s1, s2, rfl, run_cons_iff.mpr ⟨t, h1, hr1⟩,
        Along.cons h1 hhere ha1, hn1, hs1, hr2⟩
    · exact ⟨[], e, es, s, t, rfl, rfl, trivial, hhere, h1, h2⟩

end Along

section Places

variable {α : Type*} {Q : List α → α → Prop} {a : α} {l : List α}

/-- The places of a list: the first one, and those of the rest. -/
theorem exists_split_cons :
    (∃ pre x post, a :: l = pre ++ x :: post ∧ Q pre x) ↔
      Q [] a ∨ ∃ pre x post, l = pre ++ x :: post ∧ Q (a :: pre) x := by
  constructor
  · rintro ⟨pre, x, post, hsplit, hq⟩
    rcases pre with _ | ⟨b, pre⟩
    · obtain ⟨rfl, -⟩ := List.cons.inj hsplit
      exact Or.inl hq
    · obtain ⟨rfl, hl⟩ := List.cons.inj hsplit
      exact Or.inr ⟨pre, x, post, hl, hq⟩
  · rintro (hq | ⟨pre, x, post, rfl, hq⟩)
    · exact ⟨[], a, l, rfl, hq⟩
    · exact ⟨a :: pre, x, post, rfl, hq⟩

theorem forall_split_cons :
    (∀ pre x post, a :: l = pre ++ x :: post → Q pre x) ↔
      Q [] a ∧ ∀ pre x post, l = pre ++ x :: post → Q (a :: pre) x := by
  have h := exists_split_cons (Q := fun pre x => ¬ Q pre x) (a := a) (l := l)
  rw [← not_iff_not, not_and_or]
  push Not
  exact h

end Places

end YulongHids.Transition
