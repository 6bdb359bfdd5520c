import Mathlib.Tactic

/-!
# Functions with one clean-up label

A function that jumps to one label at each of its failures is a list of blocks over its variables: a
block goes on (`ok`) or jumps to the label (`error`), with the variables as it leaves them. What each
block keeps holds at the label; a property that one block alone can break is decided there.
-/

namespace YulongHids.Transition

variable {σ α : Type*}

/-- A piece of a function with a clean-up label. -/
abbrev Block (σ : Type*) := σ → Except σ σ

/-- The variables as a block leaves them, where it goes on and where it jumps. -/
def leaves : Except σ σ → σ
  | .ok s => s
  | .error s => s

@[simp] theorem leaves_ok (s : σ) : leaves (.ok s) = s := rfl

@[simp] theorem leaves_error (s : σ) : leaves (.error s) = s := rfl

/-- One block after the other, until one jumps. -/
def runBlocks : List (Block σ) → Block σ
  | [], s => .ok s
  | b :: bs, s =>
    match b s with
    | .ok s' => runBlocks bs s'
    | .error s' => .error s'

/-- A block keeps `I`, whichever way it goes. -/
def Keeps (I : σ → Prop) (b : Block σ) : Prop := ∀ s, I s → I (leaves (b s))

section

variable {I P : σ → Prop} {b : Block σ} {bs cs : List (Block σ)} {s t : σ}

theorem runBlocks_ok_cons (h : b s = .ok t) : runBlocks (b :: bs) s = runBlocks bs t := by
  rw [runBlocks, h]

theorem runBlocks_error_cons (h : b s = .error t) : runBlocks (b :: bs) s = .error t := by
  rw [runBlocks, h]

/-- A run over a concatenation goes on with the second part after an ordinary end of the first. -/
theorem runBlocks_append : runBlocks (bs ++ cs) s = (runBlocks bs s).bind (runBlocks cs) := by
  induction bs generalizing s with
  | nil => rfl
  | cons b bs ih =>
    cases hb : b s with
    | ok s' => rw [List.cons_append, runBlocks_ok_cons hb, runBlocks_ok_cons hb, ih]
    | error s' =>
      rw [List.cons_append, runBlocks_error_cons hb, runBlocks_error_cons hb]
      rfl

theorem runBlocks_append_of_ok (h : runBlocks bs s = .ok t) :
    runBlocks (bs ++ cs) s = runBlocks cs t := by
  rw [runBlocks_append, h]
  rfl

theorem runBlocks_append_of_error (h : runBlocks bs s = .error t) :
    runBlocks (bs ++ cs) s = .error t := by
  rw [runBlocks_append, h]
  rfl

theorem runBlocks_nil_ok_iff : runBlocks [] s = .ok t ↔ s = t := by
  rw [runBlocks, Except.ok.injEq]

theorem runBlocks_append_ok_iff :
    runBlocks (bs ++ cs) s = .ok t ↔ ∃ s', runBlocks bs s = .ok s' ∧ runBlocks cs s' = .ok t := by
  cases hrun : runBlocks bs s with
  | ok s' => rw [runBlocks_append_of_ok hrun]; simp
  | error s' => rw [runBlocks_append_of_error hrun]; simp

/-- A run goes on through its first block and then through the others. -/
theorem runBlocks_cons_ok_iff :
    runBlocks (b :: bs) s = .ok t ↔ ∃ s', b s = .ok s' ∧ runBlocks bs s' = .ok t := by
  cases hb : b s with
  | ok s' => rw [runBlocks_ok_cons hb]; simp
  | error s' => rw [runBlocks_error_cons hb]; simp

/-- What every block keeps, the function keeps up to its label. -/
theorem runBlocks_keeps (h : ∀ b ∈ bs, Keeps I b) : Keeps I (runBlocks bs) := by
  induction bs with
  | nil => exact fun s hs => hs
  | cons b bs ih =>
    intro s hs
    have hb := h b List.mem_cons_self s hs
    cases hbs : b s with
    | ok s' =>
      rw [hbs] at hb
      rw [runBlocks_ok_cons hbs]
      exact ih (fun c hc => h c (List.mem_cons_of_mem b hc)) s' hb
    | error s' =>
      rw [hbs] at hb
      rw [runBlocks_error_cons hbs]
      exact hb

/-- A property that no block after `b` touches, and that holds at the label for the blocks before `b`,
is decided by `b`, where the run comes to it. -/
theorem leaves_runBlocks_iff (hbs : P (leaves (runBlocks bs s)))
    (hcs : ∀ c ∈ cs, ∀ t, P (leaves (c t)) ↔ P t) :
    P (leaves (runBlocks (bs ++ b :: cs) s)) ↔
      ∀ t, runBlocks bs s = .ok t → P (leaves (b t)) := by
  have hrest : ∀ t, P (leaves (runBlocks cs t)) ↔ P t := by
    intro t
    constructor
    · contrapose
      exact runBlocks_keeps (I := fun t => ¬ P t) (fun c hc u hu => mt (hcs c hc u).mp hu) t
    · exact runBlocks_keeps (fun c hc u => (hcs c hc u).mpr) t
  cases hrun : runBlocks bs s with
  | error t =>
    rw [hrun] at hbs
    rw [runBlocks_append_of_error hrun]
    simpa using hbs
  | ok t =>
    rw [runBlocks_append_of_ok hrun]
    have hb : P (leaves (runBlocks (b :: cs) t)) ↔ P (leaves (b t)) := by
      cases hbt : b t with
      | ok u => rw [runBlocks_ok_cons hbt]; exact hrest u
      | error u => rw [runBlocks_error_cons hbt]
    rw [hb]
    simp

/-- What a run adds to a record of it is a part of what its blocks can add, in their order. -/
theorem runBlocks_sublist {record : σ → List α} {ps : List (Block σ × List α)}
    (h : ∀ p ∈ ps, ∀ s, ∃ added, added.Sublist p.2 ∧
      record (leaves (p.1 s)) = record s ++ added) (s : σ) :
    ∃ added, added.Sublist (ps.flatMap Prod.snd) ∧
      record (leaves (runBlocks (ps.map Prod.fst) s)) = record s ++ added := by
  induction ps generalizing s with
  | nil => exact ⟨[], by simp, by simp [runBlocks]⟩
  | cons p ps ih =>
    obtain ⟨added, hadded, hp⟩ := h p List.mem_cons_self s
    rw [List.map_cons, List.flatMap_cons]
    cases hps : p.1 s with
    | error s' =>
      rw [hps] at hp
      rw [runBlocks_error_cons hps]
      exact ⟨added, hadded.trans (List.sublist_append_left _ _), hp⟩
    | ok s' =>
      rw [hps] at hp
      obtain ⟨more, hmore, hrun⟩ := ih (fun q hq => h q (List.mem_cons_of_mem p hq)) s'
      refine ⟨added ++ more, hadded.append hmore, ?_⟩
      rw [runBlocks_ok_cons hps, hrun]
      rw [show record s' = record s ++ added from hp, List.append_assoc]

end

end YulongHids.Transition
