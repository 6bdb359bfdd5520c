import YulongHids.Golang.Proofs.DateProofs
import YulongHids.Server.EsIndex

/-!
# Proofs: the indices of Elasticsearch

The index of a month is there when its last days come, prepared in the month before, so the check of
the last days gets to the preparation of the next one.
-/

namespace YulongHids.Server

open Golang

section Check

variable {s : EsState} {c : EsCheck}

theorem nowIndex_eq (date : Date) : nowIndex date = monthIndexName date.monthIndex := by
  rw [nowIndex, formatMonth_eq, monthIndexName]

theorem nextIndex_eq_iff (date : Date) :
    nextIndex date = monthIndexName (date.monthIndex + 1) ↔ date.FitsNextMonth := by
  rw [nextIndex, monthIndexName, List.append_cancel_left_eq, formatMonth_addMonth_iff]

/-- A check removes no index. -/
theorem subset_esCheck : s.indices ⊆ (esCheck s c).indices := by
  have hnew : ∀ (t : EsState) created name, t.indices = s.indices →
      s.indices ⊆ (newIndex t created name).indices := by
    intro t created name ht x hx
    rw [← ht] at hx
    rw [newIndex]
    split
    · exact List.mem_cons_of_mem _ hx
    · exact hx
  unfold esCheck
  dsimp only
  split_ifs
  · exact List.Subset.refl _
  · exact List.Subset.refl _
  · exact hnew _ _ _ rfl
  · exact List.Subset.refl _
  · exact hnew _ _ _ rfl

/-- A check of the last days that is carried out, with the index of its month there, prepares the
name that it computes. -/
theorem mem_esCheck {k : ℤ} (hexec : c.Executes k) (hnow : monthIndexName k ∈ s.indices) :
    nextIndex c.date ∈ (esCheck s c).indices := by
  obtain ⟨hlisted, hcreated, hmonth, hlate⟩ := hexec
  have hmem : nowIndex c.date ∈ s.indices := by
    rw [nowIndex_eq, hmonth]
    exact hnow
  unfold esCheck
  dsimp only
  rw [if_neg (by simp [hlisted]), if_pos hmem, if_pos hlate]
  by_cases hnext : nextIndex c.date ∈ s.indices
  · rw [if_neg (not_not.mpr hnext)]
    exact hnext
  · rw [if_pos hnext, newIndex, hcreated, if_pos rfl]
    exact List.mem_cons_self

theorem mem_esInit (indices : List GoString) (date : Date) :
    monthIndexName date.monthIndex ∈ (esInit indices date).indices := by
  unfold esInit
  dsimp only
  rw [nowIndex_eq]
  split
  · exact List.mem_cons_self
  · next h => exact not_not.mp h

end Check

section Run

variable {r : EsRun}

theorem after_concat (pre : List EsCheck) (c : EsCheck) :
    r.after (pre ++ [c]) = esCheck (r.after pre) c := by
  rw [EsRun.after, List.foldl_append]
  rfl

/-- The months from the start up to `k` have had a check of their last days. -/
def LateChecked (r : EsRun) (pre : List EsCheck) (k : ℤ) : Prop :=
  ∀ j, r.start.monthIndex ≤ j → j ≤ k → ∃ c ∈ pre, c.Executes j

/-- No check before a late one of month `j` is of a later month. -/
theorem monthIndex_le_of_before {pre post : List EsCheck} {c d : EsCheck} {j : ℤ}
    (hsplit : r.checks = pre ++ c :: post) (hexec : c.Executes j) (hd : d ∈ pre) :
    d.date.monthIndex ≤ j := by
  have hordered := (List.pairwise_cons.mp r.ordered).2
  rw [hsplit, List.map_append, List.pairwise_append] at hordered
  have hle := hordered.2.2 _ (List.mem_map_of_mem hd) _ (List.mem_map_of_mem List.mem_cons_self)
  rwa [hexec.month] at hle

/-- Where one more check makes the months up to `k` late checked, it is the check of month `k`. -/
theorem lateChecked_concat {pre post : List EsCheck} {c : EsCheck} {k : ℤ}
    (hsplit : r.checks = pre ++ c :: post) (hk : r.start.monthIndex ≤ k)
    (hlate : LateChecked r (pre ++ [c]) k) (hpre : ¬ LateChecked r pre k) :
    c.Executes k ∧ LateChecked r pre (k - 1) := by
  have hsplitLate : ∀ j, r.start.monthIndex ≤ j → j ≤ k → (∃ d ∈ pre, d.Executes j) ∨ c.Executes j := by
    intro j hj0 hjk
    obtain ⟨d, hd, hdj⟩ := hlate j hj0 hjk
    rcases List.mem_append.mp hd with hd | hd
    · exact Or.inl ⟨d, hd, hdj⟩
    · exact Or.inr (List.mem_singleton.mp hd ▸ hdj)
  obtain ⟨j, hj⟩ : ∃ j, ¬ (r.start.monthIndex ≤ j → j ≤ k → ∃ d ∈ pre, d.Executes j) :=
    not_forall.mp hpre
  obtain ⟨hj0, hj⟩ := Classical.not_imp.mp hj
  obtain ⟨hjk, hj⟩ := Classical.not_imp.mp hj
  have hexec : c.Executes j := (hsplitLate j hj0 hjk).resolve_left hj
  obtain rfl : j = k := by
    by_contra hne
    rcases hsplitLate k hk le_rfl with ⟨d, hd, hdk⟩ | hck
    · have hle := monthIndex_le_of_before hsplit hexec hd
      rw [hdk.month] at hle
      omega
    · exact hne (hexec.month.symm.trans hck.month)
  refine ⟨hexec, fun i hi0 hij => ?_⟩
  rcases hsplitLate i hi0 (by omega) with hd | hci
  · exact hd
  · have hmonth := hexec.month.symm.trans hci.month
    omega

/-- The index behind the last of these months is there, as well as that of the start. -/
theorem prepared_after (hfit : ∀ c ∈ r.checks, 28 ≤ c.date.day → c.date.FitsNextMonth)
    {pre post : List EsCheck} (hsplit : r.checks = pre ++ post) :
    monthIndexName r.start.monthIndex ∈ (r.after pre).indices ∧
      ∀ k, r.start.monthIndex ≤ k → LateChecked r pre k →
        monthIndexName (k + 1) ∈ (r.after pre).indices := by
  induction pre using List.reverseRecOn generalizing post with
  | nil =>
    refine ⟨mem_esInit _ _, ?_⟩
    intro k hk hlate
    obtain ⟨c, hc, -⟩ := hlate k hk le_rfl
    cases hc
  | append_singleton pre c ih =>
    have hsplit' : r.checks = pre ++ c :: post := by rw [hsplit]; simp
    obtain ⟨hstart, hprepared⟩ := ih hsplit'
    rw [after_concat]
    refine ⟨subset_esCheck hstart, ?_⟩
    intro k hk hlate
    by_cases hpre : LateChecked r pre k
    · exact subset_esCheck (hprepared k hk hpre)
    obtain ⟨hexec, hlast⟩ := lateChecked_concat hsplit' hk hlate hpre
    -- the index of month `k` is that of the start, or was made in the month before
    have hnow : monthIndexName k ∈ (r.after pre).indices := by
      rcases eq_or_lt_of_le hk with heq | hlt
      · rw [← heq]
        exact hstart
      · have hindex := hprepared (k - 1) (by omega) hlast
        rwa [sub_add_cancel] at hindex
    have hmem := mem_esCheck hexec hnow
    have hfits := hfit c (by rw [hsplit']; simp) hexec.late
    rwa [(nextIndex_eq_iff c.date).mpr hfits, hexec.month] at hmem

end Run

/-- In a run the checks of the last days prepare the next month if and only if the next month has
the day of each of them. -/
theorem next_index_prepared_iff (r : EsRun) :
    NextIndexPrepared r ↔ ∀ c ∈ r.checks, 28 ≤ c.date.day → c.date.FitsNextMonth := by
  constructor
  · intro h c hc hlate
    exact (nextIndex_eq_iff c.date).mp (h.names c hc hlate)
  · intro h
    refine ⟨fun c hc hlate => (nextIndex_eq_iff c.date).mpr (h c hc hlate), ?_⟩
    intro pre post k hsplit hk hlate
    exact (prepared_after h hsplit).2 k hk hlate

/-- The server is started in the middle of January, and the one check is on its last day. -/
def januaryRun : EsRun where
  indices := []
  start := ⟨2023, 1, 15, by decide, by decide⟩
  checks := [⟨⟨2023, 1, 31, by decide, by decide⟩, true, true⟩]
  ordered := by decide

/-- The index of March is prepared, and that of February is not there. -/
theorem next_index_missing :
    (januaryRun.after januaryRun.checks).indices = [str "monitor2023_03", str "monitor2023_01"] ∧
      ¬ NextIndexPrepared januaryRun := by
  have hnext : nextIndex ⟨2023, 1, 31, by decide, by decide⟩ = str "monitor2023_03" := by
    rw [nextIndex, formatMonth_eq, monthIndex_addMonth, if_neg (by decide)]
    decide +kernel
  constructor
  · have hinit : esInit [] januaryRun.start = ⟨str "monitor2023_01", [str "monitor2023_01"]⟩ := by
      decide +kernel
    have hnow : nowIndex ⟨2023, 1, 31, by decide, by decide⟩ = str "monitor2023_01" := by
      decide +kernel
    have hafter : januaryRun.after januaryRun.checks = esCheck (esInit [] januaryRun.start)
        ⟨⟨2023, 1, 31, by decide, by decide⟩, true, true⟩ := rfl
    rw [hafter, hinit, esCheck]
    simp [hnow, hnext, newIndex]
  · rw [next_index_prepared_iff]
    intro h
    exact absurd (h _ List.mem_cons_self (by decide)) (by decide)

end YulongHids.Server
