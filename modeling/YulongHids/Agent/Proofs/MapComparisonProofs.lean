import YulongHids.Agent.Proofs.GetInfoProofs

/-!
# Proofs: the comparison of two snapshots

`mapComparison` looks up the entries of the new records in the old ones. It does not see a key that
is gone, nor a new key with the empty string, which is also what a missing key gives.
-/

namespace YulongHids.Agent

open Golang Server

/-! ## One record -/

theorem lookup_eq_some_iff_mem_entries {v : Record} {key x : GoString} :
    v.lookup key = some x ↔ (⟨key, x⟩ : Sigma fun _ : GoString => GoString) ∈ v.entries :=
  AList.mem_lookup_iff

theorem entryChanged_iff {o v : Record} :
    EntryChanged o v ↔ ¬ ∀ e ∈ v.entries, e.2 = Record.get o e.1 := by
  rw [not_forall]
  constructor
  · rintro ⟨key, x, hv, hdiff⟩
    refine ⟨⟨key, x⟩, fun h => ?_⟩
    have hget := h (lookup_eq_some_iff_mem_entries.mp hv)
    rw [Record.get] at hget
    rcases hdiff with ⟨y, hy, hne⟩ | ⟨hnone, hne⟩
    · rw [hy, Option.getD_some] at hget
      exact hne hget.symm
    · rw [hnone, Option.getD_none] at hget
      exact hne hget
  · rintro ⟨⟨key, x⟩, h⟩
    obtain ⟨hmem, hne⟩ := Classical.not_imp.mp h
    refine ⟨key, x, lookup_eq_some_iff_mem_entries.mpr hmem, ?_⟩
    rw [Record.get] at hne
    cases ho : o.lookup key with
    | none =>
      rw [ho, Option.getD_none] at hne
      exact Or.inr ⟨rfl, hne⟩
    | some y =>
      rw [ho, Option.getD_some] at hne
      exact Or.inl ⟨y, rfl, Ne.symm hne⟩

theorem SameRecord.entries {o v : Record} (h : SameRecord o v) :
    ∀ e ∈ v.entries, e.2 = Record.get o e.1 := by
  rintro ⟨key, x⟩ hmem
  rw [Record.get, h key, lookup_eq_some_iff_mem_entries.mpr hmem, Option.getD_some]

/-! ## Snapshots -/

theorem changed_iff {new old : List Record} :
    Changed new old ↔ mapComparison new old = false := by
  rw [← Bool.not_eq_true, mapComparison_iff, List.forall₂_iff_get, not_and_or]
  refine or_congr_right ?_
  constructor
  · rintro ⟨i, v, o, hv, ho, hdiff⟩ hall
    obtain ⟨hi, rfl⟩ := List.getElem?_eq_some_iff.mp hv
    obtain ⟨hi', rfl⟩ := List.getElem?_eq_some_iff.mp ho
    exact entryChanged_iff.mp hdiff (hall i hi hi')
  · intro hall
    obtain ⟨i, hi⟩ := not_forall.mp hall
    obtain ⟨hnew, hi⟩ := not_forall.mp hi
    obtain ⟨hold, hdiff⟩ := not_forall.mp hi
    exact ⟨i, _, _, List.getElem?_eq_getElem hnew, List.getElem?_eq_getElem hold,
      entryChanged_iff.mpr hdiff⟩

theorem SameData.mapComparison {new old : List Record} (h : SameData old new) :
    mapComparison new old = true :=
  mapComparison_iff.mpr ((List.Forall₂.imp (fun _ _ hs => hs.entries) h).flip)

theorem mapComparison_imp_iff {new old : List Record} :
    (mapComparison new old = true → SameData old new) ↔ Changed new old ∨ SameKeys old new := by
  rw [changed_iff]
  cases hcmp : mapComparison new old with
  | false => simp
  | true => simp [sameData_iff hcmp]

/-- What `getInfo` sent last for a type, the empty list at first. -/
def InfoState.previous (s : InfoState) (k : GoString) : List Record :=
  (s.historyCache.lookup k).getD []

theorem noChange_imp_iff {s : InfoState} {k : GoString} {v : List Record} :
    (s.noChange k v = true → SameData (s.previous k) v) ↔
      if v = [] then s.previous k = [] else Changed v (s.previous k) ∨ SameKeys (s.previous k) v := by
  split
  · next hv =>
    subst hv
    rw [sameData_nil_right]
    exact ⟨fun h => h rfl, fun h _ => h⟩
  · next hv =>
    rw [← mapComparison_imp_iff, InfoState.noChange, ← InfoState.previous]
    simp [hv]

/-- The comparison of two snapshots is exact if and only if they differ in an entry that it sees or
not in their keys, and the snapshots that `getInfo` skips are the same as before if and only if that
holds of them, or they are empty and the one before was, too. -/
theorem mapComparison_exact_iff (new old : List Record) (s : InfoState) (k : GoString)
    (v : List Record) :
    ((mapComparison new old = true ↔ SameData old new) ↔ Changed new old ∨ SameKeys old new) ∧
    ((s.noChange k v = true → SameData (s.previous k) v) ↔
      if v = [] then s.previous k = []
      else Changed v (s.previous k) ∨ SameKeys (s.previous k) v) := by
  refine ⟨?_, noChange_imp_iff⟩
  rw [← mapComparison_imp_iff]
  exact ⟨Iff.mp, fun h => ⟨h, SameData.mapComparison⟩⟩

def shellRecord (value : String) : Record := (∅ : Record).insert (str "shell") (str value)

/-- A key that is gone and a new empty value are not seen. -/
theorem mapComparison_misses_keys :
    mapComparison [∅] [shellRecord "/bin/sh"] = true ∧
      mapComparison [shellRecord ""] [∅] = true ∧
      ¬ SameData [shellRecord "/bin/sh"] [∅] ∧
      ¬ SameData [∅] [shellRecord ""] := by
  refine ⟨by decide, by decide, fun h => ?_, fun h => ?_⟩
  · have hsame := (List.forall₂_cons.mp h).1 (str "shell")
    exact absurd hsame (by decide)
  · have hsame := (List.forall₂_cons.mp h).1 (str "shell")
    exact absurd hsame (by decide)

end YulongHids.Agent
