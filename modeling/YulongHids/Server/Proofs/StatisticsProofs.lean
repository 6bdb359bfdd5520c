import YulongHids.Golang.Proofs.StringsProofs
import YulongHids.Server.FirstSeen

/-!
# Proofs: the statistics

A batch adds to the counter of each value the number of times the value occurs in it.
-/

namespace YulongHids.Server

open Golang Mongo

theorem cutPort_eq (s : GoString) : cutPort s = s.takeWhile (· != 58) := split_headD s 58

theorem cutPort_cutPort (s : GoString) : cutPort (cutPort s) = cutPort s := by
  simp [cutPort_eq, List.takeWhile_idem]

@[simp] theorem statRecord_get (type k : GoString) (v : Record) :
    (statRecord type k v).get k = mainValue type k v := by
  unfold statRecord mainValue
  split <;> simp

theorem statCount_eq_none_iff {c : Statistics} {type info : GoString} :
    statCount c type info = none ↔ ∀ d ∈ c, ¬ (d.type = type ∧ d.info = info) := by
  simp [statCount, one, statSelector]

theorem statCount_statValue (c : Statistics) (type info w ip : GoString) (uptime : ℕ) :
    statCount (statValue c type info ip uptime) type w =
      if w = info then some ((statCount c type info).getD 0 + 1) else statCount c type w := by
  unfold statValue statCount
  by_cases hw : w = info
  · subst hw
    rw [if_pos rfl]
    by_cases hc : 1 ≤ count c (statSelector type w)
    · obtain ⟨d, hd⟩ := Option.isSome_iff_exists.mp (one_le_count_iff.mp hc)
      rw [if_pos hc, one_update_self (by simp [statSelector, statUpdate]), hd]
      rfl
    · have hnone : one c (statSelector type w) = none := by
        simpa using mt one_le_count_iff.mpr hc
      rw [if_neg hc, one_insert, hnone]
      simp [statSelector]
  · rw [if_neg hw]
    by_cases hc : 1 ≤ count c (statSelector type info)
    · rw [if_pos hc, one_update_disjoint]
      intro d hd
      simp only [statSelector, Bool.and_eq_true, beq_iff_eq] at hd
      simp [statSelector, statUpdate, hd, Ne.symm hw]
    · rw [if_neg hc, one_insert]
      simp [statSelector, Ne.symm hw]

theorem statCount_statLoop (type k w ip : GoString) (uptime : ℕ) (data : List Record)
    (c : Statistics) :
    statCount (statLoop type k ip uptime c data) type w =
      if w ∈ data.map (mainValue type k) then
        some ((statCount c type w).getD 0 + ((data.map (mainValue type k)).count w : ℕ))
      else statCount c type w := by
  induction data generalizing c with
  | nil => simp [statLoop]
  | cons v data ih =>
    rw [statLoop, ih, statRecord_get, statCount_statValue]
    by_cases hw : w = mainValue type k v
    · subst hw
      by_cases hin : mainValue type k v ∈ data.map (mainValue type k)
      · simp only [hin, if_true, List.map_cons, List.mem_cons_self, Option.getD_some,
          List.count_cons_self, Option.some.injEq]
        push_cast
        ring
      · simp [hin, List.count_eq_zero.mpr hin]
    · simp only [List.map_cons, List.mem_cons, hw, false_or, if_false,
        List.count_cons_of_ne (Ne.symm hw)]

end YulongHids.Server
