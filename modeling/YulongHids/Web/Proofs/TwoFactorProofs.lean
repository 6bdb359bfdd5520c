import YulongHids.Web.TwoFactor

/-!
# Proofs: two-factor authentication

A slot of the history that a request pops has the code already if the request is the seventh in its
period or later. `ChangeStatus` has no part in the history.
-/

namespace YulongHids.Web

open Golang

variable {c : Console} {serverside : ℕ} {h : PassHistory} {v : Visit} {visits : List Visit}

/-! ## The history -/

theorem PassHistory.exists_cons (h : PassHistory) : ∃ first rest, h.slots = first :: rest := by
  rcases hslots : h.slots with _ | ⟨first, rest⟩
  · have hlen := h.length_slots
    rw [hslots] at hlen
    simp at hlen
  · exact ⟨first, rest, rfl⟩

/-- Slots that were filled with the code let nothing through. -/
theorem countP_zip_append {α : Type*} {f : ℕ × α → Bool} {code : ℕ} (hf : ∀ a, f (code, a) = false)
    (slots : List ℕ) (l : List α) :
    ((slots ++ [code]).zip l).countP f = (slots.zip l).countP f := by
  induction slots generalizing l with
  | nil =>
    cases l with
    | nil => rfl
    | cons a l => simp [hf a]
  | cons slot slots ih =>
    cases l with
    | nil => rfl
    | cons a l => rw [List.cons_append, List.zip_cons_cons, List.zip_cons_cons, List.countP_cons,
        List.countP_cons, ih]

/-- A request that is not protected leaves the slots to the others. -/
theorem slotted_cons_of_neg (hv : (v.admitted c && v.guarded c) = false) :
    slotted c h (v :: visits) = slotted c h visits := by
  rw [slotted, List.filter_cons_of_neg (by simp [hv]), slotted]

/-- A protected request pops a slot and pushes the code. -/
theorem countP_slotted_cons {f : ℕ × Visit → Bool} (serverside : ℕ)
    (hf : ∀ v, f (serverside, v) = false) (hv : (v.admitted c && v.guarded c) = true) :
    (slotted c h (v :: visits)).countP f =
      (slotted c (h.push serverside).2 visits).countP f +
        if f ((h.push serverside).1, v) then 1 else 0 := by
  obtain ⟨first, rest, hslots⟩ := h.exists_cons
  simp only [slotted, PassHistory.push, hslots, List.headD_cons, List.tail_cons]
  rw [List.filter_cons_of_pos (by simp [hv]), List.zip_cons_cons, List.countP_cons,
    countP_zip_append hf]

theorem prepareTries_le (h : PassHistory) (visits : List Visit) :
    prepareTries c serverside h visits ≤ 6 := by
  refine le_trans List.countP_le_length ?_
  rw [slotted, List.length_zip, h.length_slots]
  exact Nat.min_le_left _ _

/-! ## One request -/

theorem length_changeStatus (v : Visit) :
    (changeStatus c v).length =
      if v.statusForm.any (fun form => form.id == str "all") && c.twoFactorAuth &&
        v.clientside.isSome then 1 else 0 := by
  rw [changeStatus]
  cases hform : v.statusForm with
  | none => rfl
  | some form =>
    by_cases hall : form.id = str "all"
    · have hlearn : ¬ (form.id = str "all_learn" ∧ form.status = 0) := by
        rw [hall, str_inj]
        simp
      have hlearn' : form.id ≠ str "learn" := by
        rw [hall, Ne, str_inj]
        simp
      dsimp only
      rw [if_neg hlearn, if_neg hlearn', if_pos hall]
      cases c.twoFactorAuth with
      | false => simp
      | true => cases hpass : v.clientside <;> simp [hall]
    · have hnone : (if form.id = str "all_learn" ∧ form.status = 0 then []
          else if form.id = str "learn" then []
          else if form.id = str "all" then if c.twoFactorAuth then v.clientside.toList else []
          else []) = [] := by
        rw [if_neg hall]
        split
        · rfl
        · split <;> rfl
      dsimp only
      rw [hnone]
      simp [hall]

theorem length_handler (passed : Bool) (v : Visit) :
    (if (passed && v.csrfPassed c) && decide (v.handler = .changeStatus) then changeStatus c v
      else []).length = if passed && v.changesAll c then 1 else 0 := by
  rw [Visit.changesAll]
  cases passed with
  | false => simp
  | true =>
    cases hcsrf : v.csrfPassed c with
    | false => simp
    | true =>
      by_cases hhandler : v.handler = .changeStatus
      · simp [hhandler, length_changeStatus]
      · simp [hhandler]

theorem serve_of_not_admitted (hv : v.admitted c = false) : serve c serverside h v = (h, []) := by
  simp [serve, prepare, hv]

theorem serve_of_not_guarded (serverside : ℕ) (h : PassHistory) (hv : v.admitted c = true)
    (hg : v.guarded c = false) :
    (serve c serverside h v).1 = h ∧
      (serve c serverside h v).2.length = if v.changesAll c then 1 else 0 := by
  have hserve : serve c serverside h v = (h, if (true && v.csrfPassed c) &&
      decide (v.handler = .changeStatus) then changeStatus c v else []) := by
    simp [serve, prepare, hv, hg]
  rw [hserve]
  exact ⟨rfl, length_handler true v⟩

theorem serve_of_guarded (serverside : ℕ) (h : PassHistory) (hv : v.admitted c = true)
    (hg : v.guarded c = true) :
    (serve c serverside h v).1 = (h.push serverside).2 ∧
      (serve c serverside h v).2.length =
        (if (h.push serverside).1 != serverside && v.clientside.isSome then 1 else 0) +
        if (h.push serverside).1 != serverside && v.clientside == some serverside &&
          v.changesAll c then 1 else 0 := by
  by_cases hfirst : (h.push serverside).1 = serverside
  · simp [serve, prepare, hv, hg, checkCode, hfirst]
  · cases hpass : v.clientside with
    | none => simp [serve, prepare, hv, hg, checkCode, hfirst, hpass]
    | some clientside =>
      have hlen := length_handler (c := c) (serverside == clientside) v
      simp only [serve, prepare, hv, hg, checkCode, hfirst, hpass, if_true, if_false,
        List.length_append, List.length_singleton, true_and]
      rw [hlen]
      have hcomm : (clientside == serverside) = (serverside == clientside) := Bool.beq_comm
      simp [hfirst, hcomm]

/-! ## Sequences of requests -/

theorem length_comparisons (h : PassHistory) (visits : List Visit) :
    (comparisons c serverside h visits).length =
      prepareTries c serverside h visits + statusTries c serverside h visits := by
  induction visits generalizing h with
  | nil => simp [comparisons, prepareTries, statusTries, slotted]
  | cons v visits ih =>
    simp only [comparisons, List.length_append, ih]
    cases hv : v.admitted c with
    | false =>
      simp [serve_of_not_admitted hv, prepareTries, statusTries, slotted_cons_of_neg, hv]
    | true =>
      cases hg : v.guarded c with
      | false =>
        obtain ⟨hhist, hlen⟩ := serve_of_not_guarded serverside h hv hg
        have hslotted : slotted c h (v :: visits) = slotted c h visits :=
          slotted_cons_of_neg (by simp [hg])
        rw [hhist, hlen]
        simp only [prepareTries, statusTries, hslotted, List.countP_cons, hv, hg]
        simp only [Bool.not_false, Bool.true_and]
        omega
      | true =>
        obtain ⟨hhist, hlen⟩ := serve_of_guarded serverside h hv hg
        have hboth : (v.admitted c && v.guarded c) = true := by rw [hv, hg]; rfl
        rw [hhist, hlen]
        simp only [prepareTries, statusTries]
        rw [countP_slotted_cons serverside (by simp) hboth,
          countP_slotted_cons serverside (by simp) hboth, List.countP_cons]
        simp only [hv, hg, Bool.not_true, Bool.and_false, Bool.false_and]
        simp only [Bool.false_eq_true, if_false]
        omega

/-- Where nothing reaches the comparison of `ChangeStatus`, the history bounds the tries. -/
theorem length_comparisons_le_of_history (serverside : ℕ) (h : PassHistory)
    (hnone : ∀ v ∈ visits, v.changesAll c = false) :
    (comparisons c serverside h visits).length ≤ 6 := by
  have hstatus : statusTries c serverside h visits = 0 := by
    rw [statusTries, Nat.add_eq_zero_iff, List.countP_eq_zero, List.countP_eq_zero]
    refine ⟨fun v hv => by simp [hnone v hv], fun p hp => ?_⟩
    have hmem : p.2 ∈ visits := (List.mem_filter.mp (List.of_mem_zip hp).2).1
    simp [hnone p.2 hmem]
  rw [length_comparisons, hstatus]
  exact prepareTries_le h visits

/-- At most six values are compared with a code if and only if no more are left for `ChangeStatus`
than the history has not used up. -/
theorem comparisons_le_six_iff (c : Console) (serverside : ℕ) (h : PassHistory)
    (visits : List Visit) :
    (comparisons c serverside h visits).length ≤ 6 ↔
      prepareTries c serverside h visits + statusTries c serverside h visits ≤ 6 := by
  rw [length_comparisons]

/-- A console with two-factor authentication. -/
def guardedConsole : Console := ⟨[], false, false, str "admin", true⟩

/-- The history when the console starts. -/
def freshHistory : PassHistory := ⟨[0, 0, 0, 0, 0, 0], rfl⟩

/-- The administrator's request to ignore all notices, with a guess of the code. -/
def ignoreAll (pass : String) : Visit where
  host := str "console"
  scheme := str "https"
  method := str "POST"
  url := str "/v1/notice"
  user := some (str "admin")
  pass := str pass
  cookieToken := str "t"
  headerToken := str "t"
  statusForm := some ⟨str "all", 2⟩
  editId := []
  handler := .changeStatus
  learn := false
  whiteID := []

/-- Seven guesses in one period. -/
theorem comparisons_seven :
    comparisons guardedConsole 123456 freshHistory
        (["1", "2", "3", "4", "5", "6", "7"].map ignoreAll) = [1, 2, 3, 4, 5, 6, 7] ∧
      ¬ (comparisons guardedConsole 123456 freshHistory
        (["1", "2", "3", "4", "5", "6", "7"].map ignoreAll)).length ≤ 6 := by
  decide

end YulongHids.Web
