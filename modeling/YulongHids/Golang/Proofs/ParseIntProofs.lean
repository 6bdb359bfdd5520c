import YulongHids.Golang.ParseInt
import YulongHids.Golang.Proofs.StringsProofs

/-!
# Proofs: integers in any base

`ParseInt` with base 0 reads back a number written in decimal without leading zeros, and rejects a
text that begins with neither a sign nor a digit.
-/

namespace YulongHids.Golang

theorem digitValue_digit {c : UInt8} (h : 48 ≤ c ∧ c ≤ 57) : digitValue c = some (c.toNat - 48) := by
  rw [digitValue, if_pos h]

/-- On decimal digits the loop does what the loop for base 10 does. -/
theorem digitLoop_ten {s : GoString} (hs : ∀ c ∈ s, 48 ≤ c ∧ c ≤ 57) {n m : ℕ}
    (h : parseDigits s n = .ok m) : digitLoop 10 s n false = .ok (m, false) := by
  induction s generalizing n with
  | nil =>
    rw [parseDigits, Except.ok.injEq] at h
    rw [digitLoop, h]
  | cons c s ih =>
    have hc := hs c List.mem_cons_self
    have hline : c ≠ 95 := by
      rintro rfl
      exact absurd hc.2 (by decide)
    have hdigit : ¬ (c < 48 ∨ 57 < c) := by
      rintro (hlt | hlt)
      · exact absurd hc.1 (UInt8.not_le.mpr hlt)
      · exact absurd hc.2 (UInt8.not_le.mpr hlt)
    have hten : ¬ 10 ≤ c.toNat - 48 := by
      have h57 : c.toNat ≤ 57 := hc.2
      omega
    rw [parseDigits, if_neg hdigit] at h
    simp only [digitLoop, if_neg hline, digitValue_digit hc, if_neg hten]
    split at h
    · exact absurd h (by simp)
    · next hrange =>
      rw [if_neg hrange]
      exact ih (fun c' h' => hs c' (List.mem_cons_of_mem c h')) h

theorem cutBase_itoa {n : ℕ} (hn : n ≠ 0) : cutBase (itoa n) = (10, itoa n) := by
  have hhead := head?_itoa hn
  unfold cutBase
  split
  · next h => exact absurd (by rw [h]; rfl) hhead
  · next h => exact absurd (by rw [h]; rfl) hhead
  · rfl

theorem parseUint0_itoa {n : ℕ} (h : n < 2 ^ 64) : parseUint0 (itoa n) = .ok n := by
  by_cases hn : n = 0
  · subst hn
    rfl
  have hparse := parseUint_itoa h
  unfold parseUint at hparse
  unfold parseUint0
  split at hparse
  · exact absurd hparse (by simp)
  · next hne =>
    rw [if_neg hne, cutBase_itoa hn]
    simp only [digitLoop_ten (fun c hc => itoa_digit hc) hparse, Bool.false_eq_true, false_and,
      if_false]

/-- A number read back from its decimal text. -/
theorem parseInt0_formatInt {n : ℤ} (h : n.natAbs < 2 ^ 63) :
    parseInt0 (formatInt n) = (n, none) := by
  have hparse : parseUint0 (itoa n.natAbs) = .ok n.natAbs := parseUint0_itoa (by omega)
  unfold formatInt
  split
  · next hneg =>
    have hcut : cutSign (45 :: itoa n.natAbs) = (true, itoa n.natAbs) := rfl
    simp only [parseInt0, hcut, hparse, if_true]
    rw [if_neg (by omega)]
    simp only [Prod.mk.injEq, and_true]
    omega
  · next hneg =>
    simp only [parseInt0, cutSign_itoa, hparse, Bool.false_eq_true, if_false]
    rw [if_neg (by omega)]
    simp only [Prod.mk.injEq, and_true]
    omega

/-- The bytes a decimal text may begin with. -/
theorem formatInt_eq_cons (n : ℤ) : ∃ c s, formatInt n = c :: s ∧ (c = 45 ∨ 48 ≤ c ∧ c ≤ 57) := by
  unfold formatInt
  split
  · exact ⟨45, _, rfl, Or.inl rfl⟩
  · cases hs : itoa n.natAbs with
    | nil =>
      unfold itoa at hs
      split at hs
      · exact absurd hs (by simp)
      · next h0 => exact absurd hs (by simp [Nat.digits_eq_nil_iff_eq_zero, h0])
    | cons c s => exact ⟨c, s, rfl, Or.inr (itoa_digit (hs ▸ List.mem_cons_self))⟩

/-- A text that begins with no sign, digit, letter or underscore is no number. -/
theorem parseInt0_eq_syntax {c : UInt8} {s : GoString} (hplus : c ≠ 43) (hminus : c ≠ 45)
    (hline : c ≠ 95) (hc : digitValue c = none) : parseInt0 (c :: s) = (0, some .errSyntax) := by
  have hsign : cutSign (c :: s) = (false, c :: s) := by
    unfold cutSign
    split
    · next h => exact absurd (List.cons.inj h).1 hplus
    · next h => exact absurd (List.cons.inj h).1 hminus
    · rfl
  have hzero : c ≠ 48 := by
    rintro rfl
    exact absurd hc (by decide)
  have hbase : cutBase (c :: s) = (10, c :: s) := by
    unfold cutBase
    split
    · next h => exact absurd (List.cons.inj h).1 hzero
    · next h => exact absurd (List.cons.inj h).1 hzero
    · rfl
  have hloop : digitLoop 10 (c :: s) 0 false = .error .errSyntax := by
    simp only [digitLoop, if_neg hline, hc]
  simp only [parseInt0, hsign, parseUint0, if_neg (List.cons_ne_nil c s), hbase, hloop]

end YulongHids.Golang
