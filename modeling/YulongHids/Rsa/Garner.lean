import Mathlib.Data.Int.ModEq
import Mathlib.Tactic

/-!
# Garner's reconstruction

A number below `M` is extended to one below `M * p` that keeps its residue modulo `M` and has a given
residue modulo `p`. The coefficient is an inverse of `M` modulo `p`, which makes the two moduli
coprime.
-/

namespace YulongHids.Rsa

variable {a x coeff M p : ℤ}

theorem isCoprime_of_inverse (h : coeff * M ≡ 1 [ZMOD p]) : IsCoprime M p := by
  obtain ⟨k, hk⟩ := h.symm.dvd
  exact ⟨coeff, -k, by linarith⟩

/-- The extended number has the residue `x` modulo `p`. -/
theorem garner_modEq (h : coeff * M ≡ 1 [ZMOD p]) (m : ℤ) :
    m + (x - m) * coeff % p * M ≡ x [ZMOD p] := by
  calc m + (x - m) * coeff % p * M ≡ m + (x - m) * coeff * M [ZMOD p] :=
        ((Int.mod_modEq _ p).mul_right M).add_left m
    _ = m + (x - m) * (coeff * M) := by ring
    _ ≡ m + (x - m) * 1 [ZMOD p] := (h.mul_left _).add_left m
    _ = x := by ring

theorem garner_range (hp : 0 < p) {m : ℤ} (h0 : 0 ≤ m) (h : m < M) (y : ℤ) :
    0 ≤ m + y % p * M ∧ m + y % p * M < M * p := by
  have hy0 : 0 ≤ y % p := Int.emod_nonneg y hp.ne'
  have hy : y % p ≤ p - 1 := by
    have := Int.emod_lt_of_pos y hp
    omega
  have hM : 0 ≤ M := le_of_lt (lt_of_le_of_lt h0 h)
  constructor
  · exact add_nonneg h0 (mul_nonneg hy0 hM)
  · calc m + y % p * M < M + (p - 1) * M :=
          add_lt_add_of_lt_of_le h (mul_le_mul_of_nonneg_right hy hM)
      _ = M * p := by ring

/-- One step: from the residue of `a` modulo `M` to that modulo `M * p`. -/
theorem garner_step (hM : 0 < M) (hp : 0 < p) (hx : x ≡ a [ZMOD p])
    (h : coeff * M ≡ 1 [ZMOD p]) :
    a % M + (x - a % M) * coeff % p * M = a % (M * p) := by
  obtain ⟨h0, hlt⟩ := garner_range hp (Int.emod_nonneg a hM.ne') (Int.emod_lt_of_pos a hM)
    ((x - a % M) * coeff)
  have hmodp : a % M + (x - a % M) * coeff % p * M ≡ a [ZMOD p] := (garner_modEq h _).trans hx
  have hmodM : a % M + (x - a % M) * coeff % p * M ≡ a [ZMOD M] := by
    have hdrop : a % M + (x - a % M) * coeff % p * M ≡ a % M [ZMOD M] :=
      Int.modEq_iff_dvd.mpr ⟨-((x - a % M) * coeff % p), by ring⟩
    exact hdrop.trans (Int.mod_modEq a M)
  have hboth : a % M + (x - a % M) * coeff % p * M ≡ a [ZMOD M * p] := by
    rw [Int.modEq_iff_dvd] at hmodp hmodM ⊢
    exact (isCoprime_of_inverse h).mul_dvd hmodM hmodp
  rw [← Int.emod_eq_of_lt h0 hlt]
  exact hboth

end YulongHids.Rsa
