import Mathlib.Data.Nat.ChineseRemainder
import Mathlib.FieldTheory.Finite.Basic
import Mathlib.Tactic

/-!
# RSA exponents

Two exponents undo each other modulo `N` when raising to both is the identity below `N`. For a
product of distinct primes this is the usual congruence modulo each prime minus one.
-/

namespace YulongHids.Rsa

/-- Raising to `E` and to `D` is the identity modulo `N`. -/
def ExponentPair (N E D : ℕ) : Prop := ∀ m < N, m ^ (E * D) % N = m

section Pair

variable {N E D : ℕ}

theorem ExponentPair.modEq (h : ExponentPair N E D) (hN : 0 < N) (m : ℕ) :
    m ^ (E * D) ≡ m [MOD N] := by
  have hm : m % N ≡ m [MOD N] := Nat.mod_modEq m N
  calc m ^ (E * D) ≡ (m % N) ^ (E * D) [MOD N] := (hm.pow _).symm
    _ ≡ m % N [MOD N] := by
      unfold Nat.ModEq
      rw [h (m % N) (Nat.mod_lt m hN), Nat.mod_mod]
    _ ≡ m [MOD N] := hm

theorem ExponentPair.decrypt (h : ExponentPair N E D) {m : ℕ} (hm : m < N) :
    (m ^ D % N) ^ E % N = m := by
  rw [← Nat.pow_mod, ← pow_mul, mul_comm D E]
  exact h m hm

/-- Blinding with `r ^ E` turns into a factor `r` of the decrypted number. -/
theorem ExponentPair.blind (h : ExponentPair N E D) (hN : 0 < N) (c r : ℕ) :
    (c * (r ^ E % N) % N) ^ D ≡ c ^ D * r [MOD N] := by
  have hr : r ^ E % N ≡ r ^ E [MOD N] := Nat.mod_modEq _ N
  calc (c * (r ^ E % N) % N) ^ D ≡ (c * r ^ E) ^ D [MOD N] :=
        ((Nat.mod_modEq _ N).trans (hr.mul_left c)).pow D
    _ = c ^ D * r ^ (E * D) := by rw [mul_pow, ← pow_mul]
    _ ≡ c ^ D * r [MOD N] := (h.modEq hN r).mul_left _

/-- The inverse of the blinding factor takes it away again. -/
theorem ExponentPair.unblind (h : ExponentPair N E D) (hN : 0 < N) (c r : ℕ) {ir : ℤ}
    (hinv : (r : ℤ) * ir ≡ 1 [ZMOD N]) :
    ((((c * (r ^ E % N) % N) ^ D % N : ℕ) : ℤ) * ir) % N = ((c ^ D % N : ℕ) : ℤ) := by
  have hblind : (((c * (r ^ E % N) % N) ^ D % N : ℕ) : ℤ) ≡ ((c ^ D * r : ℕ) : ℤ) [ZMOD N] :=
    Int.natCast_modEq_iff.mpr ((Nat.mod_modEq _ N).trans (h.blind hN c r))
  have hmod : (((c * (r ^ E % N) % N) ^ D % N : ℕ) : ℤ) * ir ≡ ((c ^ D : ℕ) : ℤ) [ZMOD N] := by
    calc (((c * (r ^ E % N) % N) ^ D % N : ℕ) : ℤ) * ir
        ≡ ((c ^ D * r : ℕ) : ℤ) * ir [ZMOD N] := hblind.mul_right ir
      _ = ((c ^ D : ℕ) : ℤ) * ((r : ℤ) * ir) := by
        push_cast
        ring
      _ ≡ ((c ^ D : ℕ) : ℤ) * 1 [ZMOD N] := hinv.mul_left _
      _ = ((c ^ D : ℕ) : ℤ) := mul_one _
  rw [hmod, Int.natCast_mod]

end Pair

/-! ## Prime moduli -/

/-- Fermat: exponents that agree modulo `p - 1` give the same powers modulo `p`, if neither is
zero. -/
theorem pow_modEq_of_exponents {p a b : ℕ} (hp : p.Prime) (ha : a ≠ 0) (hb : b ≠ 0)
    (h : a ≡ b [MOD p - 1]) (c : ℕ) : c ^ a ≡ c ^ b [MOD p] := by
  by_cases hc : p ∣ c
  · have hzero : ∀ k ≠ 0, c ^ k ≡ 0 [MOD p] := fun k hk =>
      (Nat.modEq_zero_iff_dvd).mpr (dvd_pow hc hk)
    exact (hzero a ha).trans (hzero b hb).symm
  · have hcop : Nat.Coprime c p := (Nat.Prime.coprime_iff_not_dvd hp).mpr hc |>.symm
    have hferm : c ^ (p - 1) ≡ 1 [MOD p] := by
      have := Nat.ModEq.pow_totient hcop
      rwa [Nat.totient_prime hp] at this
    have hred : ∀ k, c ^ k ≡ c ^ (k % (p - 1)) [MOD p] := by
      intro k
      conv_lhs => rw [← Nat.div_add_mod k (p - 1), pow_add, pow_mul]
      simpa using (hferm.pow (k / (p - 1))).mul_right (c ^ (k % (p - 1)))
    calc c ^ a ≡ c ^ (a % (p - 1)) [MOD p] := hred a
      _ = c ^ (b % (p - 1)) := by rw [h]
      _ ≡ c ^ b [MOD p] := (hred b).symm

/-- The exponents of a key whose modulus is a product of distinct primes. -/
theorem exponentPair_of_primes {ps : List ℕ} {E D : ℕ} (hprime : ∀ p ∈ ps, p.Prime)
    (hnodup : ps.Nodup) (hpos : E * D ≠ 0) (h : ∀ p ∈ ps, E * D ≡ 1 [MOD p - 1]) :
    ExponentPair ps.prod E D := by
  intro m hm
  have hcoprime : ps.Pairwise Nat.Coprime := by
    refine hnodup.imp_of_mem ?_
    intro p q hp hq hne
    exact (Nat.coprime_primes (hprime p hp) (hprime q hq)).mpr hne
  have hmod : m ^ (E * D) ≡ m [MOD ps.prod] := by
    rw [Nat.modEq_list_prod_iff hcoprime]
    intro i
    have hi := List.get_mem ps i
    simpa using pow_modEq_of_exponents (hprime _ hi) hpos one_ne_zero (h _ hi) m
  rw [hmod, Nat.mod_eq_of_lt hm]

end YulongHids.Rsa
