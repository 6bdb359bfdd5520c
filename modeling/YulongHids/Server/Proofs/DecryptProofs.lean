import Mathlib.Data.List.Prime
import YulongHids.Server.Proofs.RsaProofs

/-!
# Proofs: fast and plain exponentiation

The precomputed exponents are those of `crypto/rsa`. For an odd prime `p` raising to the exponent
modulo `p - 1` is the same as raising to the exponent; for the prime 2 the precomputed exponent is 0,
and the residue is 1 whatever was raised.
-/

namespace YulongHids.Server

open Golang Rsa

/-! ## Exponents modulo a prime minus one -/

section Exponent

variable {p E D : ℕ}

/-- An exponent with an inverse modulo `p - 1` is not zero there, if `p` is odd. -/
theorem exponent_ne_zero (hp : p.Prime) (htwo : p ≠ 2) (h : E * D ≡ 1 [MOD p - 1]) :
    D ≠ 0 ∧ D % (p - 1) ≠ 0 := by
  have hp2 := hp.two_le
  have hzero : ∀ x, x ≡ 0 [MOD p - 1] → ¬ E * x ≡ 1 [MOD p - 1] := by
    intro x hx hone
    have hdvd : p - 1 ∣ 1 := (Nat.modEq_zero_iff_dvd).mp (hone.symm.trans (hx.mul_left E))
    have := Nat.dvd_one.mp hdvd
    omega
  constructor
  · rintro rfl
    exact hzero 0 rfl h
  · intro hmod
    exact hzero D hmod h

theorem pow_reduced_modEq (hp : p.Prime) (htwo : p ≠ 2) (h : E * D ≡ 1 [MOD p - 1]) (c : ℕ) :
    c ^ (D % (p - 1)) ≡ c ^ D [MOD p] := by
  obtain ⟨hD, hmod⟩ := exponent_ne_zero hp htwo h
  exact pow_modEq_of_exponents hp hmod hD (Nat.mod_modEq D (p - 1)) c

end Exponent

/-! ## The prime 2 among the factors -/

/-- The rest of the factors is odd. -/
theorem odd_prod_erase_two {ps : List ℕ} (hprime : ∀ p ∈ ps, p.Prime) (hnodup : ps.Nodup) :
    ¬ 2 ∣ (ps.erase 2).prod := by
  refine Prime.not_dvd_prod Nat.prime_two.prime ?_
  intro p hp hdvd
  obtain ⟨hne, hmem⟩ := (hnodup.mem_erase_iff).mp hp
  exact hne ((Nat.prime_dvd_prime_iff_eq Nat.prime_two (hprime p hmem)).mp hdvd).symm

section Key

variable {priv : PrivateKey}

theorem PrivateKey.Relations.exists_odd (h : priv.Relations) : ∃ p ∈ priv.primes, p ≠ 2 := by
  by_contra hall
  push Not at hall
  obtain ⟨p, q, ps, hps⟩ : ∃ p q ps, priv.primes = p :: q :: ps := by
    have htwo := h.two
    rcases hp : priv.primes with _ | ⟨p, _ | ⟨q, ps⟩⟩
    · rw [hp] at htwo
      exact absurd htwo (by decide)
    · rw [hp] at htwo
      exact absurd htwo (by simp)
    · exact ⟨p, q, ps, rfl⟩
  have hnodup := h.distinct
  rw [hps] at hall hnodup
  have hpq : p = q := by rw [hall p (by simp), hall q (by simp)]
  rw [hpq] at hnodup
  simp at hnodup

theorem PrivateKey.Relations.exponent_pos (h : priv.Relations) : priv.d ≠ 0 ∧ priv.e * priv.d ≠ 0 := by
  obtain ⟨p, hp, htwo⟩ := h.exists_odd
  obtain ⟨hd, -⟩ := exponent_ne_zero (h.prime p hp) htwo (h.exponents p hp)
  refine ⟨hd, ?_⟩
  intro hzero
  have hmod := h.exponents p hp
  rw [hzero] at hmod
  have hp2 := (h.prime p hp).two_le
  have := Nat.dvd_one.mp ((Nat.modEq_zero_iff_dvd).mp hmod.symm)
  omega

theorem PrivateKey.Relations.exponentPair (h : priv.Relations) :
    ExponentPair priv.n priv.e priv.d := by
  rw [← h.modulus]
  exact exponentPair_of_primes h.prime h.distinct h.exponent_pos.2 h.exponents

theorem PrivateKey.Relations.modulus_pos (h : priv.Relations) : 0 < priv.n := by
  rw [← h.modulus]
  exact List.prod_pos fun p hp => (h.prime p hp).pos

/-- The precomputed exponents do for `c` what the private exponent does. -/
def Faithful (priv : PrivateKey) (c : ℕ) : Prop := 2 ∉ priv.primes ∨ c % 2 = 1

theorem faithful_residue (h : priv.Relations) {c p : ℕ} (hc : Faithful priv c) (hp : p ∈ priv.primes) :
    c ^ (priv.d % (p - 1)) ≡ c ^ priv.d [MOD p] := by
  by_cases htwo : p = 2
  · subst htwo
    have hodd : c ≡ 1 [MOD 2] := hc.resolve_left fun hno => hno hp
    calc c ^ (priv.d % (2 - 1)) ≡ 1 ^ (priv.d % (2 - 1)) [MOD 2] := hodd.pow _
      _ = 1 ^ priv.d := by rw [one_pow, one_pow]
      _ ≡ c ^ priv.d [MOD 2] := (hodd.pow _).symm
  · exact pow_reduced_modEq (h.prime p hp) htwo (h.exponents p hp) c

/-- Half of the modulus more than the power: another residue for 2, the same for the others. -/
theorem shifted_residue (h : priv.Relations) {c p : ℕ} (heven : ¬ c % 2 = 1) (hp : p ∈ priv.primes) :
    c ^ (priv.d % (p - 1)) ≡ c ^ priv.d + (priv.primes.erase 2).prod [MOD p] := by
  by_cases htwo : p = 2
  · subst htwo
    have hodd := odd_prod_erase_two h.prime h.distinct
    have hc2 : c ≡ 0 [MOD 2] := by
      unfold Nat.ModEq
      omega
    have hk : (priv.primes.erase 2).prod ≡ 1 [MOD 2] := by
      unfold Nat.ModEq
      omega
    have hpow : c ^ priv.d ≡ 0 [MOD 2] := by
      have := hc2.pow priv.d
      rwa [zero_pow h.exponent_pos.1] at this
    calc c ^ (priv.d % (2 - 1)) = 1 := by rw [Nat.mod_one, pow_zero]
      _ ≡ 0 + 1 [MOD 2] := rfl
      _ ≡ c ^ priv.d + (priv.primes.erase 2).prod [MOD 2] := hpow.symm.add hk.symm
  · have hdvd : p ∣ (priv.primes.erase 2).prod :=
      List.dvd_prod ((h.distinct.mem_erase_iff).mpr ⟨htwo, hp⟩)
    calc c ^ (priv.d % (p - 1)) ≡ c ^ priv.d [MOD p] :=
          pow_reduced_modEq (h.prime p hp) htwo (h.exponents p hp) c
      _ = c ^ priv.d + 0 := (Nat.add_zero _).symm
      _ ≡ c ^ priv.d + (priv.primes.erase 2).prod [MOD p] :=
          ((Nat.modEq_zero_iff_dvd).mpr hdvd).symm.add_left _

/-- A number with the residues that the precomputed exponents give. -/
theorem exists_residues (h : priv.Relations) (c : ℕ) :
    ∃ a : ℕ, (∀ p ∈ priv.primes, c ^ (priv.d % (p - 1)) ≡ a [MOD p]) ∧
      (a ≡ c ^ priv.d [MOD priv.n] ↔ Faithful priv c) := by
  by_cases hc : Faithful priv c
  · exact ⟨c ^ priv.d, fun p hp => faithful_residue h hc hp, iff_of_true rfl hc⟩
  · obtain ⟨hmem, heven⟩ := not_or.mp hc
    rw [not_not] at hmem
    have hprod : 2 * (priv.primes.erase 2).prod = priv.n := by
      rw [List.prod_erase hmem, h.modulus]
    refine ⟨c ^ priv.d + (priv.primes.erase 2).prod, fun p hp => shifted_residue h heven hp,
      iff_of_false ?_ hc⟩
    intro hmod
    have hzero : (priv.primes.erase 2).prod ≡ 0 [MOD priv.n] :=
      Nat.ModEq.add_left_cancel' (c ^ priv.d) (by rwa [Nat.add_zero])
    have hodd := odd_prod_erase_two h.prime h.distinct
    rw [← hprod] at hzero
    exact hodd ((dvd_mul_right 2 _).trans ((Nat.modEq_zero_iff_dvd).mp hzero))

theorem crtResidues_of_defined {c a d r : ℕ} {values : List CRTValue} {primes : List ℕ}
    (h : CRTDefined d r primes values) (hpos : ∀ p ∈ primes, 0 < p)
    (ha : ∀ p ∈ primes, c ^ (d % (p - 1)) ≡ a [MOD p]) :
    CRTResidues c (a : ℤ) r primes values := by
  induction primes generalizing values r with
  | nil =>
    cases values with
    | nil => trivial
    | cons v values => exact h
  | cons prime primes ih =>
    cases values with
    | nil => exact h
    | cons v values =>
      obtain ⟨hexp, hvr, hcoeff, hrest⟩ := h
      obtain ⟨hprime, hprimes⟩ := List.forall_mem_cons.mp hpos
      obtain ⟨hres, hress⟩ := List.forall_mem_cons.mp ha
      rw [← hexp] at hres
      exact ⟨hprime, exp_modEq hres, hvr, hcoeff, ih hrest hprimes hress⟩

/-- The exponentiation never fails, and with precomputed values its result is the power if they are
faithful for `c`. -/
theorem privateExp_defined (h : priv.Relations) (c : ℕ) :
    ∃ a : ℕ, privateExp priv c = some ((a : ℤ) % (priv.n : ℤ)) ∧
      (a ≡ c ^ priv.d [MOD priv.n] ↔ priv.precomputed = none ∨ Faithful priv c) := by
  cases hp : priv.precomputed with
  | none =>
    refine ⟨c ^ priv.d, ?_, iff_of_true rfl (Or.inl rfl)⟩
    rw [privateExp, hp]
    simp only [exp_cast]
  | some pre =>
    obtain ⟨p, q, primes, hprimes, hdp, hdq, hqinv, hcrt⟩ := h.precomputed pre hp
    obtain ⟨a, ha, hiff⟩ := exists_residues h c
    have hpos : ∀ x ∈ p :: q :: primes, 0 < x := fun x hx => (h.prime x (hprimes ▸ hx)).pos
    rw [hprimes] at ha
    have hres : ∀ x ∈ p :: q :: primes,
        ((Big.exp c (priv.d % (x - 1)) x : ℕ) : ℤ) ≡ (a : ℤ) [ZMOD x] :=
      fun x hx => exp_modEq (ha x hx)
    refine ⟨a, ?_, by simpa using hiff⟩
    refine privateExp_residues hp hprimes (hpos p (by simp)) (hpos q (by simp)) ?_ ?_ hqinv ?_
      h.modulus
    · rw [hdp]
      exact hres p (by simp)
    · rw [hdq]
      exact hres q (by simp)
    · rw [mul_comm q p]
      exact crtResidues_of_defined hcrt (fun x hx => hpos x (by simp [hx]))
        fun x hx => ha x (by simp [hx])

end Key

/-! ## Blinding -/

section Blinded

variable {priv : PrivateKey} {c r : ℕ} {ir : ℤ}

/-- Blinding keeps the parity where 2 divides the modulus. -/
theorem faithful_blinded (h : priv.Relations) (hinv : (r : ℤ) * ir ≡ 1 [ZMOD priv.n]) :
    Faithful priv (c * (r ^ priv.e % priv.n) % priv.n) ↔ Faithful priv c := by
  by_cases hmem : 2 ∈ priv.primes
  · have hdvd : 2 ∣ priv.n := h.modulus ▸ List.dvd_prod hmem
    have hr : r ≡ 1 [MOD 2] := by
      have hodd : Odd ((r : ℤ) * ir) := by
        have htwo : (2 : ℤ) ∣ (priv.n : ℤ) := by exact_mod_cast hdvd
        exact Int.odd_iff.mpr (hinv.of_dvd htwo)
      have hrodd := (Int.odd_mul.mp hodd).1
      rw [Int.odd_coe_nat] at hrodd
      exact Nat.odd_iff.mp hrodd
    have hparity : c * (r ^ priv.e % priv.n) % priv.n ≡ c [MOD 2] := by
      calc c * (r ^ priv.e % priv.n) % priv.n ≡ c * (r ^ priv.e % priv.n) [MOD 2] :=
            (Nat.mod_modEq _ _).of_dvd hdvd
        _ ≡ c * r ^ priv.e [MOD 2] := ((Nat.mod_modEq _ _).of_dvd hdvd).mul_left c
        _ ≡ c * 1 ^ priv.e [MOD 2] := (hr.pow _).mul_left c
        _ = c := by rw [one_pow, mul_one]
    unfold Faithful
    rw [hparity]
  · exact iff_of_true (Or.inl hmem) (Or.inl hmem)

/-- Taking the blinding away gives the power of `c` exactly if the number was the power of the
blinded one. -/
theorem unblind_iff (h : priv.Relations) (hinv : (r : ℤ) * ir ≡ 1 [ZMOD priv.n]) (a : ℕ) :
    (a : ℤ) % (priv.n : ℤ) * ir % (priv.n : ℤ) = ((c ^ priv.d % priv.n : ℕ) : ℤ) ↔
      a ≡ (c * (r ^ priv.e % priv.n) % priv.n) ^ priv.d [MOD priv.n] := by
  constructor
  · intro heq
    have hunblinded : (a : ℤ) * ir ≡ ((c ^ priv.d : ℕ) : ℤ) [ZMOD priv.n] := by
      calc (a : ℤ) * ir ≡ (a : ℤ) % (priv.n : ℤ) * ir [ZMOD priv.n] :=
            ((Int.mod_modEq _ _).mul_right ir).symm
        _ ≡ ((c ^ priv.d % priv.n : ℕ) : ℤ) [ZMOD priv.n] := by
          rw [← heq]
          exact (Int.mod_modEq _ _).symm
        _ ≡ ((c ^ priv.d : ℕ) : ℤ) [ZMOD priv.n] :=
            Int.natCast_modEq_iff.mpr (Nat.mod_modEq _ _)
    refine Int.natCast_modEq_iff.mp ?_
    calc (a : ℤ) = (a : ℤ) * 1 := (mul_one _).symm
      _ ≡ (a : ℤ) * ((r : ℤ) * ir) [ZMOD priv.n] := (hinv.mul_left _).symm
      _ = (a : ℤ) * ir * (r : ℤ) := by ring
      _ ≡ ((c ^ priv.d : ℕ) : ℤ) * (r : ℤ) [ZMOD priv.n] := hunblinded.mul_right _
      _ = ((c ^ priv.d * r : ℕ) : ℤ) := by push_cast; ring
      _ ≡ (((c * (r ^ priv.e % priv.n) % priv.n) ^ priv.d : ℕ) : ℤ) [ZMOD priv.n] :=
          Int.natCast_modEq_iff.mpr (h.exponentPair.blind h.modulus_pos c r).symm
  · intro hmod
    have hcast : (a : ℤ) % (priv.n : ℤ) =
        (((c * (r ^ priv.e % priv.n) % priv.n) ^ priv.d % priv.n : ℕ) : ℤ) := by
      rw [← Int.natCast_mod, hmod]
    rw [hcast, h.exponentPair.unblind h.modulus_pos c r hinv]

theorem blindingFactor_ends {n : ℕ} {draws : List ℕ} (h : blindingFactor n (draws.map .ok) ≠ none) :
    ∃ r ir, blindingFactor n (draws.map .ok) = some (.ok (r, ir)) := by
  induction draws with
  | nil => exact absurd rfl h
  | cons d draws ih =>
    rw [List.map_cons, blindingFactor] at h ⊢
    cases hd : modInverse (if d = 0 then 1 else d) n with
    | none =>
      simp only [hd] at h
      exact ih h
    | some ir => exact ⟨_, ir, rfl⟩

end Blinded

/-- `decrypt` returns a number for every key of `crypto/rsa` and every source on which the loop ends.
It is the power if the key has no precomputed values, or 2 is not among its primes, or `c` is odd, and
only then. -/
theorem decrypt_pow_iff (priv : PrivateKey) (h : priv.Relations) (random : Option (List ℕ))
    (hends : ∀ draws, random = some draws → blindingFactor priv.n (draws.map .ok) ≠ none)
    (c : ℕ) (hc : c < priv.n) :
    ∃ m, decrypt (random.map (·.map .ok)) priv c = some (.ok m) ∧
      (m = ((c ^ priv.d % priv.n : ℕ) : ℤ) ↔
        priv.precomputed = none ∨ 2 ∉ priv.primes ∨ c % 2 = 1) := by
  have hle : ¬ c > priv.n := not_lt.mpr hc.le
  cases random with
  | none =>
    obtain ⟨a, ha, hiff⟩ := privateExp_defined h c
    refine ⟨(a : ℤ) % (priv.n : ℤ), ?_, ?_⟩
    · simp only [decrypt, if_neg hle, Option.map_none, ha, Option.map_some]
    · rw [← Int.natCast_mod, Nat.cast_inj]
      exact hiff
  | some draws =>
    obtain ⟨r, ir, hdraw⟩ := blindingFactor_ends (hends draws rfl)
    have hinv := blindingFactor_inverse hdraw
    obtain ⟨a, ha, hiff⟩ := privateExp_defined h (c * (r ^ priv.e % priv.n) % priv.n)
    refine ⟨(a : ℤ) % (priv.n : ℤ) * ir % (priv.n : ℤ), ?_, ?_⟩
    · simp only [decrypt, if_neg hle, Option.map_some, hdraw, Big.exp_eq, ha]
    · rw [unblind_iff h hinv, hiff, faithful_blinded h hinv]
      rfl

/-- A key of three primes with its precomputed values. -/
def threePrimeKey : PrivateKey where
  n := 165
  e := 3
  d := 7
  primes := [3, 5, 11]
  precomputed := some ⟨1, 3, 2, [⟨7, 3, 15⟩]⟩

theorem threePrimeKey_relations : threePrimeKey.Relations where
  prime := by decide
  distinct := by decide
  two := by decide
  modulus := by decide
  exponents := by decide
  precomputed := by
    intro pre hpre
    obtain rfl := Option.some.inj hpre
    exact ⟨3, 5, [11], rfl, rfl, rfl, by decide, rfl, rfl, by decide, trivial⟩

/-- The first factor drawn is not invertible. -/
theorem decrypt_pow_threePrimeKey :
    ∃ m, decrypt ((some [33, 7]).map (·.map .ok)) threePrimeKey 2 = some (.ok m) ∧
      (m = ((2 ^ 7 % 165 : ℕ) : ℤ) ↔
        threePrimeKey.precomputed = none ∨ 2 ∉ threePrimeKey.primes ∨ 2 % 2 = 1) :=
  decrypt_pow_iff threePrimeKey threePrimeKey_relations (some [33, 7])
    (fun draws hdraws => by
      obtain ⟨r, ir, hfactor⟩ := blindingFactor_delivers (n := threePrimeKey.n)
        ⟨[33], 7, [], rfl, Or.inr (by decide)⟩
      rw [← Option.some.inj hdraws]
      exact fun hnone => Option.some_ne_none _ (hfactor.symm.trans hnone)) 2 (by decide)

/-- A key whose first prime is 2. -/
def evenKey : PrivateKey where
  n := 10
  e := 3
  d := 3
  primes := [2, 5]
  precomputed := some ⟨0, 3, 1, []⟩

theorem evenKey_relations : evenKey.Relations where
  prime := by decide
  distinct := by decide
  two := by decide
  modulus := by decide
  exponents := by decide
  precomputed := by
    intro pre hpre
    obtain rfl := Option.some.inj hpre
    exact ⟨2, 5, [], rfl, rfl, rfl, by decide, trivial⟩

/-- The cube of 2 is 8, and `decrypt` returns 3. -/
theorem decrypt_even_prime :
    evenKey.Relations ∧ 2 < evenKey.n ∧ decrypt none evenKey 2 = some (.ok 3) ∧
      decrypt none evenKey 2 ≠ some (.ok ((2 ^ evenKey.d % evenKey.n : ℕ) : ℤ)) := by
  have hrun : decrypt none evenKey 2 = some (.ok 3) := by decide
  refine ⟨evenKey_relations, by decide, hrun, ?_⟩
  rw [hrun]
  simp [evenKey]

end YulongHids.Server
