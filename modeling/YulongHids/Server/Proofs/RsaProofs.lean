import YulongHids.Golang.Proofs.BigIntProofs
import YulongHids.Rsa.Exponent
import YulongHids.Rsa.Garner
import YulongHids.Server.Rsa

/-!
# Proofs: task encryption

With or without blinding and precomputed values `decrypt` raises to the private exponent modulo `N`,
and `priKeyEncrypt` writes the result on as many bytes as the modulus has.
-/

namespace YulongHids.Server

open Golang Rsa

/-! ## Chinese remaindering -/

section Crt

variable {priv : PrivateKey}

theorem exp_cast (c d p : ℕ) : ((Big.exp c d p : ℕ) : ℤ) = ((c ^ d : ℕ) : ℤ) % (p : ℤ) := by
  rw [Big.exp_eq, Int.natCast_mod]

theorem exp_modEq {c a r p : ℕ} (h : c ^ a ≡ r [MOD p]) :
    ((Big.exp c a p : ℕ) : ℤ) ≡ (r : ℤ) [ZMOD p] := by
  rw [exp_cast]
  exact (Int.mod_modEq _ _).trans (Int.natCast_modEq_iff.mpr h)

/-- The number `a` has, modulo the primes from the third one on, the residues that the loop computes
for `c`; `r` is the product of the primes before. -/
def CRTResidues (c : ℕ) (a : ℤ) : ℕ → List ℕ → List CRTValue → Prop
  | _, [], [] => True
  | r, prime :: primes, v :: values =>
    0 < prime ∧ ((Big.exp c v.exp prime : ℕ) : ℤ) ≡ a [ZMOD prime] ∧ v.r = r ∧
      (v.coeff : ℤ) * r ≡ 1 [ZMOD prime] ∧ CRTResidues c a (r * prime) primes values
  | _, _, _ => False

theorem crtResidues_of_consistent {c d r : ℕ} {values : List CRTValue} {primes : List ℕ}
    (h : CRTConsistent d r primes values) :
    CRTResidues c ((c ^ d : ℕ) : ℤ) r primes values := by
  induction primes generalizing values r with
  | nil =>
    cases values with
    | nil => trivial
    | cons v values => exact h
  | cons prime primes ih =>
    cases values with
    | nil => exact h
    | cons v values =>
      obtain ⟨hprime, hpow, hvr, hcoeff, hrest⟩ := h
      exact ⟨hprime, exp_modEq (hpow c), hvr, hcoeff, ih hrest⟩

/-- Every turn of the loop extends the residue of `a` by one prime. -/
theorem crtLoop_eq (c : ℕ) (a : ℤ) (values : List CRTValue) (primes : List ℕ) (r : ℕ) (hr : 0 < r)
    (h : CRTResidues c a r primes values) :
    crtLoop c values primes (a % (r : ℤ)) = some (a % ((r * primes.prod : ℕ) : ℤ)) := by
  induction primes generalizing values r with
  | nil =>
    cases values with
    | nil => simp [crtLoop]
    | cons v values => exact absurd h (by simp [CRTResidues])
  | cons prime primes ih =>
    cases values with
    | nil => exact absurd h (by simp [CRTResidues])
    | cons v values =>
      obtain ⟨hprime, hpow, hvr, hcoeff, hrest⟩ := h
      have hstep := garner_step (Int.natCast_pos.mpr hr) (Int.natCast_pos.mpr hprime) hpow hcoeff
      have hnonneg : ¬ (((Big.exp c v.exp prime : ℕ) : ℤ) - a % (r : ℤ)) *
          (v.coeff : ℤ) % (prime : ℤ) < 0 :=
        not_lt.mpr (Int.emod_nonneg _ (Int.natCast_ne_zero.mpr hprime.ne'))
      rw [crtLoop]
      simp only [if_neg hnonneg, hvr, hstep]
      have hnext := ih values (r * prime) (Nat.mul_pos hr hprime) hrest
      rw [Nat.cast_mul] at hnext
      rw [hnext, List.prod_cons, mul_assoc]

/-- The two first primes: the difference of the residues may be negative, and adding the first prime
to it changes nothing. -/
theorem crtFirst_eq {c p q dp dq qinv : ℕ} {a : ℤ} (hp : 0 < p) (hq : 0 < q)
    (hdp : ((Big.exp c dp p : ℕ) : ℤ) ≡ a [ZMOD p])
    (hdq : ((Big.exp c dq q : ℕ) : ℤ) ≡ a [ZMOD q]) (hqinv : (qinv : ℤ) * q ≡ 1 [ZMOD p]) :
    (if ((Big.exp c dp p : ℕ) : ℤ) - (Big.exp c dq q : ℕ) < 0 then
        ((Big.exp c dp p : ℕ) : ℤ) - (Big.exp c dq q : ℕ) + (p : ℤ)
      else ((Big.exp c dp p : ℕ) : ℤ) - (Big.exp c dq q : ℕ)) * (qinv : ℤ) % (p : ℤ) * (q : ℤ) +
        (Big.exp c dq q : ℕ) =
      a % ((q * p : ℕ) : ℤ) := by
  have hm2 : ((Big.exp c dq q : ℕ) : ℤ) = a % (q : ℤ) := by
    rw [← hdq, exp_cast, Int.emod_emod]
  have hstep : ∀ x : ℤ, x ≡ a [ZMOD p] →
      (x - a % (q : ℤ)) * (qinv : ℤ) % (p : ℤ) * (q : ℤ) + a % (q : ℤ) =
        a % ((q * p : ℕ) : ℤ) := by
    intro x hx
    rw [add_comm, garner_step (Int.natCast_pos.mpr hq) (Int.natCast_pos.mpr hp) hx hqinv,
      Nat.cast_mul]
  rw [hm2]
  split
  · rw [← hstep _ ((Int.add_modEq_right ..).trans hdp), add_sub_right_comm]
  · exact hstep _ hdp

/-- With precomputed values the result is the number that has the residues computed for the
primes. -/
theorem privateExp_residues {pre : PrecomputedValues} {p q : ℕ} {primes : List ℕ} {c : ℕ} {a : ℤ}
    (hpre : priv.precomputed = some pre) (hprimes : priv.primes = p :: q :: primes) (hp : 0 < p)
    (hq : 0 < q) (hdp : ((Big.exp c pre.dp p : ℕ) : ℤ) ≡ a [ZMOD p])
    (hdq : ((Big.exp c pre.dq q : ℕ) : ℤ) ≡ a [ZMOD q]) (hqinv : (pre.qinv : ℤ) * q ≡ 1 [ZMOD p])
    (hcrt : CRTResidues c a (q * p) primes pre.crtValues) (hmodulus : priv.primes.prod = priv.n) :
    privateExp priv c = some (a % (priv.n : ℤ)) := by
  unfold privateExp
  simp only [hpre, hprimes]
  rw [crtFirst_eq hp hq hdp hdq hqinv,
    crtLoop_eq c a pre.crtValues primes (q * p) (Nat.mul_pos hq hp) hcrt, ← hmodulus, hprimes,
    List.prod_cons, List.prod_cons, ← mul_assoc, mul_comm p q]

/-- The private exponentiation, with and without precomputed values. -/
theorem privateExp_eq (hpre : ∀ pre, priv.precomputed = some pre → pre.Consistent priv) (c : ℕ) :
    privateExp priv c = some (((c ^ priv.d % priv.n : ℕ)) : ℤ) := by
  cases hp : priv.precomputed with
  | none =>
    unfold privateExp
    simp only [hp, Big.exp_eq]
  | some pre =>
    obtain ⟨⟨p, q, primes, hprimes, hp0, hq0, hdp, hdq, hqinv, hcrt⟩, hmodulus⟩ := hpre pre hp
    rw [privateExp_residues hp hprimes hp0 hq0 (exp_modEq (hdp c)) (exp_modEq (hdq c)) hqinv
      (crtResidues_of_consistent hcrt) hmodulus, Int.natCast_mod]

end Crt

/-! ## Blinding -/

section Blinding

variable {n : ℕ}

theorem modInverse_spec {a : ℕ} (h : Nat.Coprime a n) :
    ∃ ir, modInverse a n = some ir ∧ (a : ℤ) * ir ≡ 1 [ZMOD n] := by
  have hbezout : (a : ℤ) * Nat.gcdA a n ≡ 1 [ZMOD n] := by
    have hgcd := Nat.gcd_eq_gcd_ab a n
    rw [Nat.Coprime.gcd_eq_one h, Nat.cast_one] at hgcd
    exact Int.modEq_iff_dvd.mpr ⟨Nat.gcdB a n, by linarith⟩
  by_cases hx : Nat.gcdA a n < 1
  · refine ⟨Nat.gcdA a n + n, by simp [modInverse, Big.gcd, h, hx], ?_⟩
    rw [mul_add]
    exact (Int.ModEq.add_left _ (Int.modEq_zero_iff_dvd.mpr ⟨a, by ring⟩)).trans (by simpa using hbezout)
  · exact ⟨Nat.gcdA a n, by simp [modInverse, Big.gcd, h, hx], hbezout⟩

theorem modInverse_some {a : ℕ} {ir : ℤ} (h : modInverse a n = some ir) :
    (a : ℤ) * ir ≡ 1 [ZMOD n] := by
  by_cases hcop : Nat.Coprime a n
  · obtain ⟨ir', hir', hmod⟩ := modInverse_spec hcop
    rw [h, Option.some.injEq] at hir'
    rw [hir']
    exact hmod
  · have hne : ¬ Nat.gcd a n = 1 := hcop
    simp [modInverse, Big.gcd, hne] at h

/-- The loop ends with a factor and its inverse, if it does. -/
theorem blindingFactor_inverse {draws : List (Except GoString ℕ)} {r : ℕ} {ir : ℤ}
    (h : blindingFactor n draws = some (.ok (r, ir))) : (r : ℤ) * ir ≡ 1 [ZMOD n] := by
  induction draws with
  | nil => simp [blindingFactor] at h
  | cons draw draws ih =>
    cases draw with
    | error err => simp [blindingFactor] at h
    | ok d =>
      rw [blindingFactor] at h
      cases hd : modInverse (if d = 0 then 1 else d) n with
      | none =>
        simp only [hd] at h
        exact ih h
      | some ir' =>
        simp only [hd, Option.some.injEq, Except.ok.injEq, Prod.mk.injEq] at h
        obtain ⟨rfl, rfl⟩ := h
        exact modInverse_some hd

/-- It does on a source that comes to an invertible factor. -/
theorem blindingFactor_delivers {draws : List (Except GoString ℕ)} (h : DeliversFactor n draws) :
    ∃ r ir, blindingFactor n draws = some (.ok (r, ir)) := by
  obtain ⟨drawn, r, rest, rfl, hr⟩ := h
  induction drawn with
  | nil =>
    have hcop : Nat.Coprime (if r = 0 then 1 else r) n := by
      split
      · exact Nat.coprime_one_left n
      · next hne => exact hr.resolve_left hne
    obtain ⟨ir, hir, -⟩ := modInverse_spec hcop
    exact ⟨if r = 0 then 1 else r, ir, by simp [blindingFactor, hir]⟩
  | cons d drawn ih =>
    rw [List.map_cons, List.cons_append, blindingFactor]
    cases hd : modInverse (if d = 0 then 1 else d) n with
    | none => exact ih
    | some ir => exact ⟨if d = 0 then 1 else d, ir, rfl⟩

end Blinding

/-! ## `decrypt` and `priKeyEncrypt` -/

section Encrypt

variable {priv : PrivateKey} {random : Option (List (Except GoString ℕ))}

/-- With an accepted blinding factor, or without blinding, `decrypt` raises to the private
exponent. -/
theorem decrypt_eq (hn : 0 < priv.n) (hpair : ExponentPair priv.n priv.e priv.d)
    (hpre : ∀ pre, priv.precomputed = some pre → pre.Consistent priv)
    (hfactor : ∀ draws, random = some draws →
      ∃ r ir, blindingFactor priv.n draws = some (.ok (r, ir))) {c : ℕ} (hc : c ≤ priv.n) :
    decrypt random priv c = some (.ok (((c ^ priv.d % priv.n : ℕ)) : ℤ)) := by
  unfold decrypt
  rw [if_neg (not_lt.mpr hc)]
  cases random with
  | none => simp only [privateExp_eq hpre, Option.map_some]
  | some draws =>
    obtain ⟨r, ir, hdraw⟩ := hfactor draws rfl
    simp only [hdraw, privateExp_eq hpre, Option.map_some, Big.exp_eq]
    rw [hpair.unblind hn c r (blindingFactor_inverse hdraw)]

/-- A call of `decrypt` that returns no error has accepted a blinding factor. -/
theorem decrypt_ok_factor {c : ℕ} {m : ℤ} (h : decrypt random priv c = some (.ok m)) :
    ∀ draws, random = some draws → ∃ r ir, blindingFactor priv.n draws = some (.ok (r, ir)) := by
  rintro draws rfl
  unfold decrypt at h
  split at h
  · simp at h
  · cases hdraw : blindingFactor priv.n draws with
    | none => simp [hdraw] at h
    | some result =>
      cases result with
      | error err => simp [hdraw] at h
      | ok f => exact ⟨f.1, f.2, rfl⟩

theorem keyLen_pos_modulus (hk : 11 ≤ keyLen priv.n) : 0 < priv.n := by
  rcases Nat.eq_zero_or_pos priv.n with h | h
  · rw [h] at hk
    exact absurd hk (by decide)
  · exact h

theorem paddedBlock_length {k : ℕ} {hashed : List UInt8} (h : hashed.length + 11 ≤ k) :
    (paddedBlock k hashed).length = k := by
  simp only [paddedBlock, List.length_cons, List.length_append, List.length_replicate]
  omega

/-- A padded block is below the modulus, because its first byte is zero. -/
theorem paddedBlock_lt {hashed : List UInt8} (hn : priv.n ≠ 0)
    (h : hashed.length + 11 ≤ keyLen priv.n) :
    Big.setBytes (paddedBlock (keyLen priv.n) hashed) < priv.n := by
  have hlen := paddedBlock_length h
  have htail := Big.setBytes_lt (paddedBlock (keyLen priv.n) hashed).tail
  rw [List.length_tail, hlen] at htail
  calc Big.setBytes (paddedBlock (keyLen priv.n) hashed)
      = Big.setBytes (paddedBlock (keyLen priv.n) hashed).tail :=
        Big.setBytes_replicate_zero 1 _
    _ < 256 ^ (keyLen priv.n - 1) := htail
    _ ≤ priv.n := Big.pow_byteLen_le hn

theorem copyWithLeftPad_bytes {k c : ℕ} (h : c < 256 ^ k) :
    copyWithLeftPad k (Big.bytes c) = some (Big.fillBytes k c) := by
  rw [copyWithLeftPad, if_pos (Big.bytes_length_le h), Big.fillBytes]

theorem priKeyEncrypt_long {hashed : List UInt8} (h : keyLen priv.n < hashed.length + 11) :
    priKeyEncrypt random priv hashed = some (.error (str "data length error")) := by
  simp only [priKeyEncrypt, if_pos h]

/-- `priKeyEncrypt` on a message that fits. -/
theorem priKeyEncrypt_eq (hn : 0 < priv.n) (hpair : ExponentPair priv.n priv.e priv.d)
    (hpre : ∀ pre, priv.precomputed = some pre → pre.Consistent priv)
    (hfactor : ∀ draws, random = some draws →
      ∃ r ir, blindingFactor priv.n draws = some (.ok (r, ir))) {hashed : List UInt8}
    (h : hashed.length + 11 ≤ keyLen priv.n) :
    priKeyEncrypt random priv hashed =
      some (.ok (Big.fillBytes (keyLen priv.n)
        (Big.setBytes (paddedBlock (keyLen priv.n) hashed) ^ priv.d % priv.n))) := by
  have hblock := paddedBlock_lt hn.ne' h
  have hfits : ∀ x, x % priv.n < 256 ^ keyLen priv.n := fun x =>
    lt_trans (Nat.mod_lt x hn) (Big.lt_pow_byteLen priv.n)
  simp only [priKeyEncrypt, if_neg (not_lt.mpr h), decrypt_eq hn hpair hpre hfactor hblock.le,
    Int.natAbs_natCast, copyWithLeftPad_bytes (hfits _), Option.map_some]

theorem priKeyEncrypt_ok_factor {hashed c : List UInt8}
    (h : priKeyEncrypt random priv hashed = some (.ok c)) :
    ∀ draws, random = some draws → ∃ r ir, blindingFactor priv.n draws = some (.ok (r, ir)) := by
  simp only [priKeyEncrypt] at h
  split at h
  · simp at h
  · cases hm : decrypt random priv (Big.setBytes (paddedBlock (keyLen priv.n) hashed)) with
    | none => simp [hm] at h
    | some result =>
      cases result with
      | error err => simp [hm] at h
      | ok m => exact decrypt_ok_factor hm

end Encrypt

end YulongHids.Server
