import Mathlib.Data.Int.ModEq
import Mathlib.Data.Nat.Prime.Defs
import YulongHids.Golang.BigInt

/-!
# Task encryption of the server

`server/action/rsa.go`. A task is padded to the length of the modulus and raised to the private
exponent, with blinding and, if the key has precomputed values, by Chinese remaindering.
-/

namespace YulongHids.Server

open Golang

structure CRTValue where
  exp : ℕ
  coeff : ℕ
  r : ℕ

/-- `rsa.PrecomputedValues`. -/
structure PrecomputedValues where
  dp : ℕ
  dq : ℕ
  qinv : ℕ
  crtValues : List CRTValue

/-- `rsa.PrivateKey`. Before `Precompute` the field `Precomputed.Dp` is nil. -/
structure PrivateKey where
  n : ℕ
  e : ℕ
  d : ℕ
  primes : List ℕ
  precomputed : Option PrecomputedValues

/-- The length of a modulus in bytes. -/
def keyLen (n : ℕ) : ℕ := (Big.bitLen n + 7) / 8

def modInverse (a n : ℕ) : Option ℤ :=
  let (g, x) := Big.gcd a n
  if g ≠ 1 then none
  else if x < 1 then some (x + n)
  else some x

/-- The loop that draws the blinding factor `r`, over the results of the calls of `rand.Int`: the
factor and its inverse, or the error of the source. It does not end on a source without an
invertible factor. -/
def blindingFactor (n : ℕ) : List (Except GoString ℕ) → Option (Except GoString (ℕ × ℤ))
  | [] => none
  | .error err :: _ => some (.error err)
  | .ok r :: draws =>
    let r := if r = 0 then 1 else r
    match modInverse r n with
    | some ir => some (.ok (r, ir))
    | none => blindingFactor n draws

/-- The loop over `CRTValues`, where `primes` are those from the third one on. -/
def crtLoop (c : ℕ) : List CRTValue → List ℕ → ℤ → Option ℤ
  | [], _, m => some m
  | _ :: _, [], _ => none
  | values :: rest, prime :: primes, m =>
    let m2 : ℤ := Big.exp c values.exp prime
    let m2 := (m2 - m) * values.coeff % prime
    let m2 := if m2 < 0 then m2 + prime else m2
    crtLoop c rest primes (m + m2 * values.r)

/-- The exponentiation of `decrypt`; the result `none` is an index out of range. -/
def privateExp (priv : PrivateKey) (c : ℕ) : Option ℤ :=
  match priv.precomputed with
  | none => some (Big.exp c priv.d priv.n)
  | some pre =>
    match priv.primes with
    | p :: q :: primes =>
      let m : ℤ := Big.exp c pre.dp p
      let m2 : ℤ := Big.exp c pre.dq q
      let m := m - m2
      let m := if m < 0 then m + p else m
      let m := m * pre.qinv % p
      crtLoop c pre.crtValues primes (m * q + m2)
    | _ => none

/-- `decrypt`, with the results of `rand.Int` if there is a random source. The result `none` stands
for a panic or a loop that does not end. -/
def decrypt (random : Option (List (Except GoString ℕ))) (priv : PrivateKey) (c : ℕ) :
    Option (Except GoString ℤ) :=
  if c > priv.n then some (.error (str "decryption error"))
  else
    match random with
    | none => (privateExp priv c).map .ok
    | some draws =>
      match blindingFactor priv.n draws with
      | none => none
      | some (.error err) => some (.error err)
      | some (.ok (r, ir)) =>
        let rpowe := Big.exp r priv.e priv.n
        (privateExp priv (c * rpowe % priv.n)).map fun m => .ok (m * ir % priv.n)

/-- `copyWithLeftPad`: `src` behind zeros, on `k` bytes; `none` if it is longer. -/
def copyWithLeftPad (k : ℕ) (src : List UInt8) : Option (List UInt8) :=
  if src.length ≤ k then some (List.replicate (k - src.length) 0 ++ src) else none

/-- The block `em` of `priKeyEncrypt`: the byte 1 at index 1, `0xff` from index 2 up to
`k - tLen - 1`, and the message at the end; the other bytes stay zero. -/
def paddedBlock (k : ℕ) (hashed : List UInt8) : List UInt8 :=
  0 :: 1 :: (List.replicate (k - hashed.length - 1 - 2) 255 ++ 0 :: hashed)

def priKeyEncrypt (random : Option (List (Except GoString ℕ))) (priv : PrivateKey)
    (hashed : List UInt8) : Option (Except GoString (List UInt8)) :=
  let tLen := hashed.length
  let k := keyLen priv.n
  if k < tLen + 11 then some (.error (str "data length error"))
  else
    match decrypt random priv (Big.setBytes (paddedBlock k hashed)) with
    | none => none
    | some (.error err) => some (.error err)
    | some (.ok c) => (copyWithLeftPad k (Big.bytes c.natAbs)).map .ok

/-! ## Keys and random sources -/

/-- Raising to `a` and to `b` is the same modulo `p`. -/
def SamePower (p a b : ℕ) : Prop := ∀ c : ℕ, c ^ a % p = c ^ b % p

/-- The values for the primes from the third one on, where `r` is the product of those before. -/
def CRTConsistent (d : ℕ) : ℕ → List ℕ → List CRTValue → Prop
  | _, [], [] => True
  | r, prime :: primes, v :: values =>
    0 < prime ∧ SamePower prime v.exp d ∧ v.r = r ∧ (v.coeff : ℤ) * r ≡ 1 [ZMOD prime] ∧
      CRTConsistent d (r * prime) primes values
  | _, _, _ => False

/-- The precomputed values are those of the key. -/
structure PrecomputedValues.Consistent (pre : PrecomputedValues) (priv : PrivateKey) : Prop where
  primes : ∃ p q primes, priv.primes = p :: q :: primes ∧ 0 < p ∧ 0 < q ∧
    SamePower p pre.dp priv.d ∧ SamePower q pre.dq priv.d ∧ (pre.qinv : ℤ) * q ≡ 1 [ZMOD p] ∧
    CRTConsistent priv.d (q * p) primes pre.crtValues
  modulus : priv.primes.prod = priv.n

/-- A source that comes, before it fails, to a factor that the loop accepts. -/
def DeliversFactor (n : ℕ) (draws : List (Except GoString ℕ)) : Prop :=
  ∃ (drawn : List ℕ) (r : ℕ) (rest : List (Except GoString ℕ)),
    draws = drawn.map .ok ++ .ok r :: rest ∧ (r = 0 ∨ Nat.Coprime r n)

/-- What `Precompute` stores for the primes from the third one on, where `r` is the product of those
before. -/
def CRTDefined (d : ℕ) : ℕ → List ℕ → List CRTValue → Prop
  | _, [], [] => True
  | r, prime :: primes, v :: values =>
    v.exp = d % (prime - 1) ∧ v.r = r ∧ (v.coeff : ℤ) * r ≡ 1 [ZMOD prime] ∧
      CRTDefined d (r * prime) primes values
  | _, _, _ => False

/-- The values of `crypto/rsa`: the exponent modulo each prime minus one, and the inverses. -/
def PrecomputedValues.Defined (pre : PrecomputedValues) (priv : PrivateKey) : Prop :=
  ∃ p q primes, priv.primes = p :: q :: primes ∧ pre.dp = priv.d % (p - 1) ∧
    pre.dq = priv.d % (q - 1) ∧ (pre.qinv : ℤ) * q ≡ 1 [ZMOD p] ∧
    CRTDefined priv.d (p * q) primes pre.crtValues

/-- The relations of `crypto/rsa` for the key, which has two primes at least. -/
structure PrivateKey.Relations (priv : PrivateKey) : Prop where
  prime : ∀ p ∈ priv.primes, p.Prime
  distinct : priv.primes.Nodup
  two : 2 ≤ priv.primes.length
  modulus : priv.primes.prod = priv.n
  exponents : ∀ p ∈ priv.primes, priv.e * priv.d ≡ 1 [MOD p - 1]
  precomputed : ∀ pre, priv.precomputed = some pre → pre.Defined priv

end YulongHids.Server
