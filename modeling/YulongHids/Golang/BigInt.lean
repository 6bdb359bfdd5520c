import Mathlib.Data.Nat.Digits.Defs
import Mathlib.Data.Nat.Digits.Lemmas
import Mathlib.Data.Int.GCD
import YulongHids.Golang.Strings

/-!
# Big integers

The operations of `math/big` that the RSA code uses. Numbers that the code never makes negative are
natural numbers here.
-/

namespace YulongHids.Golang.Big

def bitLen (n : ℕ) : ℕ := if n = 0 then 0 else n.log2 + 1

/-- `SetBytes`: a number in big-endian order. -/
def setBytes (buf : List UInt8) : ℕ := buf.foldl (fun n b => n * 256 + b.toNat) 0

/-- `Bytes`: the big-endian bytes without leading zeros. -/
def bytes (n : ℕ) : List UInt8 := ((Nat.digits 256 n).map Nat.toUInt8).reverse

/-- A number written on `k` bytes, if it fits. -/
def fillBytes (k n : ℕ) : List UInt8 := List.replicate (k - (bytes n).length) 0 ++ bytes n

/-- `Exp`, by squaring along the bits of the exponent, the most significant one first. -/
def exp (x y m : ℕ) : ℕ :=
  (Nat.digits 2 y).foldr (fun bit z => z * z % m * (if bit = 0 then 1 else x) % m) (1 % m)

/-- `GCD`: the divisor and the first of the two Bezout coefficients. -/
def gcd (a b : ℕ) : ℕ × ℤ := (Nat.gcd a b, Nat.gcdA a b)

end YulongHids.Golang.Big
