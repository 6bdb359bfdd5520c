import YulongHids.Golang.Net

/-!
# Internal addresses

`ipToInt` and `isLan` of the agent (`agent/monitor/lib.go`). The server has a copy of both
(`server/safecheck/lib.go`) that first counts the dots; the agent's indexes four parts of any text,
and the result `none` models its panic.
-/

namespace YulongHids.Agent

open Golang

/-- `ipToInt`. The shifts and sums are of 64 bits. -/
def ipToInt (ip : GoString) : Option ℤ :=
  match split ip 46 with
  | b0 :: b1 :: b2 :: b3 :: _ =>
    some (Int.bmod ((atoi b0).1 * 2 ^ 24 + (atoi b1).1 * 2 ^ 16 + (atoi b2).1 * 2 ^ 8 + (atoi b3).1)
      (2 ^ 64))
  | _ => none

/-- `isLan`. -/
def isLan (ip : GoString) : Option Bool :=
  (ipToInt ip).map fun ipInt =>
    (167772160 ≤ ipInt && ipInt ≤ 184549375) || (2886729728 ≤ ipInt && ipInt ≤ 2887778303) ||
      (3232235520 ≤ ipInt && ipInt ≤ 3232301055)

/-! ## What the ranges stand for -/

/-- The 32 bits of an address. -/
def addrBits (p4 : List UInt8) : ℕ := Nat.ofDigits 256 (p4.map UInt8.toNat).reverse

/-- The address has the first `len` bits of the network. -/
def InBlock (net : List UInt8) (len : ℕ) (p4 : List UInt8) : Prop :=
  addrBits p4 / 2 ^ (32 - len) = addrBits net / 2 ^ (32 - len)

/-- 10.0.0.0/8, 172.16.0.0/12 and 192.168.0.0/16. -/
def Internal (p4 : List UInt8) : Prop :=
  InBlock [10, 0, 0, 0] 8 p4 ∨ InBlock [172, 16, 0, 0] 12 p4 ∨ InBlock [192, 168, 0, 0] 16 p4

end YulongHids.Agent
