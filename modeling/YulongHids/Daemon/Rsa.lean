import YulongHids.Golang.BigInt

/-!
# Task decryption of the daemon

`pubKeyDecrypt` and `leftPad` (`daemon/task/rsa.go`).
-/

namespace YulongHids.Daemon

open Golang

structure PublicKey where
  n : ℕ
  e : ℕ

/-- `leftPad`: the first bytes of `input`, at most `size` of them, behind zeros. -/
def leftPad (input : List UInt8) (size : ℕ) : List UInt8 :=
  let n := min input.length size
  List.replicate (size - n) 0 ++ input.take n

/-- The block `d` that `pubKeyDecrypt` looks at. -/
def decryptedBlock (pub : PublicKey) (data : List UInt8) : List UInt8 :=
  leftPad (Big.bytes (Big.exp (Big.setBytes data) pub.e pub.n)) ((Big.bitLen pub.n + 7) / 8)

/-- The tests and the scan of `pubKeyDecrypt` on its block `d`. The scan stops at the first zero byte
from index 2 on, and the message is what follows it. A block without one, or one that is too short for
the tests, leads to an index out of range, which is the result `none`. -/
def unpad (d : List UInt8) : Option (Except GoString (List UInt8)) :=
  match d with
  | d0 :: d1 :: rest =>
    if d0 ≠ 0 then some (.error (str "data broken, first byte is not zero"))
    else if d1 ≠ 0 ∧ d1 ≠ 1 then some (.error (str "data is not encrypted by the private key"))
    else
      match rest.dropWhile (· ≠ 0) with
      | [] => none
      | _ :: msg => some (.ok msg)
  | [d0] => if d0 ≠ 0 then some (.error (str "data broken, first byte is not zero")) else none
  | [] => none

def pubKeyDecrypt (pub : PublicKey) (data : List UInt8) : Option (Except GoString (List UInt8)) :=
  let k := (Big.bitLen pub.n + 7) / 8
  if k ≠ data.length then some (.error (str "data length error"))
  else if Big.setBytes data > pub.n then
    some (.error (str "message too long for RSA public key size"))
  else unpad (decryptedBlock pub data)

/-! ## What the daemon should accept -/

def PublicKey.len (pub : PublicKey) : ℕ := (Big.bitLen pub.n + 7) / 8

/-- `data ^ E mod N`, written on as many bytes as the modulus has. -/
def powerBlock (pub : PublicKey) (data : List UInt8) : List UInt8 :=
  Big.fillBytes pub.len (Big.setBytes data ^ pub.e % pub.n)

end YulongHids.Daemon
