import YulongHids.Golang.BigInt
import YulongHids.Golang.Sha1

/-!
# One-time passwords

`web/utils/encrypt.go` computes the current code for the two-factor authentication of the console:
a counter of half minutes is written on eight bytes and signed with HMAC-SHA1, and four bytes of the
digest give the six digits. What RFC 4226 says about the digits stands at the end.
-/

namespace YulongHids.Web

open Golang

/-- `toBytes`: the byte of each shift, which is arithmetic on `int64`. -/
def toBytes (value : Int64) : List UInt8 :=
  let mask : Int64 := 0xFF
  let shifts : List Int64 := [56, 48, 40, 32, 24, 16, 8, 0]
  shifts.map fun shift => ((value >>> shift) &&& mask).toUInt64.toUInt8

/-- `toUint32`, `none` where an index panics. -/
def toUint32 (bytes : List UInt8) : Option UInt32 := do
  let b0 ← bytes[0]?
  let b1 ← bytes[1]?
  let b2 ← bytes[2]?
  let b3 ← bytes[3]?
  some ((b0.toUInt32 <<< 24) + (b1.toUInt32 <<< 16) + (b2.toUInt32 <<< 8) + b3.toUInt32)

/-- `s[low:high]` with indices of type `byte`, `none` where it panics. The capacity of `s` is taken
to be its length. -/
def byteSlice (s : List UInt8) (low high : UInt8) : Option (List UInt8) :=
  if low ≤ high ∧ high.toNat ≤ s.length then some ((s.take high.toNat).drop low.toNat) else none

/-- `hash[offset : offset+4]`, at the last nibble of the hash. The addition is one of bytes. -/
def hashParts (hash : List UInt8) : Option (List UInt8) := do
  let last ← hash.getLast?
  let offset := last &&& 0x0F
  byteSlice hash offset (offset + 4)

/-- `oneTimePassword` from the signature on. -/
def passwordOfHash (hash : List UInt8) : Option UInt32 := do
  let parts ← hashParts hash
  let first ← parts[0]?
  let number ← toUint32 (parts.set 0 (first &&& 0x7F))
  some (number % 1000000)

def oneTimePassword (key value : List UInt8) : Option UInt32 :=
  passwordOfHash (hmacSha1 key value)

/-- `GetPassword` from the decoding of the key on: base32 of the key in upper case and without
spaces, `none` for an error. -/
def getPassword (keyDecode : Option (List UInt8)) (epochSeconds : Int64) : Option UInt32 :=
  match keyDecode with
  | some key => oneTimePassword key (toBytes (epochSeconds / 30))
  | none => some 0

namespace Rfc4226

/-- The value of HMAC-SHA1. -/
abbrev Digest := { hash : List UInt8 // hash.length = 20 }

/-- The low-order four bits of byte 19. -/
def offset (hash : Digest) : ℕ := (hash.val.getD 19 0).toNat % 16

/-- Dynamic truncation: the last 31 bits of the four bytes at the offset. -/
def truncate (hash : Digest) : ℕ := Big.setBytes ((hash.val.drop (offset hash)).take 4) % 2 ^ 31

/-- Six digits. -/
def password (hash : Digest) : ℕ := truncate hash % 10 ^ 6

/-- A key and the big-endian counter of eight bytes, signed. -/
def sign (key : List UInt8) (counter : ℕ) : Digest :=
  ⟨hmacSha1 key (Big.fillBytes 8 counter), hmacSha1_length ..⟩

/-- The password of a key and a counter. -/
def hotp (key : List UInt8) (counter : ℕ) : ℕ := password (sign key counter)

end Rfc4226

end YulongHids.Web
