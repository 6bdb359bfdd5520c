import YulongHids.Golang.Strings

/-!
# Base 64 without padding

`base64.RawStdEncoding`. The decoder passes over line feeds and carriage returns; it stops at the
first group that is not valid, with what it has by then. The error it returns there is left out.
-/

namespace YulongHids.Golang.Base64

/-- The character of a number of six bits. -/
def digit (n : ℕ) : UInt8 :=
  if n < 26 then 65 + n.toUInt8
  else if n < 52 then 97 + (n - 26).toUInt8
  else if n < 62 then 48 + (n - 52).toUInt8
  else if n = 62 then 43
  else 47

def digitValue (c : UInt8) : Option ℕ :=
  if 65 ≤ c ∧ c ≤ 90 then some (c.toNat - 65)
  else if 97 ≤ c ∧ c ≤ 122 then some (c.toNat - 97 + 26)
  else if 48 ≤ c ∧ c ≤ 57 then some (c.toNat - 48 + 52)
  else if c = 43 then some 62
  else if c = 47 then some 63
  else none

/-- `EncodeToString` -/
def encodeToString : List UInt8 → GoString
  | a :: b :: c :: s =>
    digit (a.toNat / 4) :: digit (a.toNat % 4 * 16 + b.toNat / 16) ::
      digit (b.toNat % 16 * 4 + c.toNat / 64) :: digit (c.toNat % 64) :: encodeToString s
  | [a, b] =>
    [digit (a.toNat / 4), digit (a.toNat % 4 * 16 + b.toNat / 16), digit (b.toNat % 16 * 4)]
  | [a] => [digit (a.toNat / 4), digit (a.toNat % 4 * 16)]
  | [] => []

def firstByte (x y : ℕ) : UInt8 := (x * 4 + y / 16).toUInt8

def secondByte (y z : ℕ) : UInt8 := (y * 16 + z / 4).toUInt8

def thirdByte (z w : ℕ) : UInt8 := (z * 64 + w).toUInt8

/-- The groups of four characters, the last of which may have two or three. -/
def decodeGroups : GoString → List UInt8
  | x :: y :: z :: w :: s =>
    match digitValue x, digitValue y, digitValue z, digitValue w with
    | some x, some y, some z, some w =>
      firstByte x y :: secondByte y z :: thirdByte z w :: decodeGroups s
    | _, _, _, _ => []
  | [x, y, z] =>
    match digitValue x, digitValue y, digitValue z with
    | some x, some y, some z => [firstByte x y, secondByte y z]
    | _, _, _ => []
  | [x, y] =>
    match digitValue x, digitValue y with
    | some x, some y => [firstByte x y]
    | _, _ => []
  | _ => []

/-- `DecodeString` -/
def decodeString (s : GoString) : List UInt8 := decodeGroups (s.filter fun c => c != 10 && c != 13)

end YulongHids.Golang.Base64
