import YulongHids.Golang.Strings

/-!
# UTF-8

`unicode/utf8`: the runes of a string that need not be valid. A byte that begins no encoding, or one
that is cut short, stands alone, as a rune without a value.
-/

namespace YulongHids.Golang

/-- `utf8.EncodeRune`. A surrogate and a number above `utf8.MaxRune` become `utf8.RuneError`. -/
def encodeRune (r : ℕ) : GoString :=
  if r < 0x80 then [r.toUInt8]
  else if r < 0x800 then [(0xC0 + r / 0x40).toUInt8, (0x80 + r % 0x40).toUInt8]
  else if 0x10FFFF < r ∨ (0xD800 ≤ r ∧ r < 0xE000) then [0xEF, 0xBF, 0xBD]
  else if r < 0x10000 then
    [(0xE0 + r / 0x1000).toUInt8, (0x80 + r / 0x40 % 0x40).toUInt8, (0x80 + r % 0x40).toUInt8]
  else
    [(0xF0 + r / 0x40000).toUInt8, (0x80 + r / 0x1000 % 0x40).toUInt8,
      (0x80 + r / 0x40 % 0x40).toUInt8, (0x80 + r % 0x40).toUInt8]

/-- The encoding of `utf8.RuneError`. -/
def runeError : GoString := encodeRune 0xFFFD

/-- A continuation byte, where the second byte of an encoding has its own bounds. -/
def tailByte (lo hi b : UInt8) : Bool := lo ≤ b && b ≤ hi

/-- The number of bytes of the encoding that begins with a byte, and the bounds of the second one. -/
def acceptRange (b : UInt8) : Option (ℕ × UInt8 × UInt8) :=
  if b < 0xC2 then none
  else if b < 0xE0 then some (2, 0x80, 0xBF)
  else if b = 0xE0 then some (3, 0xA0, 0xBF)
  else if b = 0xED then some (3, 0x80, 0x9F)
  else if b < 0xF0 then some (3, 0x80, 0xBF)
  else if b = 0xF0 then some (4, 0x90, 0xBF)
  else if b < 0xF4 then some (4, 0x80, 0xBF)
  else if b = 0xF4 then some (4, 0x80, 0x8F)
  else none

/-- The low six bits of a byte. -/
def lowBits (b : UInt8) : ℕ := b.toNat % 0x40

/-- `utf8.DecodeRuneInString` on a string that is not empty: the rune and its size, `none` for an
encoding that is not valid. -/
def decodeRune : GoString → Option (ℕ × ℕ)
  | [] => none
  | a :: s =>
    if a < 0x80 then some (a.toNat, 1)
    else
      match acceptRange a, s with
      | some (2, lo, hi), b :: _ =>
        if tailByte lo hi b then some (a.toNat % 0x20 * 0x40 + lowBits b, 2) else none
      | some (3, lo, hi), b :: c :: _ =>
        if tailByte lo hi b && tailByte 0x80 0xBF c then
          some (a.toNat % 0x10 * 0x1000 + lowBits b * 0x40 + lowBits c, 3)
        else none
      | some (4, lo, hi), b :: c :: d :: _ =>
        if tailByte lo hi b && tailByte 0x80 0xBF c && tailByte 0x80 0xBF d then
          some (a.toNat % 0x8 * 0x40000 + lowBits b * 0x1000 + lowBits c * 0x40 + lowBits d, 4)
        else none
      | _, _ => none

/-- A rune of a string: its bytes and its value, `none` for a byte that stands alone. -/
structure Rune where
  bytes : GoString
  value : Option ℕ
  deriving DecidableEq

/-- The bytes that a rune has when it is written again. -/
def Rune.valid (r : Rune) : GoString := r.value.elim runeError encodeRune

/-- The loop of `runes`, where `pending` bytes of the last rune are still to come. -/
def runesFrom : ℕ → GoString → List Rune
  | _, [] => []
  | pending + 1, _ :: s => runesFrom pending s
  | 0, b :: s =>
    match decodeRune (b :: s) with
    | some (r, size) => ⟨(b :: s).take size, some r⟩ :: runesFrom (size - 1) s
    | none => ⟨[b], none⟩ :: runesFrom 0 s

/-- The runes that a `range` loop visits. -/
def runes (s : GoString) : List Rune := runesFrom 0 s

/-- `string([]rune(s))`: every byte that stands alone becomes `utf8.RuneError`. -/
def coerceUTF8 (s : GoString) : GoString := (runes s).flatMap Rune.valid

/-- `utf8.ValidString` -/
def validString (s : GoString) : Bool := (runes s).all fun r => r.value.isSome

end YulongHids.Golang
