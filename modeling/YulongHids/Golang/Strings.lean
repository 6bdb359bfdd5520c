import Mathlib.Data.List.AList
import Mathlib.Data.List.Sort
import Mathlib.Data.List.Infix
import Mathlib.Data.List.DropRight
import Mathlib.Tactic

/-!
# Go strings and maps

The part of the Go standard library that the programs share: strings as byte sequences, the
functions of `strings`, `sort` and `strconv` they call, and maps with string keys.

A map is a finite association list without duplicate keys. The order of its entries is one of the
orders in which a `range` loop may visit it; a result about every iteration order is a result
about every permutation of the entries.
-/

namespace YulongHids.Golang

/-- A Go string is the sequence of its bytes; it need not be valid UTF-8. -/
abbrev GoString := List UInt8

instance : LawfulBEq GoString := inferInstance

/-- The bytes of a string literal. -/
def str (s : String) : GoString := s.toByteArray.data.toList

@[simp] theorem str_inj {a b : String} : str a = str b ↔ a = b := by
  constructor
  · intro h
    exact String.toByteArray_inj.1 (ByteArray.ext (Array.toList_inj.1 h))
  · rintro rfl; rfl

/-- Unicode case mapping and regular expressions of the Go library. The development never looks
inside them, so its results hold whatever the two functions are. -/
structure TextLib where
  /-- `strings.ToLower`. -/
  toLower : GoString → GoString
  /-- `regexp.Compile`: the unanchored match of a valid pattern, `none` for an invalid one. -/
  compile : GoString → Option (GoString → Bool)

/-! ## `strings` and `sort`

`Split` and `SplitN` (at a separator of one byte), `Join`, `Contains` and `sort.Strings` (the byte
order).
-/

def split (s : GoString) (sep : UInt8) : List GoString := s.splitOn sep

/-- `strings.SplitN` with a limit that is not negative. -/
def splitN (s : GoString) (sep : UInt8) : ℕ → List GoString
  | 0 => []
  | 1 => [s]
  | n + 2 =>
    if sep ∈ s then s.takeWhile (· != sep) :: splitN (s.dropWhile (· != sep)).tail sep (n + 1)
    else [s]

/-- `strings.Split(s, sep)[0]` for a `sep` that is not empty: what stands before it. -/
def splitHead (sep : GoString) : GoString → GoString
  | [] => []
  | b :: s => if sep <+: b :: s then [] else b :: splitHead sep s

/-- `strings.Cut`, `none` if `sep` does not occur. -/
def cut (sep : GoString) : GoString → Option (GoString × GoString)
  | [] => if sep = [] then some ([], []) else none
  | b :: s =>
    if sep <+: b :: s then some ([], (b :: s).drop sep.length)
    else (cut sep s).map fun r => (b :: r.1, r.2)

def join (a : List GoString) (sep : GoString) : GoString := sep.intercalate a

def contains (s substr : GoString) : Bool := decide (substr <:+: s)

/-- `bytes.TrimRight` with a cutset of one byte. -/
def trimRight (s : GoString) (cut : UInt8) : GoString := s.rdropWhile (· == cut)

/-- `strings.TrimSpace` on ASCII text. -/
def trimSpace (s : GoString) : GoString :=
  let space : UInt8 → Bool := fun b => (9 ≤ b && b ≤ 13) || b == 32
  (s.dropWhile space).rdropWhile space

/-- The class `\s` of regular expressions. -/
def spaceClass (b : UInt8) : Bool := b == 9 || b == 10 || b == 12 || b == 13 || b == 32

/-- `ReplaceAllString(s, " ")` for the pattern `\s+`. -/
def replaceSpaces : GoString → GoString
  | [] => []
  | b :: s =>
    if spaceClass b then
      if s.head?.any spaceClass then replaceSpaces s else 32 :: replaceSpaces s
    else b :: replaceSpaces s

def sortStrings (a : List GoString) : List GoString := a.insertionSort (· ≤ ·)

def lowerByte (b : UInt8) : UInt8 := if 65 ≤ b ∧ b ≤ 90 then b + 32 else b

/-- The text functions on ASCII text and patterns without regular-expression operators: a pattern
matches where it occurs. -/
def plainText : TextLib where
  toLower s := s.map lowerByte
  compile pat := if (str "\\.+*?()|[]\x7b\x7d^$").all (· ∉ pat) then some (contains · pat) else none

/-! ## `strconv` -/

inductive NumError where
  | errSyntax
  | errRange
  deriving DecidableEq, Repr

/-- The digit loop of `strconv.ParseUint` for base 10 and 64 bits. -/
def parseDigits : GoString → ℕ → Except NumError ℕ
  | [], n => .ok n
  | c :: s, n =>
    if c < 48 ∨ 57 < c then .error .errSyntax
    else if 2 ^ 64 ≤ n * 10 + (c.toNat - 48) then .error .errRange
    else parseDigits s (n * 10 + (c.toNat - 48))

/-- `strconv.ParseUint(s, 10, 64)`. -/
def parseUint (s : GoString) : Except NumError ℕ :=
  if s = [] then .error .errSyntax else parseDigits s 0

/-- The optional sign in front of a decimal number: whether it is a minus, and the rest. -/
def cutSign : GoString → Bool × GoString
  | 43 :: s => (false, s)
  | 45 :: s => (true, s)
  | s => (false, s)

/-- `strconv.Atoi` on a 64-bit platform: the value, and the error if there is one. A syntax error
comes with 0, a range error with the nearest representable number. -/
def atoi (s : GoString) : ℤ × Option NumError :=
  let neg := (cutSign s).1
  match parseUint (cutSign s).2 with
  | .error .errSyntax => (0, some .errSyntax)
  | .error .errRange => (if neg then -2 ^ 63 else 2 ^ 63 - 1, some .errRange)
  | .ok un =>
    if neg then if 2 ^ 63 < un then (-2 ^ 63, some .errRange) else (-un, none)
    else if 2 ^ 63 ≤ un then (2 ^ 63 - 1, some .errRange) else (un, none)

/-- The decimal digits of a number, as `strconv.Itoa` writes one that is not negative. -/
def itoa (n : ℕ) : GoString :=
  if n = 0 then [48] else (Nat.digits 10 n).reverse.map fun d => 48 + d.toUInt8

def hexDigit (n : ℕ) : UInt8 := if n < 10 then 48 + n.toUInt8 else 87 + n.toUInt8

/-! ## Maps -/

abbrev GoMap (V : Type) := AList fun _ : GoString => V

abbrev Record := GoMap GoString

/-- Indexing a `map[string]string`: a missing key yields the empty string. -/
def Record.get (m : Record) (k : GoString) : GoString := (m.lookup k).getD []

@[simp] theorem Record.get_empty (k : GoString) : Record.get ∅ k = [] := rfl

@[simp] theorem Record.get_insert (m : Record) (k v : GoString) :
    Record.get (m.insert k v) k = v := by
  simp [Record.get]

theorem Record.get_insert_ne (m : Record) {k k' : GoString} (h : k' ≠ k) (v : GoString) :
    Record.get (m.insert k v) k' = Record.get m k' := by
  rw [Record.get, AList.lookup_insert_ne h, Record.get]

theorem Record.get_erase (m : Record) (k k' : GoString) :
    Record.get (m.erase k) k' = if k' = k then [] else Record.get m k' := by
  by_cases h : k' = k
  · subst h
    rw [if_pos rfl, Record.get, AList.lookup_erase]
    rfl
  · rw [if_neg h, Record.get, AList.lookup_erase_ne h, Record.get]

end YulongHids.Golang
