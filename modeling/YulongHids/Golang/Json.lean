import YulongHids.Golang.Utf8

/-!
# JSON

`encoding/json` on strings, lists of strings and maps from strings to strings. `marshal…` writes
them, with the characters of HTML escaped; `decode` reads any text, and `unmarshal…` fits what was
read into a variable. The texts of errors are left out.
-/

namespace YulongHids.Golang

inductive Json where
  | null
  | bool (b : Bool)
  | number (text : GoString)
  | string (s : GoString)
  | array (elems : List Json)
  | object (members : List (GoString × Json))

namespace Json

/-! ## Encoding -/

/-- A rune inside a string. -/
def escapeRune (r : Rune) : GoString :=
  match r.value with
  | none => str "\\ufffd"
  | some c =>
    if c = 92 ∨ c = 34 then [92, c.toUInt8]
    else if c = 10 then str "\\n"
    else if c = 13 then str "\\r"
    else if c = 9 then str "\\t"
    else if c < 32 ∨ c = 60 ∨ c = 62 ∨ c = 38 then
      str "\\u00" ++ [hexDigit (c / 16), hexDigit (c % 16)]
    else if c = 0x2028 ∨ c = 0x2029 then str "\\u202" ++ [hexDigit (c % 16)]
    else r.bytes

/-- A string behind its opening quote. -/
def stringBody (s : GoString) : GoString := (runes s).flatMap escapeRune ++ [34]

def marshalString (s : GoString) : GoString := 34 :: stringBody s

/-- The entries of a map in the order of their keys. -/
def sortedEntries (m : Record) : List (GoString × GoString) :=
  (sortStrings m.keys).map fun k => (k, m.get k)

def marshalMember (entry : GoString × GoString) : GoString :=
  marshalString entry.1 ++ 58 :: marshalString entry.2

def marshalMap (m : Record) : GoString :=
  123 :: join ((sortedEntries m).map marshalMember) [44] ++ [125]

/-! ## Decoding -/

def skipSpace (s : GoString) : GoString :=
  s.dropWhile fun b => b == 32 || b == 9 || b == 10 || b == 13

/-- The rest behind a byte and the blanks in front of it. -/
def expect (b : UInt8) (s : GoString) : Option GoString :=
  match skipSpace s with
  | [] => none
  | c :: rest => if c = b then some rest else none

def hexValue (c : UInt8) : Option ℕ :=
  if 48 ≤ c ∧ c ≤ 57 then some (c.toNat - 48)
  else if 97 ≤ c ∧ c ≤ 102 then some (c.toNat - 87)
  else if 65 ≤ c ∧ c ≤ 70 then some (c.toNat - 55)
  else none

/-- Four hexadecimal digits. -/
def readHex4 : GoString → Option (ℕ × GoString)
  | a :: b :: c :: d :: rest =>
    match hexValue a, hexValue b, hexValue c, hexValue d with
    | some a, some b, some c, some d => some (a * 0x1000 + b * 0x100 + c * 0x10 + d, rest)
    | _, _, _, _ => none
  | _ => none

/-- The second half of a surrogate pair. -/
def readLowSurrogate : GoString → Option (ℕ × GoString)
  | 92 :: 117 :: rest =>
    match readHex4 rest with
    | some (low, rest) => if 0xDC00 ≤ low ∧ low < 0xE000 then some (low, rest) else none
    | none => none
  | _ => none

/-- The number behind `\u`. A surrogate without its other half is `utf8.RuneError`. -/
def readUnicode (s : GoString) : Option (GoString × GoString) :=
  match readHex4 s with
  | none => none
  | some (r, rest) =>
    if 0xD800 ≤ r ∧ r < 0xE000 then
      match readLowSurrogate rest with
      | some (low, rest') =>
        if r < 0xDC00 then
          some (encodeRune (0x10000 + (r - 0xD800) * 0x400 + (low - 0xDC00)), rest')
        else some (runeError, rest)
      | none => some (runeError, rest)
    else some (encodeRune r, rest)

/-- The byte that an escape of one character stands for. -/
def simpleEscape (c : UInt8) : Option UInt8 :=
  if c = 34 ∨ c = 92 ∨ c = 47 then some c
  else if c = 98 then some 8
  else if c = 102 then some 12
  else if c = 110 then some 10
  else if c = 114 then some 13
  else if c = 116 then some 9
  else none

/-- What stands behind a backslash. -/
def readEscape : GoString → Option (GoString × GoString)
  | [] => none
  | c :: rest =>
    if c = 117 then readUnicode rest else (simpleEscape c).map fun b => ([b], rest)

/-- One character of a string: the bytes it stands for, and the rest. -/
def readChar : GoString → Option (GoString × GoString)
  | [] => none
  | b :: rest =>
    if b < 32 then none
    else if b = 92 then readEscape rest
    else if b < 128 then some ([b], rest)
    else
      match decodeRune (b :: rest) with
      | some (r, size) => some (encodeRune r, (b :: rest).drop size)
      | none => some (runeError, rest)

/-- A string from behind its opening quote on. A character has a byte at least, so that the length of
the text is enough for `fuel`. -/
def readString : ℕ → GoString → Option (GoString × GoString)
  | 0, _ => none
  | fuel + 1, s =>
    if s.head? = some 34 then some ([], s.tail)
    else
      match readChar s with
      | none => none
      | some (bytes, rest) => (readString fuel rest).map fun r => (bytes ++ r.1, r.2)

def isDigit (b : UInt8) : Bool := 48 ≤ b && b ≤ 57

/-- One digit at least. -/
def readDigits (s : GoString) : Option (GoString × GoString) :=
  if (s.takeWhile isDigit) = [] then none else some (s.takeWhile isDigit, s.dropWhile isDigit)

/-- The integer part: no digit follows a leading zero. -/
def readInteger : GoString → Option (GoString × GoString)
  | 48 :: rest => some ([48], rest)
  | s => readDigits s

def readFraction : GoString → Option (GoString × GoString)
  | 46 :: rest => (readDigits rest).map fun r => (46 :: r.1, r.2)
  | s => some ([], s)

def readExponent : GoString → Option (GoString × GoString)
  | e :: rest =>
    if e = 101 ∨ e = 69 then
      match rest with
      | sign :: rest' =>
        if sign = 43 ∨ sign = 45 then (readDigits rest').map fun r => (e :: sign :: r.1, r.2)
        else (readDigits rest).map fun r => (e :: r.1, r.2)
      | [] => none
    else some ([], e :: rest)
  | [] => some ([], [])

def readNumber (s : GoString) : Option (Json × GoString) := do
  let (sign, s) := match s with
    | 45 :: rest => (([45] : GoString), rest)
    | s => ([], s)
  let (integer, s) ← readInteger s
  let (fraction, s) ← readFraction s
  let (exponent, s) ← readExponent s
  return (.number (sign ++ integer ++ fraction ++ exponent), s)

/-- `true`, `false` or `null` -/
def readLiteral (s : GoString) : Option (Json × GoString) :=
  if str "true" <+: s then some (.bool true, s.drop 4)
  else if str "false" <+: s then some (.bool false, s.drop 5)
  else if str "null" <+: s then some (.null, s.drop 4)
  else none

mutual

/-- A value. Every call reads a byte at least before the next one, so that one more than the length of
the text is enough for `fuel`. -/
def readValue : ℕ → GoString → Option (Json × GoString)
  | 0, _ => none
  | fuel + 1, s =>
    match skipSpace s with
    | [] => none
    | b :: rest =>
      if b = 123 then
        match expect 125 rest with
        | some rest => some (.object [], rest)
        | none => (readMembers fuel rest).map fun r => (.object r.1, r.2)
      else if b = 91 then
        match expect 93 rest with
        | some rest => some (.array [], rest)
        | none => (readElems fuel rest).map fun r => (.array r.1, r.2)
      else if b = 34 then (readString rest.length rest).map fun r => (.string r.1, r.2)
      else if b = 45 ∨ isDigit b then readNumber (b :: rest)
      else readLiteral (b :: rest)

/-- The members of an object that has one at least. -/
def readMembers : ℕ → GoString → Option (List (GoString × Json) × GoString)
  | 0, _ => none
  | fuel + 1, s => do
    let s ← expect 34 s
    let (key, s) ← readString s.length s
    let s ← expect 58 s
    let (value, s) ← readValue fuel s
    match expect 44 s with
    | some s => (readMembers fuel s).map fun r => ((key, value) :: r.1, r.2)
    | none => (expect 125 s).map fun s => ([(key, value)], s)

/-- The elements of an array that has one at least. -/
def readElems : ℕ → GoString → Option (List Json × GoString)
  | 0, _ => none
  | fuel + 1, s => do
    let (value, s) ← readValue fuel s
    match expect 44 s with
    | some s => (readElems fuel s).map fun r => (value :: r.1, r.2)
    | none => (expect 93 s).map fun s => ([value], s)

end

/-- The value that a text is. -/
def decode (s : GoString) : Option Json :=
  match readValue (s.length + 1) s with
  | some (value, rest) => if skipSpace rest = [] then some value else none
  | none => none

/-- A member of an object that is read into a `map[string]string`; `null` leaves the element as it is
made. -/
def unmarshalMember (m : Record) : GoString × Json → Option Record
  | (key, .string s) => some (m.insert key s)
  | (key, .null) => some (m.insert key [])
  | _ => none

/-- `json.Unmarshal` into a nil `map[string]string`, `none` for an error. -/
def unmarshalMap (s : GoString) : Option Record :=
  match decode s with
  | some (.object members) => members.foldlM unmarshalMember ∅
  | some .null => some ∅
  | _ => none

end Json

end YulongHids.Golang
