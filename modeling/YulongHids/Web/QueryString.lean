import YulongHids.Golang.Strings
import YulongHids.Text.Trim

/-!
# Query strings of the console

`SplitStrToMap` (`web/utils/common.go`) and `queryString2Map` (`web/controllers/analyze.go`): a query
is a list of pairs `key:value` with `|` between them.
-/

namespace YulongHids.Web

open Golang

/-- The characters of `unicode.IsSpace`, in UTF-8. -/
def unicodeSpaces : List GoString :=
  [[9], [10], [11], [12], [13], [32], [194, 133], [194, 160], [225, 154, 128], [226, 128, 128],
    [226, 128, 129], [226, 128, 130], [226, 128, 131], [226, 128, 132], [226, 128, 133],
    [226, 128, 134], [226, 128, 135], [226, 128, 136], [226, 128, 137], [226, 128, 138],
    [226, 128, 168], [226, 128, 169], [226, 128, 175], [226, 129, 159], [227, 128, 128]]

/-- `strings.TrimSpace`. -/
def trimUnicode (s : GoString) : GoString := Text.trim unicodeSpaces s

/-- `strings.SplitN(s, sep, 2)` at a separator of one byte. -/
def splitN2 (s : GoString) (sep : UInt8) : List GoString :=
  if sep ∈ s then [s.takeWhile (· != sep), (s.dropWhile (· != sep)).tail] else [s]

/-- The body of the loop of `SplitStrToMap`. A part without the separator is left out. -/
def splitStep (lib : TextLib) (sep2 : UInt8) (resultmap : Record) (pair : GoString) : Record :=
  match splitN2 pair sep2 with
  | [z0, z1] => resultmap.insert (lib.toLower (trimUnicode z0)) (trimUnicode z1)
  | _ => resultmap

def splitStrToMap (lib : TextLib) (s : GoString) (sep1 sep2 : UInt8) : Record :=
  (split s sep1).foldl (splitStep lib sep2) ∅

/-- `queryString2Map`: the map, and whether the type is missing. -/
def queryString2Map (lib : TextLib) (query : GoString) : Record × Bool :=
  let queryObj := splitStrToMap lib query 124 58
  (queryObj, (queryObj.lookup (str "type")).isNone)

/-! ## Writing a query -/

/-- Some blanks, as the list of their characters. -/
structure Blanks where
  chars : List GoString
  spaces : chars ⊆ unicodeSpaces

/-- The text of the blanks. -/
def Blanks.text (w : Blanks) : GoString := w.chars.flatten

/-- A pair of a query with the blanks around its key and its value. -/
structure QueryPair where
  key : GoString
  value : GoString
  beforeKey : Blanks
  afterKey : Blanks
  beforeValue : Blanks
  afterValue : Blanks

def QueryPair.text (p : QueryPair) : GoString :=
  p.beforeKey.text ++ p.key ++ p.afterKey.text ++
    58 :: (p.beforeValue.text ++ p.value ++ p.afterValue.text)

def QueryPair.entry (p : QueryPair) : (_ : GoString) × GoString := ⟨p.key, p.value⟩

/-- The query that lists some pairs. -/
def queryText (pairs : List QueryPair) : GoString := join (pairs.map QueryPair.text) [124]

/-- An entry that can be written in a query: the key is trimmed and in lower case, the value is
trimmed, and neither contains a separator that would end it. -/
structure Writable (lib : TextLib) (entry : (_ : GoString) × GoString) : Prop where
  key_lower : lib.toLower entry.1 = entry.1
  key_trimmed : trimUnicode entry.1 = entry.1
  key_colon : 58 ∉ entry.1
  key_bar : 124 ∉ entry.1
  value_trimmed : trimUnicode entry.2 = entry.2
  value_bar : 124 ∉ entry.2

end YulongHids.Web
