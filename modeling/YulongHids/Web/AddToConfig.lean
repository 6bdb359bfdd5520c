import YulongHids.Golang.Regexp
import YulongHids.Web.Config

/-!
# Listing a notice from the console

`add2config` (`web/static/js/main.js`) puts the information of a notice on the black or the white
list, with the escaping of `js.js`. The texts of the page are strings.
-/

namespace YulongHids.Web

open Golang

/-- The class of characters that `escape_regexp` replaces. -/
def escapeClass : List Char :=
  ['-', '[', ']', '/', '\x7b', '\x7d', '(', ')', '*', '+', '?', '.', '\\', '^', '$', '|']

/-- `escape_regexp`, on the characters of a text. -/
def escapeRegexp (s : List Char) : List Char :=
  s.flatMap fun c => if escapeClass.contains c then ['\\', c] else [c]

/-- `string2regexp`. -/
def string2regexp (s : String) : String := String.ofList ('^' :: (escapeRegexp s.toList ++ ['$']))

/-- `s.indexOf(c) > 0`: the first occurrence is not at the beginning. -/
def indexOfPos (s : List Char) (c : Char) : Bool := s.contains c && s.head? != some c

/-- The first match of `[\d\.]+`. -/
def firstAddress (s : List Char) : Option String :=
  let ara := (s.dropWhile fun c => !(c.isDigit || c == '.')).takeWhile fun c => c.isDigit || c == '.'
  if ara = [] then none else some (String.ofList ara)

/-- `add2config`: the form it sends, `none` if it refuses. The variable `info_` belongs to the page
and keeps its value from the last call where this one does not set it. -/
def add2config (page type info configType : String) : Option EditCfgForm :=
  if indexOfPos info.toList '|' then none
  else
    let info' := if type = "loginlog" then (firstAddress info.toList).getD page else info
    let key :=
      if type = "process" then "process"
      else if type = "loginlog" ∨ type = "connection" then "ip"
      else "other"
    let input := if key = "process" ∨ key = "other" then string2regexp info' else info'
    some ⟨str configType, str key, str input⟩

end YulongHids.Web
