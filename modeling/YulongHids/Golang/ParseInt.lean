import YulongHids.Golang.Strings

/-!
# Integers in any base

`strconv.ParseInt` with base 0 and 64 bits: the prefix of the text decides the base, and
underscores may separate digits.
-/

namespace YulongHids.Golang

/-- The lower-case form of a letter, as `strconv` computes it. -/
def lower (c : UInt8) : UInt8 := c ||| 32

def digitValue (c : UInt8) : Option ℕ :=
  if 48 ≤ c ∧ c ≤ 57 then some (c.toNat - 48)
  else if 97 ≤ lower c ∧ lower c ≤ 122 then some ((lower c).toNat - 87)
  else none

/-- The base of a number and its digits. -/
def cutBase : GoString → ℕ × GoString
  | 48 :: c :: d :: s =>
    if lower c = 98 then (2, d :: s)
    else if lower c = 111 then (8, d :: s)
    else if lower c = 120 then (16, d :: s)
    else (8, c :: d :: s)
  | 48 :: s => (8, s)
  | s => (10, s)

/-- The digit loop of `ParseUint`: the number, and whether the text has underscores. -/
def digitLoop (base : ℕ) : GoString → ℕ → Bool → Except NumError (ℕ × Bool)
  | [], n, underscores => .ok (n, underscores)
  | c :: s, n, underscores =>
    if c = 95 then digitLoop base s n true
    else
      match digitValue c with
      | none => .error .errSyntax
      | some d =>
        if base ≤ d then .error .errSyntax
        else if 2 ^ 64 ≤ n * base + d then .error .errRange
        else digitLoop base s (n * base + d) underscores

/-- What `underscoreOK` saw last: the start of the text, a digit, an underscore or another byte. -/
inductive Saw where
  | start
  | digit
  | underscore
  | other
  deriving DecidableEq, Repr

/-- The loop of `underscoreOK`. An underscore stands behind a digit and before one. -/
def underscoreLoop (hex : Bool) : GoString → Saw → Bool
  | [], saw => saw ≠ .underscore
  | c :: s, saw =>
    if 48 ≤ c ∧ c ≤ 57 ∨ hex = true ∧ 97 ≤ lower c ∧ lower c ≤ 102 then underscoreLoop hex s .digit
    else if c = 95 then saw = .digit && underscoreLoop hex s .underscore
    else saw ≠ .underscore && underscoreLoop hex s .other

/-- A base prefix counts as a digit. -/
def underscoreOK (s : GoString) : Bool :=
  match (cutSign s).2 with
  | 48 :: c :: rest =>
    if lower c = 98 ∨ lower c = 111 ∨ lower c = 120 then underscoreLoop (lower c = 120) rest .digit
    else underscoreLoop false (48 :: c :: rest) .start
  | rest => underscoreLoop false rest .start

/-- `strconv.ParseUint(s, 0, 64)`. -/
def parseUint0 (s : GoString) : Except NumError ℕ :=
  if s = [] then .error .errSyntax
  else
    match digitLoop (cutBase s).1 (cutBase s).2 0 false with
    | .error e => .error e
    | .ok (n, underscores) =>
      if underscores = true ∧ underscoreOK s = false then .error .errSyntax else .ok n

/-- `strconv.ParseInt(s, 0, 64)`: the value, and the error if there is one. -/
def parseInt0 (s : GoString) : ℤ × Option NumError :=
  let neg := (cutSign s).1
  match parseUint0 (cutSign s).2 with
  | .error .errSyntax => (0, some .errSyntax)
  | .error .errRange => (if neg then -2 ^ 63 else 2 ^ 63 - 1, some .errRange)
  | .ok un =>
    if neg then if 2 ^ 63 < un then (-2 ^ 63, some .errRange) else (-un, none)
    else if 2 ^ 63 ≤ un then (2 ^ 63 - 1, some .errRange) else (un, none)

/-- `strconv.FormatInt(n, 10)`. -/
def formatInt (n : ℤ) : GoString := if n < 0 then 45 :: itoa n.natAbs else itoa n.natAbs

/-- `strings.TrimLeft` with an ASCII cutset. -/
def trimLeft (s cutset : GoString) : GoString := s.dropWhile (· ∈ cutset)

example : parseInt0 (str "-0x_1F") = (-31, none) := by decide

example : parseInt0 (str "1__0") = (0, some .errSyntax) := by decide

end YulongHids.Golang
