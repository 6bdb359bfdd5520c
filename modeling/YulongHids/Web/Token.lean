import YulongHids.Golang.Strings
import Mathlib.Tactic

/-!
# The tokens of the console

`RandStringBytesMaskImprSrc` (`web/utils/common.go`) makes the tokens against request forgery. It takes
the letters from the bits of a source of random numbers: each number of 63 bits gives ten indices, and
an index without a letter is dropped.
-/

namespace YulongHids.Web

open Golang

def letterBytes : GoString := str "abcdefghijklmnopqrstuvwxyzABCDEFGHIJKLMNOPQRSTUVWXYZ"

def letterIdxBits : ℕ := 6

def letterIdxMask : ℕ := 1 <<< letterIdxBits - 1

def letterIdxMax : ℕ := 63 / letterIdxBits

/-- A `rand.Source`: the numbers that `Int63` gives, one after the other. -/
structure Source where
  int63 : ℕ → ℕ
  int63_lt : ∀ k, int63 k < 2 ^ 63

/-- The variables of the loop: how many numbers were drawn, `cache` and `remain`, how many letters are
missing, `i + 1`, and the bytes of `b` behind them. -/
structure TokenLoop where
  drawn : ℕ
  cache : ℕ
  remain : ℕ
  missing : ℕ
  b : GoString

/-- A new number, where the last one is used up. -/
def TokenLoop.refill (src : Source) (s : TokenLoop) : TokenLoop :=
  if s.remain = 0 then
    { s with drawn := s.drawn + 1, cache := src.int63 s.drawn, remain := letterIdxMax }
  else s

/-- One turn of the loop. -/
def TokenLoop.turn (src : Source) (s : TokenLoop) : TokenLoop :=
  let s := s.refill src
  let cache := s.cache >>> letterIdxBits
  let remain := s.remain - 1
  match letterBytes[s.cache &&& letterIdxMask]? with
  | some letter =>
    { s with cache := cache, remain := remain, missing := s.missing - 1, b := letter :: s.b }
  | none => { s with cache := cache, remain := remain }

/-- The loop; `none` where the fuel does not last. -/
def tokenLoop (src : Source) : ℕ → TokenLoop → Option GoString
  | fuel, s =>
    if s.missing = 0 then some s.b
    else match fuel with
      | 0 => none
      | fuel + 1 => tokenLoop src fuel (s.turn src)

/-- `RandStringBytesMaskImprSrc` -/
def randString (src : Source) (fuel n : ℕ) : Option GoString :=
  tokenLoop src fuel ⟨1, src.int63 0, letterIdxMax, n, []⟩

/-! ## What the token is -/

/-- The indices of a source, ten of six bits in each number, the lowest bits first. -/
def indexAt (src : Source) (j : ℕ) : ℕ := src.int63 (j / 10) / 64 ^ (j % 10) % 64

/-- The letters among the first indices. -/
def lettersUpTo (src : Source) (m : ℕ) : GoString :=
  (List.range m).filterMap fun j => letterBytes[indexAt src j]?

/-- The source that gives these numbers, and then zeros. -/
def Source.ofDraws {K : ℕ} (w : Fin K → Fin (2 ^ 63)) : Source where
  int63 k := if h : k < K then w ⟨k, h⟩ else 0
  int63_lt k := by
    split_ifs with h
    · exact (w ⟨k, h⟩).isLt
    · norm_num

end YulongHids.Web
