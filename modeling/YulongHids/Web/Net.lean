import YulongHids.Golang.Net

/-!
# IP ranges of the console

`web/utils/net.go`. `IP2Int` goes through the text of an address and indexes its dotted parts, so it
is out of range on nil and on an IPv6 address; the result `none` models that panic.
-/

namespace YulongHids.Web

open Golang

def int2IP (ipnr : ℤ) : IP :=
  let byte := fun k : ℕ => (ipnr / 2 ^ k % 256).toNat.toUInt8
  ipv4 (byte 24) (byte 16) (byte 8) (byte 0)

def ip2Int (ipnr : IP) : Option ℤ :=
  match split ipnr.string 46 with
  | b0 :: b1 :: b2 :: b3 :: _ =>
    some ((atoi b0).1 * 2 ^ 24 + (atoi b1).1 * 2 ^ 16 + (atoi b2).1 * 2 ^ 8 + (atoi b3).1)
  | _ => none

/-- The loop of `BetweenIP`: the texts of `n` addresses from `ipint1` on. -/
def countUp : ℕ → ℤ → List GoString
  | 0, _ => []
  | n + 1, ipint1 => (int2IP ipint1).string :: countUp n (ipint1 + 1)

def betweenIP (ipstr1 ipstr2 : GoString) : Option (List GoString) :=
  match ip2Int (parseIP ipstr1), ip2Int (parseIP ipstr2) with
  | some ipint1, some ipint2 =>
    some (if ipint1 < ipint2 then countUp (ipint2 + 1 - ipint1).toNat ipint1 else [])
  | _, _ => none

/-- The dotted text of an address given as a number. -/
def addrText (ipnr : ℕ) : GoString := (int2IP ipnr).string

/-- What a range stands for: the texts of all addresses from `a` to `b`, both included. -/
def addressesBetween (a b : ℕ) : List GoString := (List.range' a (b + 1 - a)).map addrText

end YulongHids.Web
