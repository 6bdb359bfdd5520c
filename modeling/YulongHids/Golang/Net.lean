import YulongHids.Golang.Strings

/-!
# IP addresses

`net.IP`, its parser and its text form. An address is nil (the empty slice) or its 4 or 16 bytes;
the parser yields 16 bytes also for IPv4, behind the prefix of the mapped addresses.
-/

namespace YulongHids.Golang

abbrev IP := List UInt8

def v4InV6Prefix : List UInt8 := [0, 0, 0, 0, 0, 0, 0, 0, 0, 0, 255, 255]

def ipv4 (a b c d : UInt8) : IP := v4InV6Prefix ++ [a, b, c, d]

/-- `IP.To4`: the four bytes of an IPv4 address, also of a mapped one. -/
def to4 (ip : IP) : Option (List UInt8) :=
  if ip.length = 4 then some ip
  else if ip.length = 16 ∧ ip.take 12 = v4InV6Prefix then some (ip.drop 12)
  else none

/-! ## Parsing -/

/-- One number of a dotted address: no sign, no leading zeros, at most 255. -/
def parseOctet (s : GoString) : Option UInt8 :=
  match parseUint s with
  | .ok n => if n ≤ 255 ∧ ¬ (1 < s.length ∧ s.head? = some 48) then some n.toUInt8 else none
  | .error _ => none

def parseIPv4 (s : GoString) : Option IP :=
  match split s 46 with
  | [a, b, c, d] =>
    match parseOctet a, parseOctet b, parseOctet c, parseOctet d with
    | some a, some b, some c, some d => some (ipv4 a b c d)
    | _, _, _, _ => none
  | _ => none

def hexValue (b : UInt8) : Option ℕ :=
  if 48 ≤ b ∧ b ≤ 57 then some (b.toNat - 48)
  else if 97 ≤ b ∧ b ≤ 102 then some (b.toNat - 87)
  else if 65 ≤ b ∧ b ≤ 70 then some (b.toNat - 55)
  else none

/-- `xtoi`: the hexadecimal number at the start of a string and what follows it, if there is one
and it is below 0xFFFFFF. -/
def xtoi (s : GoString) : Option (ℕ × GoString) :=
  let digits := s.takeWhile fun b => (hexValue b).isSome
  let n := Nat.ofDigits 16 (digits.map fun b => (hexValue b).getD 0).reverse
  if digits = [] ∨ 0xFFFFFF ≤ n then none else some (n, s.drop digits.length)

/-- The loop of `parseIPv6` over at most `fuel` groups: the bytes of the address so far, the place
of the ellipsis in them, and the rest of the text. -/
def parseIPv6Loop : ℕ → IP → Option ℕ → GoString → Option (IP × Option ℕ × GoString)
  | 0, ip, ellipsis, s => some (ip, ellipsis, s)
  | fuel + 1, ip, ellipsis, s =>
    match xtoi s with
    | none => none
    | some (n, rest) =>
      if 0xFFFF < n then none
      else if rest.head? = some 46 then
        -- a trailing IPv4 address
        if ellipsis = none ∧ ip.length ≠ 12 ∨ 12 < ip.length then none
        else (parseIPv4 s).map fun ip4 => (ip ++ ip4.drop 12, ellipsis, [])
      else
        let ip := ip ++ [(n / 256).toUInt8, n.toUInt8]
        match rest with
        | [] => some (ip, ellipsis, [])
        | [_] => none
        | sep :: b :: rest =>
          if sep ≠ 58 then none
          else if b ≠ 58 then parseIPv6Loop fuel ip ellipsis (b :: rest)
          else if ellipsis ≠ none then none
          else if rest = [] then some (ip, some ip.length, [])
          else parseIPv6Loop fuel ip (some ip.length) rest

/-- The end of `parseIPv6`: all of the text was used, and an ellipsis stands for at least one
group. -/
def expandEllipsis : IP × Option ℕ × GoString → Option IP
  | (ip, none, []) => if ip.length < 16 then none else some ip
  | (ip, some e, []) =>
    if ip.length < 16 then some (ip.take e ++ List.replicate (16 - ip.length) 0 ++ ip.drop e)
    else none
  | _ => none

def parseIPv6 (s : GoString) : Option IP :=
  match s with
  | [58, 58] => some (List.replicate 16 0)
  | 58 :: 58 :: rest => (parseIPv6Loop 8 [] (some 0) rest).bind expandEllipsis
  | _ => (parseIPv6Loop 8 [] none s).bind expandEllipsis

/-- `net.ParseIP`: the first dot or colon decides the form; nil for a text that is no address. -/
def parseIP (s : GoString) : IP :=
  match s.find? fun b => b == 46 || b == 58 with
  | some 46 => (parseIPv4 s).getD []
  | some _ => (parseIPv6 s).getD []
  | none => []

/-! ## Text form -/

/-- `appendHex`: without leading zeros. -/
def hexText (n : ℕ) : GoString :=
  if n = 0 then [48] else (Nat.digits 16 n).reverse.map hexDigit

def groups : IP → List ℕ
  | a :: b :: rest => (a.toNat * 256 + b.toNat) :: groups rest
  | _ => []

/-- The first longest run of zero groups, from position `i` on: its start and its length. -/
def zeroRun : ℕ → List ℕ → ℕ × ℕ
  | i, [] => (i, 0)
  | i, g :: gs =>
    let run := ((g :: gs).takeWhile (· == 0)).length
    let best := zeroRun (i + 1) gs
    if best.2 ≤ run then (i, run) else best

/-- The text of an IPv6 address: a run of at least two zero groups is written `::`. -/
def ipv6Text (ip : IP) : GoString :=
  let gs := groups ip
  let run := zeroRun 0 gs
  let text := fun l : List ℕ => join (l.map hexText) [58]
  if run.2 < 2 then text gs
  else text (gs.take run.1) ++ [58, 58] ++ text (gs.drop (run.1 + run.2))

def dottedText (p4 : List UInt8) : GoString := join (p4.map fun b => itoa b.toNat) [46]

def IP.string (ip : IP) : GoString :=
  if ip = [] then str "<nil>"
  else
    match to4 ip with
    | some p4 => dottedText p4
    | none =>
      if ip.length = 16 then ipv6Text ip
      else 63 :: ip.flatMap fun b => [hexDigit (b.toNat / 16), hexDigit (b.toNat % 16)]

end YulongHids.Golang
