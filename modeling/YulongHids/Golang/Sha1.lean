import YulongHids.Golang.Strings

/-!
# SHA-1

`crypto/sha1`, and `crypto/hmac` over it.
-/

namespace YulongHids.Golang

namespace Sha1

/-- The five words of the state. -/
structure State where
  a : UInt32
  b : UInt32
  c : UInt32
  d : UInt32
  e : UInt32

def init : State := ⟨0x67452301, 0xefcdab89, 0x98badcfe, 0x10325476, 0xc3d2e1f0⟩

def rotateLeft (x n : UInt32) : UInt32 := (x <<< n) ||| (x >>> (32 - n))

/-- One of the 80 rounds. Of the message schedule the next sixteen words are kept. -/
def round (sw : State × List UInt32) (i : ℕ) : State × List UInt32 :=
  let s := sw.1
  let w := sw.2
  let fk : UInt32 × UInt32 :=
    if i < 20 then ((s.b &&& s.c) ||| (~~~s.b &&& s.d), 0x5a827999)
    else if i < 40 then (s.b ^^^ s.c ^^^ s.d, 0x6ed9eba1)
    else if i < 60 then (((s.b ||| s.c) &&& s.d) ||| (s.b &&& s.c), 0x8f1bbcdc)
    else (s.b ^^^ s.c ^^^ s.d, 0xca62c1d6)
  let t := rotateLeft s.a 5 + fk.1 + s.e + w.getD 0 0 + fk.2
  let next := rotateLeft (w.getD 13 0 ^^^ w.getD 8 0 ^^^ w.getD 2 0 ^^^ w.getD 0 0) 1
  (⟨t, s.a, rotateLeft s.b 30, s.c, s.d⟩, w.tail ++ [next])

/-- The words of a block, high byte first. -/
def words : List UInt8 → List UInt32
  | b0 :: b1 :: b2 :: b3 :: rest =>
    (b0.toUInt32 <<< 24 ||| b1.toUInt32 <<< 16 ||| b2.toUInt32 <<< 8 ||| b3.toUInt32) :: words rest
  | _ => []

def blocks : ℕ → State → List UInt8 → State
  | 0, s, _ => s
  | n + 1, s, msg =>
    let t := ((List.range 80).foldl round (s, words (msg.take 64))).1
    blocks n ⟨s.a + t.a, s.b + t.b, s.c + t.c, s.d + t.d, s.e + t.e⟩ (msg.drop 64)

/-- The bytes of a word, high byte first. -/
def wordBytes (w : UInt32) : List UInt8 :=
  [(w >>> 24).toUInt8, (w >>> 16).toUInt8, (w >>> 8).toUInt8, w.toUInt8]

/-- The length in bits, in eight bytes with the high byte first. -/
def lengthBytes (n : ℕ) : List UInt8 :=
  (List.range 8).map fun i => (8 * n / 256 ^ (7 - i)).toUInt8

/-- A message with the bit 1, zeros and its length behind it: a whole number of blocks. -/
def pad (msg : List UInt8) : List UInt8 :=
  msg ++ 128 :: List.replicate ((119 - msg.length % 64) % 64) 0 ++ lengthBytes msg.length

end Sha1

/-- `sha1.New`, `Write(msg)` and `Sum`: the twenty bytes of the digest. -/
def sha1 (msg : List UInt8) : List UInt8 :=
  let padded := Sha1.pad msg
  let s := Sha1.blocks (padded.length / 64) Sha1.init padded
  Sha1.wordBytes s.a ++ Sha1.wordBytes s.b ++ Sha1.wordBytes s.c ++ Sha1.wordBytes s.d ++
    Sha1.wordBytes s.e

example : sha1 (str "abc") = [
    0xa9, 0x99, 0x3e, 0x36, 0x47, 0x06, 0x81, 0x6a, 0xba, 0x3e, 0x25, 0x71, 0x78, 0x50, 0xc2, 0x6c,
    0x9c, 0xd0, 0xd8, 0x9d] := by decide +kernel

@[simp] theorem sha1_length (msg : List UInt8) : (sha1 msg).length = 20 := by
  simp [sha1, Sha1.wordBytes]

/-- `hmac.New(sha1.New, key)`, `Write(msg)` and `Sum`: a key longer than a block is hashed first. -/
def hmacSha1 (key msg : List UInt8) : List UInt8 :=
  let short := if 64 < key.length then sha1 key else key
  let block := short ++ List.replicate (64 - short.length) 0
  sha1 (block.map (· ^^^ 0x5c) ++ sha1 (block.map (· ^^^ 0x36) ++ msg))

@[simp] theorem hmacSha1_length (key msg : List UInt8) : (hmacSha1 key msg).length = 20 := by
  simp [hmacSha1]

end YulongHids.Golang
