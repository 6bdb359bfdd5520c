import YulongHids.Golang.Strings

/-!
# MD5

`crypto/md5`, and the verb `%x` of `fmt` with which the programs write a digest.
-/

namespace YulongHids.Golang

/-- `fmt.Sprintf("%x", s)` for a string or a byte slice: two lower-case digits for each byte. -/
def hexEncode (s : List UInt8) : GoString :=
  s.flatMap fun b => [hexDigit (b.toNat / 16), hexDigit (b.toNat % 16)]

namespace Md5

/-- The constants of the 64 rounds, from the sines of 1 to 64. -/
def sines : List UInt32 := [
  0xd76aa478, 0xe8c7b756, 0x242070db, 0xc1bdceee, 0xf57c0faf, 0x4787c62a,
  0xa8304613, 0xfd469501, 0x698098d8, 0x8b44f7af, 0xffff5bb1, 0x895cd7be,
  0x6b901122, 0xfd987193, 0xa679438e, 0x49b40821, 0xf61e2562, 0xc040b340,
  0x265e5a51, 0xe9b6c7aa, 0xd62f105d, 0x02441453, 0xd8a1e681, 0xe7d3fbc8,
  0x21e1cde6, 0xc33707d6, 0xf4d50d87, 0x455a14ed, 0xa9e3e905, 0xfcefa3f8,
  0x676f02d9, 0x8d2a4c8a, 0xfffa3942, 0x8771f681, 0x6d9d6122, 0xfde5380c,
  0xa4beea44, 0x4bdecfa9, 0xf6bb4b60, 0xbebfbc70, 0x289b7ec6, 0xeaa127fa,
  0xd4ef3085, 0x04881d05, 0xd9d4d039, 0xe6db99e5, 0x1fa27cf8, 0xc4ac5665,
  0xf4292244, 0x432aff97, 0xab9423a7, 0xfc93a039, 0x655b59c3, 0x8f0ccc92,
  0xffeff47d, 0x85845dd1, 0x6fa87e4f, 0xfe2ce6e0, 0xa3014314, 0x4e0811a1,
  0xf7537e82, 0xbd3af235, 0x2ad7d2bb, 0xeb86d391]

def rotations : List (List UInt32) :=
  [[7, 12, 17, 22], [5, 9, 14, 20], [4, 11, 16, 23], [6, 10, 15, 21]]

structure State where
  a : UInt32
  b : UInt32
  c : UInt32
  d : UInt32

def rotateLeft (x n : UInt32) : UInt32 := (x <<< n) ||| (x >>> (32 - n))

def round (block : List UInt32) (s : State) (i : ℕ) : State :=
  let fg : UInt32 × ℕ :=
    if i < 16 then ((s.b &&& s.c) ||| (~~~s.b &&& s.d), i)
    else if i < 32 then ((s.d &&& s.b) ||| (~~~s.d &&& s.c), 5 * i + 1)
    else if i < 48 then (s.b ^^^ s.c ^^^ s.d, 3 * i + 5)
    else (s.c ^^^ (s.b ||| ~~~s.d), 7 * i)
  let f := fg.1 + s.a + sines.getD i 0 + block.getD (fg.2 % 16) 0
  ⟨s.d, s.b + rotateLeft f ((rotations.getD (i / 16) []).getD (i % 4) 0), s.b, s.c⟩

/-- The words of a block, low byte first. -/
def words : List UInt8 → List UInt32
  | b0 :: b1 :: b2 :: b3 :: rest =>
    (b0.toUInt32 ||| b1.toUInt32 <<< 8 ||| b2.toUInt32 <<< 16 ||| b3.toUInt32 <<< 24) :: words rest
  | _ => []

def blocks : ℕ → State → List UInt8 → State
  | 0, s, _ => s
  | n + 1, s, msg =>
    let t := (List.range 64).foldl (round (words (msg.take 64))) s
    blocks n ⟨s.a + t.a, s.b + t.b, s.c + t.c, s.d + t.d⟩ (msg.drop 64)

/-- The bytes of a word, low byte first. -/
def wordBytes (w : UInt32) : List UInt8 :=
  [w.toUInt8, (w >>> 8).toUInt8, (w >>> 16).toUInt8, (w >>> 24).toUInt8]

/-- The length in bits, in eight bytes with the low byte first. -/
def lengthBytes (n : ℕ) : List UInt8 :=
  (List.range 8).map fun i => (8 * n / 256 ^ i).toUInt8

/-- A message with the bit 1, zeros and its length behind it: a whole number of blocks. -/
def pad (msg : List UInt8) : List UInt8 :=
  msg ++ 128 :: List.replicate ((119 - msg.length % 64) % 64) 0 ++ lengthBytes msg.length

end Md5

/-- `md5.New`, `Write(msg)` and `Sum`: the sixteen bytes of the digest. -/
def md5 (msg : List UInt8) : List UInt8 :=
  let padded := Md5.pad msg
  let s := Md5.blocks (padded.length / 64) ⟨0x67452301, 0xefcdab89, 0x98badcfe, 0x10325476⟩ padded
  Md5.wordBytes s.a ++ Md5.wordBytes s.b ++ Md5.wordBytes s.c ++ Md5.wordBytes s.d

example : hexEncode (md5 (str "abc")) = str "900150983cd24fb0d6963f7d28e17f72" := by decide +kernel

@[simp] theorem md5_length (msg : List UInt8) : (md5 msg).length = 16 := by
  simp [md5, Md5.wordBytes]

@[simp] theorem hexEncode_length (s : List UInt8) : (hexEncode s).length = 2 * s.length := by
  simp [hexEncode, mul_comm]

end YulongHids.Golang
