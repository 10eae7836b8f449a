import Mathlib.Data.List.Basic

/-! The MD5 message digest. -/

namespace Md5

structure State where
  a : UInt32
  b : UInt32
  c : UInt32
  d : UInt32
  deriving DecidableEq

def initial : State := ⟨0x67452301, 0xefcdab89, 0x98badcfe, 0x10325476⟩

/-- The shift amounts of the four rounds, one row of four for each round. -/
def shifts : List Nat := [7, 12, 17, 22, 5, 9, 14, 20, 4, 11, 16, 23, 6, 10, 15, 21]

/-- The integer parts of `2 ^ 32 * |sin (i + 1)|`. -/
def table : List UInt32 :=
  [0xd76aa478, 0xe8c7b756, 0x242070db, 0xc1bdceee, 0xf57c0faf, 0x4787c62a,
    0xa8304613, 0xfd469501, 0x698098d8, 0x8b44f7af, 0xffff5bb1, 0x895cd7be,
    0x6b901122, 0xfd987193, 0xa679438e, 0x49b40821, 0xf61e2562, 0xc040b340,
    0x265e5a51, 0xe9b6c7aa, 0xd62f105d, 0x02441453, 0xd8a1e681, 0xe7d3fbc8,
    0x21e1cde6, 0xc33707d6, 0xf4d50d87, 0x455a14ed, 0xa9e3e905, 0xfcefa3f8,
    0x676f02d9, 0x8d2a4c8a, 0xfffa3942, 0x8771f681, 0x6d9d6122, 0xfde5380c,
    0xa4beea44, 0x4bdecfa9, 0xf6bb4b60, 0xbebfbc70, 0x289b7ec6, 0xeaa127fa,
    0xd4ef3085, 0x04881d05, 0xd9d4d039, 0xe6db99e5, 0x1fa27cf8, 0xc4ac5665,
    0xf4292244, 0x432aff97, 0xab9423a7, 0xfc93a039, 0x655b59c3, 0x8f0ccc92,
    0xffeff47d, 0x85845dd1, 0x6fa87e4f, 0xfe2ce6e0, 0xa3014314, 0x4e0811a1,
    0xf7537e82, 0xbd3af235, 0x2ad7d2bb, 0xeb86d391]

def rotateLeft (word : UInt32) (amount : Nat) : UInt32 :=
  word <<< UInt32.ofNat amount ||| word >>> UInt32.ofNat (32 - amount)

def mix (i : Nat) (s : State) : UInt32 × Nat :=
  match i / 16 with
  | 0 => (s.b &&& s.c ||| ~~~s.b &&& s.d, i)
  | 1 => (s.d &&& s.b ||| ~~~s.d &&& s.c, (5 * i + 1) % 16)
  | 2 => (s.b ^^^ s.c ^^^ s.d, (3 * i + 5) % 16)
  | _ => (s.c ^^^ (s.b ||| ~~~s.d), 7 * i % 16)

def step (block : List UInt32) (s : State) (i : Nat) : State :=
  let (f, word) := mix i s
  let sum := f + s.a + table.getD i 0 + block.getD word 0
  ⟨s.d, s.b + rotateLeft sum (shifts.getD (4 * (i / 16) + i % 4) 0), s.b, s.c⟩

def compress (s : State) (block : List UInt32) : State :=
  let last := (List.range 64).foldl (step block) s
  ⟨s.a + last.a, s.b + last.b, s.c + last.c, s.d + last.d⟩

def words : List UInt8 → List UInt32
  | b0 :: b1 :: b2 :: b3 :: rest =>
    (b0.toUInt32 ||| b1.toUInt32 <<< 8 ||| b2.toUInt32 <<< 16 ||| b3.toUInt32 <<< 24) :: words rest
  | _ => []

def littleEndian : Nat → Nat → List UInt8
  | 0, _ => []
  | count + 1, value => UInt8.ofNat (value % 256) :: littleEndian count (value / 256)

/-- The message, a one bit, zeros up to the last eight bytes of a block, and its length in bits. -/
def pad (message : List UInt8) : List UInt8 :=
  message ++ 0x80 :: List.replicate ((119 - message.length % 64) % 64) 0 ++
    littleEndian 8 (8 * message.length)

def compressBlocks : Nat → State → List UInt8 → State
  | 0, s, _ => s
  | count + 1, s, bytes => compressBlocks count (compress s (words (bytes.take 64))) (bytes.drop 64)

abbrev Digest := Vector UInt8 16

def Digest.lead (digest : Digest) : UInt8 := digest[0]

def wordBytes (word : UInt32) : Vector UInt8 4 :=
  #v[word.toUInt8, (word >>> 8).toUInt8, (word >>> 16).toUInt8, (word >>> 24).toUInt8]

def digest (message : List UInt8) : Digest :=
  let padded := pad message
  let s := compressBlocks (padded.length / 64) initial padded
  wordBytes s.a ++ wordBytes s.b ++ wordBytes s.c ++ wordBytes s.d

example : (digest [0x61, 0x62, 0x63]).toList =
    [0x90, 0x01, 0x50, 0x98, 0x3c, 0xd2, 0x4f, 0xb0, 0xd6, 0x96, 0x3f, 0x7d, 0x28, 0xe1, 0x7f, 0x72] := by
  decide +kernel

end Md5
