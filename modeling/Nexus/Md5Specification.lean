import Nexus.BlockFold

namespace Nexus.Md5

/-! The MD5 message digest, step by step as RFC 1321 describes it. -/

structure Registers where
  a : UInt32
  b : UInt32
  c : UInt32
  d : UInt32
  deriving DecidableEq

def leBytes (count value : Nat) : List UInt8 :=
  (List.range count).map fun index => UInt8.ofNat (value / 256 ^ index)

def leValue : List UInt8 → Nat
  | [] => 0
  | byte :: rest => byte.toNat + 256 * leValue rest

def rotateLeft (word : UInt32) (shift : Nat) : UInt32 := ⟨word.toBitVec.rotateLeft shift⟩

namespace Rfc1321

inductive Round where
  | f
  | g
  | h
  | i
  deriving DecidableEq

def Round.mix : Round → UInt32 → UInt32 → UInt32 → UInt32
  | .f, x, y, z => (x &&& y) ||| (~~~x &&& z)
  | .g, x, y, z => (x &&& z) ||| (y &&& ~~~z)
  | .h, x, y, z => x ^^^ y ^^^ z
  | .i, x, y, z => y ^^^ (x ||| ~~~z)

inductive Order where
  | abcd
  | dabc
  | cdab
  | bcda
  deriving DecidableEq

/-- `[abcd k s i]` of a round. -/
structure Operation where
  round : Round
  order : Order
  k : Nat
  s : Nat
  i : Nat
  deriving DecidableEq

def sineTable : List UInt32 :=
  [0xd76aa478, 0xe8c7b756, 0x242070db, 0xc1bdceee, 0xf57c0faf, 0x4787c62a, 0xa8304613, 0xfd469501,
    0x698098d8, 0x8b44f7af, 0xffff5bb1, 0x895cd7be, 0x6b901122, 0xfd987193, 0xa679438e, 0x49b40821,
    0xf61e2562, 0xc040b340, 0x265e5a51, 0xe9b6c7aa, 0xd62f105d, 0x02441453, 0xd8a1e681, 0xe7d3fbc8,
    0x21e1cde6, 0xc33707d6, 0xf4d50d87, 0x455a14ed, 0xa9e3e905, 0xfcefa3f8, 0x676f02d9, 0x8d2a4c8a,
    0xfffa3942, 0x8771f681, 0x6d9d6122, 0xfde5380c, 0xa4beea44, 0x4bdecfa9, 0xf6bb4b60, 0xbebfbc70,
    0x289b7ec6, 0xeaa127fa, 0xd4ef3085, 0x04881d05, 0xd9d4d039, 0xe6db99e5, 0x1fa27cf8, 0xc4ac5665,
    0xf4292244, 0x432aff97, 0xab9423a7, 0xfc93a039, 0x655b59c3, 0x8f0ccc92, 0xffeff47d, 0x85845dd1,
    0x6fa87e4f, 0xfe2ce6e0, 0xa3014314, 0x4e0811a1, 0xf7537e82, 0xbd3af235, 0x2ad7d2bb, 0xeb86d391]

def sine (i : Nat) : UInt32 := sineTable[i - 1]?.getD 0

/-- `a = b + ((a + mix(b,c,d) + X[k] + T[i]) <<< s)`. -/
def Operation.value (x : Nat → UInt32) (op : Operation) (a b c d : UInt32) : UInt32 :=
  b + rotateLeft (a + op.round.mix b c d + x op.k + sine op.i) op.s

def Operation.run (x : Nat → UInt32) (registers : Registers) (op : Operation) : Registers :=
  let ⟨a, b, c, d⟩ := registers
  match op.order with
  | .abcd => { registers with a := op.value x a b c d }
  | .dabc => { registers with d := op.value x d a b c }
  | .cdab => { registers with c := op.value x c d a b }
  | .bcda => { registers with b := op.value x b c d a }

def operations : List Operation :=
  [⟨.f, .abcd, 0, 7, 1⟩, ⟨.f, .dabc, 1, 12, 2⟩, ⟨.f, .cdab, 2, 17, 3⟩, ⟨.f, .bcda, 3, 22, 4⟩,
    ⟨.f, .abcd, 4, 7, 5⟩, ⟨.f, .dabc, 5, 12, 6⟩, ⟨.f, .cdab, 6, 17, 7⟩, ⟨.f, .bcda, 7, 22, 8⟩,
    ⟨.f, .abcd, 8, 7, 9⟩, ⟨.f, .dabc, 9, 12, 10⟩, ⟨.f, .cdab, 10, 17, 11⟩, ⟨.f, .bcda, 11, 22, 12⟩,
    ⟨.f, .abcd, 12, 7, 13⟩, ⟨.f, .dabc, 13, 12, 14⟩, ⟨.f, .cdab, 14, 17, 15⟩,
    ⟨.f, .bcda, 15, 22, 16⟩,
    ⟨.g, .abcd, 1, 5, 17⟩, ⟨.g, .dabc, 6, 9, 18⟩, ⟨.g, .cdab, 11, 14, 19⟩, ⟨.g, .bcda, 0, 20, 20⟩,
    ⟨.g, .abcd, 5, 5, 21⟩, ⟨.g, .dabc, 10, 9, 22⟩, ⟨.g, .cdab, 15, 14, 23⟩, ⟨.g, .bcda, 4, 20, 24⟩,
    ⟨.g, .abcd, 9, 5, 25⟩, ⟨.g, .dabc, 14, 9, 26⟩, ⟨.g, .cdab, 3, 14, 27⟩, ⟨.g, .bcda, 8, 20, 28⟩,
    ⟨.g, .abcd, 13, 5, 29⟩, ⟨.g, .dabc, 2, 9, 30⟩, ⟨.g, .cdab, 7, 14, 31⟩, ⟨.g, .bcda, 12, 20, 32⟩,
    ⟨.h, .abcd, 5, 4, 33⟩, ⟨.h, .dabc, 8, 11, 34⟩, ⟨.h, .cdab, 11, 16, 35⟩, ⟨.h, .bcda, 14, 23, 36⟩,
    ⟨.h, .abcd, 1, 4, 37⟩, ⟨.h, .dabc, 4, 11, 38⟩, ⟨.h, .cdab, 7, 16, 39⟩, ⟨.h, .bcda, 10, 23, 40⟩,
    ⟨.h, .abcd, 13, 4, 41⟩, ⟨.h, .dabc, 0, 11, 42⟩, ⟨.h, .cdab, 3, 16, 43⟩, ⟨.h, .bcda, 6, 23, 44⟩,
    ⟨.h, .abcd, 9, 4, 45⟩, ⟨.h, .dabc, 12, 11, 46⟩, ⟨.h, .cdab, 15, 16, 47⟩, ⟨.h, .bcda, 2, 23, 48⟩,
    ⟨.i, .abcd, 0, 6, 49⟩, ⟨.i, .dabc, 7, 10, 50⟩, ⟨.i, .cdab, 14, 15, 51⟩, ⟨.i, .bcda, 5, 21, 52⟩,
    ⟨.i, .abcd, 12, 6, 53⟩, ⟨.i, .dabc, 3, 10, 54⟩, ⟨.i, .cdab, 10, 15, 55⟩, ⟨.i, .bcda, 1, 21, 56⟩,
    ⟨.i, .abcd, 8, 6, 57⟩, ⟨.i, .dabc, 15, 10, 58⟩, ⟨.i, .cdab, 6, 15, 59⟩, ⟨.i, .bcda, 13, 21, 60⟩,
    ⟨.i, .abcd, 4, 6, 61⟩, ⟨.i, .dabc, 11, 10, 62⟩, ⟨.i, .cdab, 2, 15, 63⟩, ⟨.i, .bcda, 9, 21, 64⟩]

def word (block : List UInt8) (j : Nat) : UInt32 :=
  UInt32.ofNat (leValue ((block.drop (4 * j)).take 4))

def processBlock (registers : Registers) (block : List UInt8) : Registers :=
  let final := operations.foldl (Operation.run (word block)) registers
  ⟨registers.a + final.a, registers.b + final.b, registers.c + final.c, registers.d + final.d⟩

def initial : Registers := ⟨0x67452301, 0xefcdab89, 0x98badcfe, 0x10325476⟩

/-- Section 3.1: a one bit, and zero bits up to 64 bits before a multiple of 512. -/
def padding (length : Nat) : List UInt8 := 0x80 :: List.replicate ((119 - length % 64) % 64) 0

/-- Section 3.2: the length in bits, of which the low-order 64 bits are used. -/
def padded (message : List UInt8) : List UInt8 :=
  message ++ padding message.length ++ leBytes 8 (8 * message.length % 2 ^ 64)

/-- Section 3.5: the words of the registers after the last block, low-order byte first. -/
def output (registers : Registers) : List UInt8 :=
  leBytes 4 registers.a.toNat ++ leBytes 4 registers.b.toNat ++ leBytes 4 registers.c.toNat ++
    leBytes 4 registers.d.toNat

def digest (message : List UInt8) : List UInt8 :=
  output (BlockFold.absorb processBlock 64 initial (padded message))

/-- The digest of the empty message in the test suite of the RFC. -/
example : digest [] = [0xd4, 0x1d, 0x8c, 0xd9, 0x8f, 0x00, 0xb2, 0x04, 0xe9, 0x80, 0x09, 0x98, 0xec,
    0xf8, 0x42, 0x7e] := by decide +kernel

end Rfc1321

end Nexus.Md5
