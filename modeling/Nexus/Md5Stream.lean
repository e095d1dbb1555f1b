import Nexus.Md5Specification

namespace Nexus

namespace Md5

structure Bytes (n : Nat) where
  toList : List UInt8
  size : toList.length = n

namespace Bytes

def zero (n : Nat) : Bytes n := ⟨List.replicate n 0, List.length_replicate⟩

def ofList? {n : Nat} (bytes : List UInt8) : Option (Bytes n) :=
  if h : bytes.length = n then some ⟨bytes, h⟩ else none

def copyFromSlice {n : Nat} (array : Bytes n) (start stop : Nat) (source : List UInt8) :
    Option (Bytes n) :=
  if h : start ≤ stop ∧ stop ≤ n ∧ source.length = stop - start then
    some ⟨array.toList.take start ++ source ++ array.toList.drop stop, by
      have hsize := array.size
      rw [List.length_append, List.length_append, List.length_take, List.length_drop]
      omega⟩
  else none

def set? {n : Nat} (array : Bytes n) (index : Nat) (byte : UInt8) : Option (Bytes n) :=
  if index < n then some ⟨array.toList.set index byte, by rw [List.length_set]; exact array.size⟩
  else none

end Bytes

def sliceTo (slice : List UInt8) (stop : Nat) : Option (List UInt8) :=
  if stop ≤ slice.length then some (slice.take stop) else none

def sliceFrom (slice : List UInt8) (start : Nat) : Option (List UInt8) :=
  if start ≤ slice.length then some (slice.drop start) else none

def leWords : List UInt8 → List UInt32
  | first :: second :: third :: fourth :: rest =>
    UInt32.ofNat (leValue [first, second, third, fourth]) :: leWords rest
  | _ => []

def shift : List Nat :=
  [7, 12, 17, 22, 7, 12, 17, 22, 7, 12, 17, 22, 7, 12, 17, 22, 5, 9, 14, 20, 5, 9, 14, 20, 5, 9, 14,
    20, 5, 9, 14, 20, 4, 11, 16, 23, 4, 11, 16, 23, 4, 11, 16, 23, 4, 11, 16, 23, 6, 10, 15, 21, 6,
    10, 15, 21, 6, 10, 15, 21, 6, 10, 15, 21]

def constant : List UInt32 :=
  [0xd76aa478, 0xe8c7b756, 0x242070db, 0xc1bdceee, 0xf57c0faf, 0x4787c62a, 0xa8304613, 0xfd469501,
    0x698098d8, 0x8b44f7af, 0xffff5bb1, 0x895cd7be, 0x6b901122, 0xfd987193, 0xa679438e, 0x49b40821,
    0xf61e2562, 0xc040b340, 0x265e5a51, 0xe9b6c7aa, 0xd62f105d, 0x02441453, 0xd8a1e681, 0xe7d3fbc8,
    0x21e1cde6, 0xc33707d6, 0xf4d50d87, 0x455a14ed, 0xa9e3e905, 0xfcefa3f8, 0x676f02d9, 0x8d2a4c8a,
    0xfffa3942, 0x8771f681, 0x6d9d6122, 0xfde5380c, 0xa4beea44, 0x4bdecfa9, 0xf6bb4b60, 0xbebfbc70,
    0x289b7ec6, 0xeaa127fa, 0xd4ef3085, 0x04881d05, 0xd9d4d039, 0xe6db99e5, 0x1fa27cf8, 0xc4ac5665,
    0xf4292244, 0x432aff97, 0xab9423a7, 0xfc93a039, 0x655b59c3, 0x8f0ccc92, 0xffeff47d, 0x85845dd1,
    0x6fa87e4f, 0xfe2ce6e0, 0xa3014314, 0x4e0811a1, 0xf7537e82, 0xbd3af235, 0x2ad7d2bb, 0xeb86d391]

def mixed (index : Nat) (b c d : UInt32) : UInt32 × Nat :=
  if index < 16 then ((b &&& c) ||| (~~~b &&& d), index)
  else if index < 32 then ((d &&& b) ||| (~~~d &&& c), (5 * index + 1) % 16)
  else if index < 48 then (b ^^^ c ^^^ d, (3 * index + 5) % 16)
  else (c ^^^ (b ||| ~~~d), 7 * index % 16)

/-- One turn of the loop of `compress`. -/
def turn (words : List UInt32) (registers : Registers) (index : Nat) : Option Registers := do
  let ⟨a, b, c, d⟩ := registers
  let (mixed, wordIndex) := mixed index b c d
  let constant ← constant[index]?
  let word ← words[wordIndex]?
  let shift ← shift[index]?
  let next := a + mixed + constant + word
  return ⟨d, b + rotateLeft next shift, b, c⟩

def compress (state : Registers) (block : Bytes 64) : Option Registers := do
  let ⟨a, b, c, d⟩ ← (List.range 64).foldlM (turn (leWords block.toList)) state
  return ⟨state.a + a, state.b + b, state.c + c, state.d + d⟩

/-- The `while` loop of `update`, with the input it leaves. -/
def compressBlocks (state : Registers) (input : List UInt8) :
    Option (Registers × List UInt8) :=
  if _ : 64 ≤ input.length then do
    let block ← Bytes.ofList? (input.take 64)
    let state ← compress state block
    compressBlocks state (input.drop 64)
  else some (state, input)
termination_by input.length
decreasing_by
  rw [List.length_drop]
  omega

end Md5

structure Md5 where
  state : Md5.Registers
  byteLen : UInt64
  buffer : Md5.Bytes 64
  buffered : Nat

namespace Md5

def new : Md5 where
  state := ⟨0x67452301, 0xefcdab89, 0x98badcfe, 0x10325476⟩
  byteLen := 0
  buffer := .zero 64
  buffered := 0

/-- `update` from its `while` loop on. -/
def updateBlocks (md5 : Md5) (input : List UInt8) : Option Md5 := do
  let (state, input) ← compressBlocks md5.state input
  let buffer ← md5.buffer.copyFromSlice 0 input.length input
  return { md5 with state, buffer, buffered := input.length }

def updateBuffered (md5 : Md5) (input : List UInt8) : Option Md5 := do
  let take := min (64 - md5.buffered) input.length
  let head ← sliceTo input take
  let buffer ← md5.buffer.copyFromSlice md5.buffered (md5.buffered + take) head
  let buffered := md5.buffered + take
  let input ← sliceFrom input take
  if buffered < 64 then return { md5 with buffer, buffered }
  else if buffered = 64 then do
    let state ← compress md5.state buffer
    updateBlocks { md5 with state, buffer, buffered := 0 } input
  else updateBlocks { md5 with buffer, buffered } input

/-- No method of the digest may index out of bounds; `none` is such a panic. -/
def update (md5 : Md5) (input : List UInt8) : Option Md5 :=
  let md5 := { md5 with byteLen := md5.byteLen + UInt64.ofNat input.length }
  if md5.buffered ≠ 0 then md5.updateBuffered input else md5.updateBlocks input

def compressTail (state : Registers) (tail : List UInt8) : Option Registers := do
  let (state, _) ← compressBlocks state tail
  return state

def finalize (md5 : Md5) : Option (Bytes 16) := do
  let bitLen := md5.byteLen * 8
  let head ← sliceTo md5.buffer.toList md5.buffered
  let tail ← (Bytes.zero 128).copyFromSlice 0 md5.buffered head
  let tail ← tail.set? md5.buffered 0x80
  let tailLen := if md5.buffered < 56 then 64 else 128
  let tail ← tail.copyFromSlice (tailLen - 8) tailLen (leBytes 8 bitLen.toNat)
  let body ← sliceTo tail.toList tailLen
  let state ← compressTail md5.state body
  Bytes.ofList? (leBytes 4 state.a.toNat ++ leBytes 4 state.b.toNat ++ leBytes 4 state.c.toNat ++
    leBytes 4 state.d.toNat)

end Md5

end Nexus
