import Mathlib.Data.BitVec
import Mathlib.Data.List.Basic
import Nexus.Fallible
import Nexus.Words

namespace Nexus.NativeMemory

open Fallible

abbrev Byte := BitVec 8

inductive NativeMemoryError where
  | nullPointer
  | invalidLimit
  | lengthExceedsLimit (requested maximum : Nat)
  | addressOverflow
  | memoryQueryFailed
  | uncommittedRegion
  | guardedRegion
  | noAccessRegion
  | unreadableRegion
  | unwritableRegion
  | malformedMemoryRegion
  | readFailed
  | partialRead (expected actual : Nat)
  | missingNul (maximum : Nat)
  | allocationFailed (requested : Nat)
  | snapshotInvariantViolation
  deriving DecidableEq

structure RegionInformation where
  baseAddress : Nat
  regionSize : Nat
  state : BitVec 32
  protect : BitVec 32

structure ReadAnswer where
  success : Bool
  actual : Nat
  destination : Nat → Byte

structure ProcessMemory where
  byte : Nat → Byte
  /-- `none` where less than the whole structure is filled in. -/
  query : Nat → Option RegionInformation
  read : Nat → Nat → ReadAnswer
  /-- Whether a vector of the first length gets room for the second more. -/
  allocates : Nat → Nat → Bool

structure ReadRequest where
  address : Nat
  length : Nat
  deriving DecidableEq

/-- Why a copy stopped. The last two are an unchecked operation out of range, and a loop that has
had as many turns as there are bytes. -/
inductive Stop where
  | failed (error : NativeMemoryError)
  | overflow
  | endless
  deriving DecidableEq

abbrev Copying := Fallible (List ReadRequest) Stop

inductive MemoryAccess where
  | read
  | write
  deriving DecidableEq

def STRING_COPY_CHUNK_BYTES : Nat := 16 * 1024

def ISIZE_MAX : Nat := 2 ^ 63 - 1

def MEM_COMMIT : BitVec 32 := 0x1000

def PAGE_NOACCESS : BitVec 32 := 0x01

def PAGE_READONLY : BitVec 32 := 0x02

def PAGE_READWRITE : BitVec 32 := 0x04

def PAGE_WRITECOPY : BitVec 32 := 0x08

def PAGE_EXECUTE_READ : BitVec 32 := 0x20

def PAGE_EXECUTE_READWRITE : BitVec 32 := 0x40

def PAGE_EXECUTE_WRITECOPY : BitVec 32 := 0x80

def PAGE_GUARD : BitVec 32 := 0x100

def error {α : Type} (error : NativeMemoryError) : Copying α := fail (.failed error)

def checkedAdd (a b : Nat) (otherwise : NativeMemoryError) : Copying Nat :=
  if a + b < 2 ^ 64 then pure (a + b) else error otherwise

def checkedSub (a b : Nat) (otherwise : NativeMemoryError) : Copying Nat :=
  if b ≤ a then pure (a - b) else error otherwise

def uncheckedAdd (a b : Nat) : Copying Nat :=
  if a + b < 2 ^ 64 then pure (a + b) else fail .overflow

def uncheckedSub (a b : Nat) : Copying Nat :=
  if b ≤ a then pure (a - b) else fail .overflow

def readableProtection (protection : BitVec 32) : Bool :=
  protection ∈ [PAGE_READONLY, PAGE_READWRITE, PAGE_WRITECOPY, PAGE_EXECUTE_READ,
    PAGE_EXECUTE_READWRITE, PAGE_EXECUTE_WRITECOPY]

def writableProtection (protection : BitVec 32) : Bool :=
  protection ∈ [PAGE_READWRITE, PAGE_WRITECOPY, PAGE_EXECUTE_READWRITE, PAGE_EXECUTE_WRITECOPY]

namespace ProcessMemory

variable (memory : ProcessMemory)

def regionEnd (address : Nat) (access : MemoryAccess) : Except NativeMemoryError Nat :=
  match memory.query address with
  | none => .error .memoryQueryFailed
  | some info =>
    if info.state ≠ MEM_COMMIT then .error .uncommittedRegion
    else if info.protect &&& PAGE_GUARD ≠ 0 then .error .guardedRegion
    else if info.protect &&& 0xff = PAGE_NOACCESS then .error .noAccessRegion
    else if access = .read ∧ !readableProtection (info.protect &&& 0xff) then
      .error .unreadableRegion
    else if access = .write ∧ !writableProtection (info.protect &&& 0xff) then
      .error .unwritableRegion
    else if 2 ^ 64 ≤ info.baseAddress + info.regionSize then .error .malformedMemoryRegion
    else if info.regionSize = 0 ∨ address < info.baseAddress ∨
        info.baseAddress + info.regionSize ≤ address then .error .malformedMemoryRegion
    else .ok (info.baseAddress + info.regionSize)

/-- A vector has at most `isize::MAX` bytes. -/
def reserve (length additional : Nat) (requested : Nat) : Copying Unit :=
  ensure (length + additional ≤ ISIZE_MAX ∧ memory.allocates length additional = true)
    (.failed (.allocationFailed requested))

def allocateZeroed (length : Nat) : Copying (List Byte) := do
  memory.reserve 0 length length
  pure (List.replicate length 0)

def appendBytes (output bytes : List Byte) : Copying (List Byte) := do
  let requested ← checkedAdd output.length bytes.length .addressOverflow
  memory.reserve output.length bytes.length requested
  pure (output ++ bytes)

def classifyReadResult (success : Bool) (expected actual : Nat) : Copying Unit :=
  if actual ≠ expected then
    if actual = 0 ∧ !success then error .readFailed
    else error (.partialRead expected actual)
  else if !success then error .readFailed
  else pure ()

def readChunk (address : Nat) (destination : List Byte) : Copying (List Byte) :=
  if destination.isEmpty then pure destination
  else do
    modify fun reads => ⟨address, destination.length⟩ :: reads
    let answer := memory.read address destination.length
    classifyReadResult answer.success destination.length answer.actual
    pure ((List.range destination.length).map answer.destination)

/-- Where a turn of a copy reads next, and how many bytes: at most to the end of the region, to the
end of the copy and `most`. -/
def nextStep (address copied length most : Nat) (access : MemoryAccess) : Copying (Nat × Nat) := do
  let cursor ← checkedAdd address copied .addressOverflow
  let regionEnd ← ofExcept Stop.failed (memory.regionEnd cursor access)
  let available ← checkedSub regionEnd cursor .malformedMemoryRegion
  let remaining ← uncheckedSub length copied
  let step := min (min available remaining) most
  ensure (step ≠ 0) (.failed .malformedMemoryRegion)
  pure (cursor, step)

def copyTurn (address maximum copied : Nat) : Copying (List Byte) := do
  let (cursor, step) ← memory.nextStep address copied maximum STRING_COPY_CHUNK_BYTES .read
  let chunk ← memory.allocateZeroed step
  memory.readChunk cursor chunk

/-- The loop of `copy_c_string`. It may have as many turns as there are bytes. -/
def copyChunks (address maximum : Nat) : Nat → Nat → List Byte → Copying (List Byte)
  | 0, copied, _ => if copied < maximum then fail .endless else error (.missingNul maximum)
  | turns + 1, copied, output =>
    if copied < maximum then do
      let chunk ← memory.copyTurn address maximum copied
      match chunk.findIdx? (· = 0) with
      | some nul => memory.appendBytes output (chunk.take (nul + 1))
      | none =>
        let output ← memory.appendBytes output chunk
        let copied ← uncheckedAdd copied chunk.length
        copyChunks address maximum turns copied output
    else error (.missingNul maximum)

def validateAddress (source maximum : Nat) : Copying Nat := do
  ensure (source ≠ 0) (.failed .nullPointer)
  ensure (maximum ≠ 0) (.failed .invalidLimit)
  let _ ← checkedAdd source maximum .addressOverflow
  pure source

def copyCString (source maximum : BitVec 64) : Copying (List Byte) := do
  let address ← validateAddress source.toNat maximum.toNat
  memory.copyChunks address maximum.toNat maximum.toNat 0 []

def readTurn (address copied : Nat) (destination : List Byte) : Copying (Nat × List Byte) := do
  let length := destination.length
  let (cursor, step) ← memory.nextStep address copied length length .read
  let next ← checkedAdd copied step .addressOverflow
  ensure (next ≤ length) (.failed .snapshotInvariantViolation)
  let chunk ← memory.readChunk cursor ((destination.take next).drop copied)
  pure (next, destination.take copied ++ chunk ++ destination.drop next)

/-- The loop of `read_exact`. -/
def readRest (address : Nat) : Nat → Nat → List Byte → Copying (List Byte)
  | 0, copied, destination =>
    if copied < destination.length then fail .endless else pure destination
  | turns + 1, copied, destination =>
    if copied < destination.length then do
      let (next, destination) ← memory.readTurn address copied destination
      readRest address turns next destination
    else pure destination

def readExact (address : Nat) (destination : List Byte) : Copying (List Byte) :=
  memory.readRest address destination.length 0 destination

def copyBytes (source length maximum : BitVec 64) : Copying (List Byte) := do
  ensure (source.toNat ≠ 0) (.failed .nullPointer)
  ensure (maximum.toNat ≠ 0) (.failed .invalidLimit)
  ensure (length.toNat ≤ maximum.toNat)
    (.failed (.lengthExceedsLimit length.toNat maximum.toNat))
  let _ ← checkedAdd source.toNat length.toNat .addressOverflow
  if length.toNat = 0 then pure []
  else do
    let output ← memory.allocateZeroed length.toNat
    memory.readExact source.toNat output

end ProcessMemory

end Nexus.NativeMemory
