import Mathlib.Data.List.Sort
import Nexus.Fallible

namespace Nexus

/-- What the manager asks of the paths of the platform. -/
class HostPath (Path : Type) where
  parent : Path → Option Path
  toStringLossy : Path → String
  toLowercase : String → String

variable {Path : Type}

structure AddonDirectory (Path : Type) where
  path : Path

def AddonDirectory.containsDirectChild [DecidableEq Path] [HostPath Path]
    (directory : AddonDirectory Path) (path : Path) : Bool :=
  HostPath.parent path = some directory.path

def pathKey [HostPath Path] (path : Path) : String :=
  HostPath.toLowercase Path (String.ofList
    ((HostPath.toStringLossy path).toList.map fun c => if c = '/' then '\\' else c))

structure BinaryRevision where
  bytes : List UInt8
  size : bytes.length = 16
  deriving DecidableEq

namespace BinaryRevision

def hexDigit (n : Nat) : Char := ("0123456789abcdef".toList)[n]?.getD '0'

def legacyHex (revision : BinaryRevision) : List Char :=
  revision.bytes.flatMap fun byte => [hexDigit (byte.toNat / 16), hexDigit (byte.toNat % 16)]

def matchesLegacyHex (revision : BinaryRevision) (value : String) : Bool :=
  value.utf8ByteSize = 32 ∧
    revision.legacyHex.map Char.toLower = value.toList.map Char.toLower

end BinaryRevision

structure DiscoveredDll (Path : Type) where
  path : Path
  revision : BinaryRevision
  byteLen : Nat
  byteLen_pos : 0 < byteLen

inductive DiscoveryError where
  | directoryNotAbsolute
  | directoryNotNormalized
  | pathPolicy
  | outsideDirectory
  | duplicateEntry
  | emptyBinary
  | readDirectory
  | inspectEntry
  | readBinary
  deriving DecidableEq

inductive DirectoryEvent (Path : Type) where
  | upsert (candidate : DiscoveredDll Path)
  | removed (path : Path)
  | renamed (source : Path) (target : DiscoveredDll Path)
  | rescan

def hasDuplicateKeys [HostPath Path] : List (DiscoveredDll Path) → Bool
  | first :: second :: rest =>
    pathKey first.path = pathKey second.path || hasDuplicateKeys (second :: rest)
  | _ => false

def normalizeDiscovery [DecidableEq Path] [HostPath Path] (directory : AddonDirectory Path)
    (entries : List (DiscoveredDll Path)) : Except DiscoveryError (List (DiscoveredDll Path)) :=
  if entries.any fun entry => !directory.containsDirectChild entry.path then
    .error .outsideDirectory
  else
    let sorted := entries.insertionSort fun a b => pathKey a.path ≤ pathKey b.path
    if hasDuplicateKeys sorted then .error .duplicateEntry else .ok sorted

theorem normalizeDiscovery_ok [DecidableEq Path] [HostPath Path]
    {directory : AddonDirectory Path} {entries sorted : List (DiscoveredDll Path)}
    (h : normalizeDiscovery directory entries = .ok sorted) :
    sorted.Perm entries ∧ ∀ entry ∈ sorted, directory.containsDirectChild entry.path = true := by
  unfold normalizeDiscovery at h
  split at h
  next => cases h
  next hall =>
    dsimp only at h
    split at h
    next => cases h
    next =>
      cases h
      have hperm := List.perm_insertionSort
        (fun a b : DiscoveredDll Path => pathKey a.path ≤ pathKey b.path) entries
      refine ⟨hperm, fun entry hm => ?_⟩
      have hin : entry ∈ entries := hperm.mem_iff.mp hm
      have hchildren : ∀ e ∈ entries, directory.containsDirectChild e.path = true := by
        simpa using hall
      exact hchildren entry hin

end Nexus
