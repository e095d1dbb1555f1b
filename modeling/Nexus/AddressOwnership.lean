import Nexus.Trace

namespace Nexus

/-- `usize` and `u64` values stay below this bound. -/
def wordLimit : Nat := 2 ^ 64

def checkedAdd (a b : Nat) : Option Nat := if a + b < wordLimit then some (a + b) else none

inductive AddressOwnershipError where
  | zeroSignature
  | emptyRange
  | rangeOverflow
  | signatureInUse
  | rangeChanged
  | callbackGateChanged
  | overlap
  deriving DecidableEq

inductive AddressPublish where
  | inserted
  | alreadyPresent
  deriving DecidableEq

structure MappedRange where
  owner : OwnerToken
  start : Nat
  stop : Nat
  accepting : Bool
  callbackGate : GateRef
  deriving DecidableEq

structure AddressOwnershipIndex where
  entries : List MappedRange
  deriving DecidableEq

namespace AddressOwnershipIndex

def new : AddressOwnershipIndex := ⟨[]⟩

def publish (index : AddressOwnershipIndex) (owner : OwnerToken) (start size : Nat)
    (gate : GateRef) : Except AddressOwnershipError (AddressPublish × AddressOwnershipIndex) :=
  if owner.signature = 0 then .error .zeroSignature
  else if size = 0 then .error .emptyRange
  else match checkedAdd start size with
    | none => .error .rangeOverflow
    | some stop =>
      match index.entries.find? (fun entry => entry.owner = owner) with
      | some existing =>
        if existing.start ≠ start ∨ existing.stop ≠ stop then .error .rangeChanged
        else if existing.callbackGate ≠ gate then .error .callbackGateChanged
        else .ok (.alreadyPresent, index)
      | none =>
        if index.entries.any (fun entry => entry.owner.signature = owner.signature) then
          .error .signatureInUse
        else if index.entries.any (fun entry => start < entry.stop ∧ entry.start < stop) then
          .error .overlap
        else .ok (.inserted, ⟨index.entries ++ [⟨owner, start, stop, true, gate⟩]⟩)

/-- The entries with the first one of `owner` no longer accepting. -/
def closeFirst (owner : OwnerToken) : List MappedRange → List MappedRange
  | [] => []
  | entry :: rest =>
    if entry.owner = owner then { entry with accepting := false } :: rest
    else entry :: closeFirst owner rest

def close (index : AddressOwnershipIndex) (owner : OwnerToken) (shared : Shared) :
    Bool × AddressOwnershipIndex × Shared :=
  match index.entries.find? (fun entry => entry.owner = owner) with
  | none => (false, index, shared)
  | some entry =>
    (entry.accepting, ⟨closeFirst owner index.entries⟩, shared.closeGate entry.callbackGate)

def retire (index : AddressOwnershipIndex) (owner : OwnerToken) : Bool × AddressOwnershipIndex :=
  let kept := index.entries.filter (fun entry => entry.owner ≠ owner)
  (index.entries.length ≠ kept.length, ⟨kept⟩)

def ownerForAddress (index : AddressOwnershipIndex) (address : Nat) : Option OwnerToken :=
  (index.entries.find? fun entry => entry.start ≤ address ∧ address < entry.stop).map
    MappedRange.owner

def isCurrentOwner (index : AddressOwnershipIndex) (owner : OwnerToken) : Bool :=
  index.entries.any fun entry => entry.owner = owner ∧ entry.accepting

def callbackGateForCurrent (index : AddressOwnershipIndex) (owner : OwnerToken) :
    Option GateRef :=
  (index.entries.find? fun entry => entry.owner = owner ∧ entry.accepting).map
    MappedRange.callbackGate

theorem mem_retire {index : AddressOwnershipIndex} {owner : OwnerToken} {entry : MappedRange} :
    entry ∈ (index.retire owner).2.entries ↔ entry ∈ index.entries ∧ entry.owner ≠ owner := by
  simp [retire]

end AddressOwnershipIndex

end Nexus
