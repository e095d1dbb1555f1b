import Mathlib.Logic.Function.Basic
import Nexus.Fallible

namespace Nexus.UiHost

structure OwnerGeneration where
  owner : Nat
  generation : Nat
  deriving DecidableEq

structure OwnerHandle where
  identity : OwnerGeneration
  gate : Nat
  deriving DecidableEq

def OwnerHandle.sharesLifecycle (handle other : OwnerHandle) : Bool := handle.gate = other.gate

inductive UiRegistryError where
  | ownerRetired (owner : OwnerGeneration)
  | nativeOwnerMismatch (bound registration : OwnerGeneration)
  | textTooLong (field : String) (actual maximum : Nat)
  | interiorNul (field : String)
  | capacityExceeded (registry : String) (maximum : Nat)
  | invalidRenderPhase (phase : Nat)
  | invalidConfiguration (reason : String)
  deriving DecidableEq

def validateText (field value : String) (maximum : Nat) : Except UiRegistryError Unit :=
  if maximum < value.utf8ByteSize then .error (.textTooLong field value.utf8ByteSize maximum)
  else if Char.ofNat 0 ∈ value.toList then .error (.interiorNul field)
  else .ok ()

inductive CallbackKey where
  | managed (id : Nat)
  | native (address : Nat)
  deriving DecidableEq

structure UiCallback where
  owner : OwnerHandle
  key : CallbackKey
  deriving DecidableEq

def UiCallback.sameIdentity (callback other : UiCallback) : Bool :=
  callback.owner.identity = other.owner.identity ∧ callback.key = other.key

structure CallbackSlot where
  address : Nat
  callback : UiCallback
  maximumPanics : Nat
  deriving DecidableEq

structure SlotFlags where
  active : Bool
  disabled : Bool
  panics : Nat

structure CallbackSlots where
  next : Nat
  flags : Nat → SlotFlags

namespace CallbackSlots

def empty : CallbackSlots := ⟨0, fun _ => ⟨true, false, 0⟩⟩

def allocate (slots : CallbackSlots) (callback : UiCallback) (maximumPanics : Nat) :
    CallbackSlot × CallbackSlots :=
  (⟨slots.next, callback, maximumPanics⟩,
    ⟨slots.next + 1, Function.update slots.flags slots.next ⟨true, false, 0⟩⟩)

def deactivate (slots : CallbackSlots) (slot : CallbackSlot) : CallbackSlots :=
  let flags := slots.flags slot.address
  { slots with
    flags := Function.update slots.flags slot.address ⟨false, flags.disabled, flags.panics⟩ }

def isActive (slots : CallbackSlots) (slot : CallbackSlot) : Bool := (slots.flags slot.address).active

@[simp] theorem next_deactivate (slots : CallbackSlots) (slot : CallbackSlot) :
    (slots.deactivate slot).next = slots.next := rfl

theorem isActive_deactivate (slots : CallbackSlots) (slot other : CallbackSlot) :
    (slots.deactivate slot).isActive other =
      (slots.isActive other && decide (other.address ≠ slot.address)) := by
  unfold isActive deactivate
  by_cases h : other.address = slot.address
  · simp [h]
  · simp [h]

end CallbackSlots

end Nexus.UiHost
