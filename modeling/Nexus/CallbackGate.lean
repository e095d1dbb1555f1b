import Nexus.Fallible
import Mathlib.Logic.Function.Basic

namespace Nexus

structure OwnerToken where
  signature : Nat
  generation : Nat
  deriving DecidableEq

/-- Admission gate and drain counter. `tryEnter` reads the flag, counts, and reads the flag
again; run to completion it admits exactly when the gate is open. -/
structure CallbackGate where
  accepting : Bool
  inFlight : Nat
  deriving DecidableEq

namespace CallbackGate

def opened : CallbackGate := ⟨true, 0⟩

def tryEnter (gate : CallbackGate) : Option CallbackGate :=
  if gate.accepting then some { gate with inFlight := gate.inFlight + 1 } else none

def close (gate : CallbackGate) : CallbackGate := { gate with accepting := false }

def leave (gate : CallbackGate) (count : Nat) : CallbackGate :=
  { gate with inFlight := gate.inFlight - count }

def Quiet (gate : CallbackGate) : Prop := gate.accepting = false ∧ gate.inFlight = 0

instance (gate : CallbackGate) : Decidable gate.Quiet := inferInstanceAs (Decidable (_ ∧ _))

theorem tryEnter_eq_some {gate next : CallbackGate} (h : gate.tryEnter = some next) :
    gate.accepting = true ∧ next = { gate with inFlight := gate.inFlight + 1 } := by
  unfold tryEnter at h
  split at h
  next ha => exact ⟨ha, (Option.some.inj h).symm⟩
  next => simp at h

@[simp] theorem close_accepting (gate : CallbackGate) : gate.close.accepting = false := rfl

@[simp] theorem close_inFlight (gate : CallbackGate) : gate.close.inFlight = gate.inFlight := rfl

@[simp] theorem leave_accepting (gate : CallbackGate) (count : Nat) :
    (gate.leave count).accepting = gate.accepting := rfl

@[simp] theorem leave_inFlight (gate : CallbackGate) (count : Nat) :
    (gate.leave count).inFlight = gate.inFlight - count := rfl

end CallbackGate

/-- The identity of one shared gate allocation: the host allocates one for each generation it
admits, the loader one for each module it returns. -/
inductive GateRef where
  | host (owner : OwnerToken)
  | module (id : Nat)
  deriving DecidableEq

end Nexus
