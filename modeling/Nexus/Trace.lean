import Nexus.CallbackGate
import Nexus.EventLog

namespace Nexus

inductive CleanupPhase where
  | hookRegistrations
  | callbackRegistrations
  | ownedResources
  deriving DecidableEq

namespace CleanupPhase

def order : List CleanupPhase := [.hookRegistrations, .callbackRegistrations, .ownedResources]

def preDrainCount : Nat := 2

end CleanupPhase

structure CleanupError where
  message : String
  deriving DecidableEq

abbrev Cleaner := CleanupPhase → Call (Except CleanupError Unit)

inductive PlatformError where
  | pathEncoding
  | loadLibrary
  | missingDefinitionExport
  | moduleImage
  | memoryQuery
  | memoryNotReadable
  | addressNotExecutable
  | freeLibrary
  deriving DecidableEq

structure ModuleHandle where
  raw : Nat
  deriving DecidableEq

inductive Releaser where
  | provisional
  | release
  | drop
  deriving DecidableEq

/-- What can be observed at the boundaries of the host, in the order it happens. A module is
named by the serial number of the load that produced it, since the platform may return one
handle for several loads. -/
inductive Event where
  | opened (gate : GateRef)
  | closed (gate : GateRef)
  | admitted (gate : GateRef)
  | left (gate : GateRef) (count : Nat)
  | cleaned (owner : OwnerToken) (phase : CleanupPhase) (outcome : Call (Except CleanupError Unit))
  | loaded (module : Nat) (handle : ModuleHandle)
  | loadEntered (module : Nat) (signature : Nat) (launchOnly : Bool)
  | unloadEntered (module : Nat)
  | freed (module : Nat) (handle : ModuleHandle) (releaser : Releaser)
      (outcome : Call (Except PlatformError Unit))
  | bound (owner : OwnerToken) (module : Nat) (hasUnload : Bool)
  | startupFinished

/-- The gates as the trace, newest event first, leaves them. -/
def gatesAfter : List Event → GateRef → CallbackGate
  | [], _ => ⟨false, 0⟩
  | .opened g :: log, r => if r = g then .opened else gatesAfter log r
  | .closed g :: log, r => if r = g then (gatesAfter log r).close else gatesAfter log r
  | .admitted g :: log, r =>
    if r = g then { gatesAfter log r with inFlight := (gatesAfter log r).inFlight + 1 }
    else gatesAfter log r
  | .left g n :: log, r => if r = g then (gatesAfter log r).leave n else gatesAfter log r
  | _ :: log, r => gatesAfter log r

/-- Gates shared between threads, the trace so far, and the serial number of the next load. -/
structure Shared where
  gates : GateRef → CallbackGate
  log : List Event
  nextModule : Nat

namespace Shared

def start : Shared := ⟨fun _ => ⟨false, 0⟩, [], 0⟩

def record (s : Shared) (event : Event) : Shared := { s with log := event :: s.log }

def setGate (s : Shared) (ref : GateRef) (gate : CallbackGate) (event : Event) : Shared :=
  { s with gates := Function.update s.gates ref gate, log := event :: s.log }

def openGate (s : Shared) (ref : GateRef) : Shared := s.setGate ref .opened (.opened ref)

def closeGate (s : Shared) (ref : GateRef) : Shared :=
  s.setGate ref (s.gates ref).close (.closed ref)

def leaveGate (s : Shared) (ref : GateRef) (count : Nat) : Shared :=
  s.setGate ref ((s.gates ref).leave count) (.left ref count)

def enterGate (s : Shared) (ref : GateRef) : Bool × Shared :=
  match (s.gates ref).tryEnter with
  | some gate => (true, s.setGate ref gate (.admitted ref))
  | none => (false, s)

def waitForDrain (s : Shared) (ref : GateRef) (leaving : Nat) : Bool × Shared :=
  if (s.gates ref).inFlight = 0 then (true, s)
  else (decide ((s.gates ref).inFlight ≤ leaving), s.leaveGate ref leaving)

def Traced (s : Shared) : Prop := s.gates = gatesAfter s.log

theorem waitForDrain_fst (s : Shared) (ref : GateRef) (leaving : Nat) :
    (s.waitForDrain ref leaving).1 = decide ((s.gates ref).inFlight ≤ leaving) := by
  unfold waitForDrain
  split
  next h => simp [h]
  next => rfl

theorem waitForDrain_inFlight {s : Shared} {ref : GateRef} {leaving : Nat}
    (h : (s.gates ref).inFlight ≤ leaving) :
    ((s.waitForDrain ref leaving).2.gates ref).inFlight = 0 := by
  unfold waitForDrain
  split
  next h0 => exact h0
  next => simpa [leaveGate, setGate] using Nat.sub_eq_zero_of_le h

@[simp] theorem record_gates (s : Shared) (event : Event) : (s.record event).gates = s.gates := rfl

@[simp] theorem record_log (s : Shared) (event : Event) :
    (s.record event).log = event :: s.log := rfl

@[simp] theorem setGate_gates (s : Shared) (ref : GateRef) (gate : CallbackGate) (event : Event) :
    (s.setGate ref gate event).gates = Function.update s.gates ref gate := rfl

@[simp] theorem setGate_log (s : Shared) (ref : GateRef) (gate : CallbackGate) (event : Event) :
    (s.setGate ref gate event).log = event :: s.log := rfl

theorem setGate_of_ne (s : Shared) {ref other : GateRef} (h : other ≠ ref) (gate : CallbackGate)
    (event : Event) : (s.setGate ref gate event).gates other = s.gates other :=
  Function.update_of_ne h ..

theorem waitForDrain_cases (s : Shared) (ref : GateRef) (leaving : Nat) :
    (s.waitForDrain ref leaving).2 = s ∨
      (s.waitForDrain ref leaving).2 = s.leaveGate ref leaving := by
  unfold waitForDrain
  split
  · exact Or.inl rfl
  · exact Or.inr rfl

theorem enterGate_cases (s : Shared) (ref : GateRef) :
    (s.enterGate ref).2 = s ∨ (s.gates ref).accepting = true ∧
      (s.enterGate ref).2 = s.setGate ref
        { s.gates ref with inFlight := (s.gates ref).inFlight + 1 } (.admitted ref) := by
  unfold enterGate
  split
  next hg =>
    obtain ⟨ha, rfl⟩ := CallbackGate.tryEnter_eq_some hg
    exact Or.inr ⟨ha, rfl⟩
  next => exact Or.inl rfl

theorem traced_start : Traced start := rfl

section Traced

variable {s : Shared} {ref : GateRef}

theorem Traced.record (h : s.Traced) {event : Event} (he : gatesAfter (event :: s.log) =
    gatesAfter s.log) : (s.record event).Traced := by
  unfold Traced
  exact h.trans he.symm

theorem Traced.openGate (h : s.Traced) : (s.openGate ref).Traced := by
  funext r
  simp only [Shared.openGate, setGate, gatesAfter, Function.update_apply, ← h.symm]

theorem Traced.closeGate (h : s.Traced) : (s.closeGate ref).Traced := by
  funext r
  simp only [Shared.closeGate, setGate, gatesAfter, Function.update_apply, ← h.symm]
  split
  next hr => rw [hr]
  next => rfl

theorem Traced.leaveGate {count : Nat} (h : s.Traced) : (s.leaveGate ref count).Traced := by
  funext r
  simp only [Shared.leaveGate, setGate, gatesAfter, Function.update_apply, ← h.symm]
  split
  next hr => rw [hr]
  next => rfl

theorem Traced.waitForDrain {leaving : Nat} (h : s.Traced) :
    (s.waitForDrain ref leaving).2.Traced := by
  rcases s.waitForDrain_cases ref leaving with hw | hw <;> rw [hw]
  · exact h
  · exact h.leaveGate

theorem Traced.enterGate (h : s.Traced) : (s.enterGate ref).2.Traced := by
  rcases s.enterGate_cases ref with he | ⟨_, he⟩ <;> rw [he]
  · exact h
  · funext r
    simp only [setGate, gatesAfter, Function.update_apply, ← h.symm]
    split
    next hr => rw [hr]
    next => rfl

end Traced

end Shared

end Nexus
