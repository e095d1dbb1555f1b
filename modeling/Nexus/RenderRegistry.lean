import Mathlib.Data.List.Count
import Nexus.UiCallbacks

namespace Nexus.UiHost

inductive RenderPhase where
  | preRender
  | render
  | postRender
  | optionsRender
  deriving DecidableEq

def RenderPhase.all : List RenderPhase := [.preRender, .render, .postRender, .optionsRender]

/-- The panic budget is a 32-bit number. -/
structure RenderRegistryConfig where
  maximumCallbacksPerPhase : Nat
  maximumPanicsPerCallback : Nat
  panics_lt : maximumPanicsPerCallback < 2 ^ 32

def RenderRegistryConfig.default : RenderRegistryConfig := ⟨4096, 3, by decide⟩

def RenderRegistryConfig.validate (config : RenderRegistryConfig) :
    Except UiRegistryError RenderRegistryConfig :=
  if config.maximumCallbacksPerPhase = 0 then
    .error (.invalidConfiguration "render callback capacity must be non-zero")
  else if config.maximumPanicsPerCallback = 0 then
    .error (.invalidConfiguration "render callback panic budget must be non-zero")
  else .ok config

inductive RegisterRenderOutcome where
  | registered
  | duplicate
  deriving DecidableEq

structure FrameRenderState where
  initialized : Bool
  eulaAccepted : Bool
  uiVisible : Bool

def FrameRenderState.rendersMain (frame : FrameRenderState) : Bool :=
  frame.initialized && frame.eulaAccepted && frame.uiVisible

structure RenderFrameSnapshot where
  preRender : List CallbackSlot
  render : Option (List CallbackSlot)
  postRender : List CallbackSlot

inductive CallbackInvocation where
  | invoked
  | panicked (disabled : Bool)
  | skippedInactive
  | skippedOwnerRetired
  | skippedPanicDisabled
  deriving DecidableEq

def CallbackInvocation.called : CallbackInvocation → Bool
  | .invoked | .panicked _ => true
  | .skippedInactive | .skippedOwnerRetired | .skippedPanicDisabled => false

structure RenderInvocationReport where
  invoked : Nat
  panicked : Nat
  skippedInactive : Nat
  skippedRetired : Nat
  skippedDisabled : Nat
  deriving DecidableEq

namespace RenderInvocationReport

def empty : RenderInvocationReport := ⟨0, 0, 0, 0, 0⟩

def record (report : RenderInvocationReport) : CallbackInvocation → RenderInvocationReport
  | .invoked => { report with invoked := report.invoked + 1 }
  | .panicked _ => { report with panicked := report.panicked + 1 }
  | .skippedInactive => { report with skippedInactive := report.skippedInactive + 1 }
  | .skippedOwnerRetired => { report with skippedRetired := report.skippedRetired + 1 }
  | .skippedPanicDisabled => { report with skippedDisabled := report.skippedDisabled + 1 }

def total (report : RenderInvocationReport) : Nat :=
  report.invoked + report.panicked + report.skippedInactive + report.skippedRetired +
    report.skippedDisabled

theorem total_record (report : RenderInvocationReport) (outcome : CallbackInvocation) :
    (report.record outcome).total = report.total + 1 := by
  cases outcome <;> simp only [record, total] <;> omega

end RenderInvocationReport

structure GateState where
  active : Bool
  inFlight : Nat

structure OwnerRetirement where
  wasActive : Bool
  quiescent : Bool
  inFlight : Nat
  deriving DecidableEq

def OwnerRetirement.alreadyQuiescent : OwnerRetirement := ⟨false, true, 0⟩

def OwnerRetirement.merge (retirement other : OwnerRetirement) : OwnerRetirement :=
  ⟨retirement.wasActive || other.wasActive, retirement.quiescent && other.quiescent,
    max retirement.inFlight other.inFlight⟩

/-- The render registry with the slots and gates it refers to, and the gates that this thread is
inside of, newest first. -/
structure RenderHost where
  config : RenderRegistryConfig
  phases : RenderPhase → List CallbackSlot
  slots : CallbackSlots
  gates : Nat → GateState
  activeGates : List Nat

namespace RenderHost

def new (config : RenderRegistryConfig) : Except UiRegistryError RenderHost := do
  let config ← config.validate
  pure ⟨config, fun _ => [], .empty, fun _ => ⟨true, 0⟩, []⟩

variable (host : RenderHost)

def setGate (gate : Nat) (state : GateState) : RenderHost :=
  { host with gates := Function.update host.gates gate state }

def tryEnter (handle : OwnerHandle) : Option RenderHost :=
  let state := host.gates handle.gate
  if state.active = false then none
  else if 2 ^ 64 ≤ state.inFlight + 1 then none
  else
    some { host.setGate handle.gate ⟨true, state.inFlight + 1⟩ with
      activeGates := handle.gate :: host.activeGates }

def leave (gate : Nat) : RenderHost :=
  let state := host.gates gate
  { host.setGate gate ⟨state.active, state.inFlight - 1⟩ with
    activeGates := host.activeGates.erase gate }

/-- `OwnerHandle::retire_and_drain`. It is `none` where the thread would wait for another. -/
def retireAndDrain (handle : OwnerHandle) : Option (OwnerRetirement × RenderHost) :=
  let state := host.gates handle.gate
  if host.activeGates.count handle.gate < state.inFlight then none
  else
    some (⟨state.active, state.inFlight = 0, state.inFlight⟩,
      host.setGate handle.gate ⟨false, state.inFlight⟩)

def append (phase : RenderPhase) (callback : UiCallback) :
    Except UiRegistryError RegisterRenderOutcome × RenderHost :=
  let callbacks := host.phases phase
  if callbacks.any fun slot => slot.callback.sameIdentity callback then (.ok .duplicate, host)
  else if host.config.maximumCallbacksPerPhase ≤ callbacks.length then
    (.error (.capacityExceeded "render phase" host.config.maximumCallbacksPerPhase), host)
  else
    let (slot, slots) := host.slots.allocate callback host.config.maximumPanicsPerCallback
    (.ok .registered,
      { host with slots, phases := Function.update host.phases phase (callbacks ++ [slot]) })

def register (phase : RenderPhase) (callback : UiCallback) :
    Except UiRegistryError RegisterRenderOutcome × RenderHost :=
  match host.tryEnter callback.owner with
  | none => (.error (.ownerRetired callback.owner.identity), host)
  | some entered =>
    let (result, appended) := entered.append phase callback
    (result, appended.leave callback.owner.gate)

def removeWhere (gone : CallbackSlot → Bool) : List CallbackSlot × RenderHost :=
  let removed := RenderPhase.all.flatMap fun phase => (host.phases phase).filter gone
  (removed, { host with
    phases := fun phase => (host.phases phase).filter fun slot => !gone slot
    slots := removed.foldl CallbackSlots.deactivate host.slots })

def deregister (callback : UiCallback) : List CallbackSlot × RenderHost :=
  host.removeWhere fun slot => slot.callback.sameIdentity callback

def retireAll (host : RenderHost) (retirement : OwnerRetirement) :
    List CallbackSlot → Option (OwnerRetirement × RenderHost)
  | [] => some (retirement, host)
  | slot :: later => do
    let (next, retired) ← host.retireAndDrain slot.callback.owner
    retireAll retired (retirement.merge next) later

def cleanupOwnerGeneration (owner : OwnerGeneration) :
    Option ((List CallbackSlot × OwnerRetirement) × RenderHost) := do
  let (removed, host) := host.removeWhere fun slot => slot.callback.owner.identity = owner
  let (retirement, host) ← host.retireAll .alreadyQuiescent removed
  some ((removed, retirement), host)

def snapshot (phase : RenderPhase) : List CallbackSlot := host.phases phase

def snapshotFrame (frame : FrameRenderState) : RenderFrameSnapshot where
  preRender := host.snapshot .preRender
  render := if frame.rendersMain then some (host.snapshot .render) else none
  postRender := host.snapshot .postRender

/-- `CallbackSlot::invoke` up to the callback: it was entered, or skipped. -/
def beginInvoke (slot : CallbackSlot) : Except (CallbackInvocation × RenderHost) RenderHost :=
  if host.slots.isActive slot = false then .error (.skippedInactive, host)
  else if (host.slots.flags slot.address).disabled then .error (.skippedPanicDisabled, host)
  else
    match host.tryEnter slot.callback.owner with
    | none => .error (.skippedOwnerRetired, host)
    | some entered =>
      if entered.slots.isActive slot = false then
        .error (.skippedInactive, entered.leave slot.callback.owner.gate)
      else .ok entered

/-- The panic counts against the budget; the counter wraps. -/
def recordPanic (slot : CallbackSlot) : Bool × RenderHost :=
  let flags := host.slots.flags slot.address
  let disabled := decide (slot.maximumPanics ≤ min (flags.panics + 1) (2 ^ 32 - 1))
  (disabled, { host with
    slots := { host.slots with
      flags := Function.update host.slots.flags slot.address
        ⟨flags.active, flags.disabled || disabled, (flags.panics + 1) % 2 ^ 32⟩ } })

end RenderHost

end Nexus.UiHost
