import Nexus.CallbackGate
import Nexus.SwapChainSessions
import Nexus.Unwinding
import Mathlib.Data.UInt

namespace Nexus.Dxgi

open Nexus.Render Unwinding

abbrev Address := UInt64

abbrev Guid := BitVec 128

abbrev ManagerId := Nat

def eFail : Int32 := -2147467259

inductive FactoryInterface where
  | base | v1 | v2 | v3 | v4 | v5 | v6 | v7 | media
  deriving DecidableEq

inductive SwapChainInterface where
  | base | v1 | v2 | v3 | v4
  deriving DecidableEq

inductive ObjectKind where
  | factory
  | swapChain
  deriving DecidableEq

/-- Extern boundary at which a panic was contained. -/
inductive Boundary where
  | factoryQueryInterface
  | factoryCreateSwapChain
  | swapChainQueryInterface
  | present
  | resizeBuffers
  | setColorSpace1
  | observerCallback
  | rendererCallback
  deriving DecidableEq

inductive DxgiError where
  | nullInterface
  | unsupportedInterface
  | managerClosed
  | hookConflict
  | vtable
  deriving DecidableEq

inductive InternalFailure where
  | unsupportedInterface
  | invalidState
  | hookConflict
  deriving DecidableEq

inductive FailureCode where
  | win32 (code : UInt32)
  | hresult (code : Int32)
  | internal (failure : InternalFailure)
  deriving DecidableEq

def DxgiError.failureCode : DxgiError → FailureCode
  | .unsupportedInterface => .internal .unsupportedInterface
  | .hookConflict => .internal .hookConflict
  | .nullInterface | .managerClosed | .vtable => .internal .invalidState

inductive RenderOperation where
  | captureState
  | prepareTarget
  | drawProbe
  | drawCoreUi
  | drawAddons
  | composite
  | restoreState
  deriving DecidableEq

structure RenderCallbackError where
  operation : RenderOperation
  code : FailureCode
  deriving DecidableEq

/-- The observations that are emitted around a panic. -/
inductive DxgiObservationEvent where
  | metadataIncomplete (swapChain : Nat)
  | panicContained (boundary : Boundary)
  deriving DecidableEq

inductive DiagnosticEvent where
  | attachHookFailure (swapChain : Option Nat) (code : FailureCode)
  | renderFailure (swapChain : Nat) (operation : RenderOperation) (code : FailureCode)
  deriving DecidableEq

structure SwapChainRetirement where
  id : Nat
  generation : Nat
  sequence : Nat
  deriving DecidableEq

structure PresentInvocation where
  id : Nat
  sequence : Nat
  renderLane : Bool

structure ResizeInvocation where
  id : Nat
  presentSequence : Nat
  requestedSize : Extent2D
  requestedFormat : SurfaceFormat
  renderLane : Bool
  rendererPrepared : Bool

inductive Arguments where
  | queryInterface (this iid output : Address)
  | createSwapChain (this device description swapChain : Address)
  | createSwapChainForHwnd (this device window description fullscreenDescription
      restrictToOutput swapChain : Address)
  | createSwapChainForCoreWindow (this device window description restrictToOutput
      swapChain : Address)
  | createSwapChainForComposition (this device description restrictToOutput swapChain : Address)
  | createSwapChainForCompositionSurfaceHandle (this device surface description restrictToOutput
      swapChain : Address)
  | present (this : Address) (syncInterval flags : UInt32)
  | present1 (this : Address) (syncInterval flags : UInt32) (parameters : Address)
  | resizeBuffers (this : Address) (bufferCount width height : UInt32) (format : Int32)
      (flags : UInt32)
  | setColorSpace1 (this : Address) (colorSpace : Int32)
  | resizeBuffers1 (this : Address) (bufferCount width height : UInt32) (format : Int32)
      (flags : UInt32) (creationNodeMask presentQueue : Address)
  deriving DecidableEq

structure NativeCall where
  method : Address
  arguments : Arguments
  result : Int32
  deriving DecidableEq

structure FactoryOriginals where
  queryInterface : Address
  createSwapChain : Address
  createForHwnd : Option Address
  createForCoreWindow : Option Address
  createForComposition : Option Address

structure FactoryMediaOriginals where
  queryInterface : Address
  createForCompositionSurfaceHandle : Address

structure SwapChainOriginals where
  queryInterface : Address
  present : Address
  present1 : Option Address
  resizeBuffers : Address
  resizeBuffers1 : Option Address
  setColorSpace1 : Option Address

/-- The manager behind a hooked pointer, held weakly, and the methods that its shadow table
replaced. -/
inductive Route where
  | factory (manager : ManagerId) (originals : FactoryOriginals)
  | factoryMedia (manager : ManagerId) (originals : FactoryMediaOriginals)
  | swapChain (manager : ManagerId) (originals : SwapChainOriginals)

/-- What the detours read and write: the route table, the managers that are still owned, their
gates, the memory behind the caller's pointers, and everything else. -/
structure Process (ρ : Type) where
  routes : Address → Option Route
  alive : ManagerId → Bool
  gate : ManagerId → CallbackGate
  pointerAt : Address → Address
  guidAt : Address → Guid
  rest : ρ

namespace Process

variable {ρ : Type}

def upgrade (process : Process ρ) (manager : ManagerId) : Option ManagerId :=
  if process.alive manager then some manager else none

def tryEnter (process : Process ρ) (manager : ManagerId) : Option (Process ρ) :=
  (process.gate manager).tryEnter.map fun gate =>
    { process with gate := Function.update process.gate manager gate }

def leave (process : Process ρ) (manager : ManagerId) : Process ρ :=
  { process with
    gate := Function.update process.gate manager ((process.gate manager).leave 1) }

end Process

abbrev Code (ρ α : Type) := Unwinding (Process ρ) α

inductive Detour where
  | factoryQueryInterface
  | swapChainQueryInterface
  | factoryCreateSwapChain
  | factoryCreateSwapChainForHwnd
  | factoryCreateSwapChainForCoreWindow
  | factoryCreateSwapChainForComposition
  | factoryCreateSwapChainForCompositionSurfaceHandle
  | present
  | present1
  | resizeBuffers
  | setColorSpace1
  | resizeBuffers1
  deriving DecidableEq

/-- Everything that the detours call. Native methods return; the observer, the renderer, the
manager's policy and the attachment of new objects do whatever they do, panics included. -/
structure Environment (ρ : Type) where
  native : Address → Arguments → Process ρ → Int32 × Process ρ
  /-- `current_method`: the method now in the slot that the detour replaces. -/
  currentMethod : Detour → Address → Process ρ → Option Address
  originalIunknownQuery : Address → Process ρ → Option Address
  detourAddress : Detour → Address
  factoryIid : FactoryInterface → Guid
  swapChainIid : SwapChainInterface → Guid
  observation : ManagerId → DxgiObservationEvent → Code ρ Unit
  diagnostic : ManagerId → DiagnosticEvent → Code ρ Unit
  retireSwapChain : ManagerId →
    Option (SwapChainRetirement → Code ρ (Except RenderCallbackError Unit))
  /-- What a drain that starts now will take from the queue of deferred retirements: for each
  time it gets hold of the render lane, the batches it finds until the queue is empty. -/
  deferredRetirements : ManagerId → Process ρ → List (List (List SwapChainRetirement))
  attachFactory : ManagerId → Address → Guid → Code ρ (Except DxgiError Unit)
  attachSwapChain : ManagerId → Address → Guid → Code ρ (Except DxgiError Unit)
  beforePresent : ManagerId → Address → PresentMethod → Code ρ (Option PresentInvocation)
  afterPresent : ManagerId → Address → PresentMethod → Option PresentInvocation → Int32 →
    Code ρ Unit
  beforeResize : ManagerId → Address → UInt32 → UInt32 → Int32 →
    Code ρ (Option ResizeInvocation)
  afterResize : ManagerId → Address → Option ResizeInvocation → Int32 → Code ρ Unit
  afterSetColorSpace : ManagerId → Address → Int32 → Int32 → Code ρ Unit
  /-- The detour's reference to its manager is dropped; the last one takes the observer and
  the renderer with it. -/
  release : ManagerId → Code ρ Unit

variable {ρ : Type}

namespace Environment

variable (env : Environment ρ)

def factoryInterface (iid : Guid) : Option FactoryInterface :=
  [FactoryInterface.media, .v7, .v6, .v5, .v4, .v3, .v2, .v1, .base].find?
    fun interface => iid = env.factoryIid interface

def swapChainInterface (iid : Guid) : Option SwapChainInterface :=
  [SwapChainInterface.v4, .v3, .v2, .v1, .base].find?
    fun interface => iid = env.swapChainIid interface

/-- The observer's panic is caught, and its payload dropped where it was caught. -/
def emitObservation (manager : ManagerId) (event : DxgiObservationEvent) : Code ρ Unit :=
  discardPanic (env.observation manager event)

def emitDiagnostic (manager : ManagerId) (event : DiagnosticEvent) : Code ρ Unit :=
  discardPanic (env.diagnostic manager event)

/-- `report_panic` while this thread holds the render lane: the drain finds it occupied. -/
def reportPanicInLane (manager : ManagerId) (boundary : Boundary) : Code ρ Unit :=
  env.emitObservation manager (.panicContained boundary)

/-- The payload of a renderer's panic lives until the failure has been reported. -/
def invokeRenderer (manager : ManagerId) (callback : Code ρ (Except RenderCallbackError Unit))
    (id : Nat) (boundary : Boundary) : Code ρ Bool := do
  match ← catchUnwind callback with
  | .ok (.ok ()) => pure true
  | .ok (.error error) =>
    env.emitDiagnostic manager (.renderFailure id error.operation error.code)
    pure false
  | .error payload =>
    ensuring (do
      env.reportPanicInLane manager boundary
      env.emitDiagnostic manager
        (.renderFailure id .restoreState (.internal .invalidState))
      pure false) (dropPayload payload)

def retireRendererSwapChain (manager : ManagerId) (retirement : SwapChainRetirement) :
    Code ρ Unit :=
  match env.retireSwapChain manager with
  | none => pure ()
  | some retire => do
    let _ ← env.invokeRenderer manager (retire retirement) retirement.id .rendererCallback
    pure ()

def retireBatch (manager : ManagerId) : List SwapChainRetirement → Code ρ Unit
  | [] => pure ()
  | retirement :: later => do
    env.retireRendererSwapChain manager retirement
    retireBatch manager later

def drainDeferredRetirementsInLane (manager : ManagerId) :
    List (List SwapChainRetirement) → Code ρ Unit
  | [] => pure ()
  | [] :: _ => pure ()
  | batch :: later => do
    env.retireBatch manager batch
    drainDeferredRetirementsInLane manager later

def drainDeferredRetirementsIfAvailable (manager : ManagerId) :
    List (List (List SwapChainRetirement)) → Code ρ Unit
  | [] => pure ()
  | batches :: later => do
    env.drainDeferredRetirementsInLane manager batches
    drainDeferredRetirementsIfAvailable manager later

def reportPanic (manager : ManagerId) (boundary : Boundary) : Code ρ Unit := do
  env.emitObservation manager (.panicContained boundary)
  let process ← read
  env.drainDeferredRetirementsIfAvailable manager (env.deferredRetirements manager process)

def reportAttachError (manager : ManagerId) (kind : ObjectKind) (swapChain : Option Nat)
    (error : DxgiError) : Code ρ Unit :=
  if kind = .swapChain then
    env.emitDiagnostic manager (.attachHookFailure swapChain error.failureCode)
  else pure ()

def attachCreatedSwapChain (manager : ManagerId) (result : Int32) (output : Address)
    (interface : SwapChainInterface) : Code ρ Unit := do
  if result < 0 ∨ output = 0 then
    pure ()
  else
    let process ← read
    let pointer := process.pointerAt output
    if pointer = 0 then
      pure ()
    else
      match ← env.attachSwapChain manager pointer (env.swapChainIid interface) with
      | .ok () => pure ()
      | .error error => env.reportAttachError manager .swapChain none error

def supports (kind : ObjectKind) (iid : Guid) : Bool :=
  match kind with
  | .factory => (env.factoryInterface iid).isSome
  | .swapChain => (env.swapChainInterface iid).isSome

def attach (manager : ManagerId) (kind : ObjectKind) (pointer : Address) (iid : Guid) :
    Code ρ (Except DxgiError Unit) :=
  match kind with
  | .factory => env.attachFactory manager pointer iid
  | .swapChain => env.attachSwapChain manager pointer iid

/-- The part of `query_interface_boundary` after the native call. -/
def attachQueried (manager : ManagerId) (kind : ObjectKind) (iid output : Address)
    (result : Int32) : Code ρ Unit := do
  if result < 0 ∨ iid = 0 ∨ output = 0 then
    pure ()
  else
    let process ← read
    let returned := process.pointerAt output
    if returned = 0 then
      pure ()
    else if env.supports kind (process.guidAt iid) = false then
      pure ()
    else
      match ← env.attach manager kind returned (process.guidAt iid) with
      | .ok () => pure ()
      | .error error => env.reportAttachError manager kind none error

end Environment

/-- A detour that runs: the process, the native calls it made, and the locals that its unwind
boundary fills in. -/
structure Frame (ρ : Type) where
  process : Process ρ
  calls : List NativeCall
  result : Option Int32
  original : Option Address
  manager : Option ManagerId

abbrev Run (ρ α : Type) := Unwinding (Frame ρ) α

def Frame.start (process : Process ρ) : Frame ρ := ⟨process, [], none, none, none⟩

def onProcess {α : Type} (code : Code ρ α) : Run ρ α :=
  zoom Frame.process (fun process frame => { frame with process }) code

def tryEnter : Run ρ (Option ManagerId) := fun frame =>
  match frame.manager with
  | none => (.returned none, frame)
  | some manager =>
    match frame.process.tryEnter manager with
    | none => (.returned none, frame)
    | some process => (.returned (some manager), { frame with process })

def leave (guard : Option ManagerId) : Run ρ Unit :=
  modify fun frame => match guard with
    | none => frame
    | some manager => { frame with process := frame.process.leave manager }

section

variable (env : Environment ρ)

def callNative (method : Address) (arguments : Arguments) : Run ρ Int32 := fun frame =>
  let (result, process) := env.native method arguments frame.process
  (.returned result,
    { frame with process, calls := frame.calls ++ [⟨method, arguments, result⟩] })

/-- What one detour has of its own: the arguments it forwards, how it finds its original and
manager, what Nexus does before and after the call, and what happens when no call was made. -/
structure Forwarding (ρ : Type) where
  arguments : Arguments
  boundary : Boundary
  route : (Address → Option Route) → Option (Address × ManagerId)
  Token : Type
  before : ManagerId → Code ρ (Option Token)
  after : ManagerId → Option Token → Int32 → Code ρ Unit
  fallback : Option Address → Run ρ Int32

namespace Forwarding

variable (f : Forwarding ρ)

def forward (original : Address) (guard : Option ManagerId) : Run ρ Unit := do
  let invocation ← match guard with
    | some manager => onProcess (f.before manager)
    | none => pure none
  let native_result ← callNative env original f.arguments
  modify fun frame => { frame with result := some native_result }
  match guard with
  | some manager => onProcess (f.after manager invocation native_result)
  | none => pure ()

def guarded : Run ρ Unit := do
  let frame ← read
  match f.route frame.process.routes with
  | none => pure ()
  | some (original, weak) =>
    modify fun frame => { frame with original := some original }
    modify fun frame => { frame with manager := frame.process.upgrade weak }
    let guard ← tryEnter
    ensuring (f.forward env original guard) (leave guard)

def reportCaught (caught : Except Payload Unit) : Run ρ Unit := do
  let frame ← read
  match caught, frame.manager with
  | .error _, some manager => onProcess (env.reportPanic manager f.boundary)
  | _, _ => pure ()

def finish : Run ρ Int32 := do
  let frame ← read
  match frame.result with
  | some result => pure result
  | none => f.fallback frame.original

def dropCaught : Except Payload Unit → Run ρ Unit
  | .ok () => pure ()
  | .error payload => dropPayload payload

def releaseManager : Run ρ Unit := do
  let frame ← read
  match frame.manager with
  | none => pure ()
  | some manager => onProcess (env.release manager)

/-- The detour itself, an `extern "system"` function. The caught panic and the manager are
dropped when it returns. -/
def detour : Run ρ Int32 := foreign do
  let caught ← catchUnwind (f.guarded env)
  ensuring (ensuring (do
    f.reportCaught env caught
    f.finish) (dropCaught caught)) (releaseManager env)

end Forwarding

def factoryRoute (routes : Address → Option Route) (pointer : Address) :
    Option (ManagerId × FactoryOriginals) :=
  match routes pointer with
  | some (.factory manager originals) => some (manager, originals)
  | some (.factoryMedia _ _) | some (.swapChain _ _) | none => none

def factoryMediaRoute (routes : Address → Option Route) (pointer : Address) :
    Option (ManagerId × FactoryMediaOriginals) :=
  match routes pointer with
  | some (.factoryMedia manager originals) => some (manager, originals)
  | some (.factory _ _) | some (.swapChain _ _) | none => none

def swapChainRoute (routes : Address → Option Route) (pointer : Address) :
    Option (ManagerId × SwapChainOriginals) :=
  match routes pointer with
  | some (.swapChain manager originals) => some (manager, originals)
  | some (.factory _ _) | some (.factoryMedia _ _) | none => none

def routeFor (routes : Address → Option Route) (pointer : Address) (kind : ObjectKind) :
    Option Route :=
  match routes pointer, kind with
  | some (.factory manager originals), .factory => some (.factory manager originals)
  | some (.factoryMedia manager originals), .factory => some (.factoryMedia manager originals)
  | some (.swapChain manager originals), .swapChain => some (.swapChain manager originals)
  | _, _ => none

def Route.query : Route → Address × ManagerId
  | .factory manager originals => (originals.queryInterface, manager)
  | .factoryMedia manager originals => (originals.queryInterface, manager)
  | .swapChain manager originals => (originals.queryInterface, manager)

/-- Calls the method, but answers `E_FAIL` when it is one of the detours or missing. -/
def callUnlessDetour (detours : List Detour) (method : Option Address) (arguments : Arguments) :
    Run ρ Int32 :=
  match method with
  | none => pure eFail
  | some method =>
    if detours.any fun detour => method = env.detourAddress detour then pure eFail
    else callNative env method arguments

/-- The original that was resolved is called as it is; the method that the slot holds now is
called unless it is the detour. -/
def resumeOriginal (detour : Detour) (this : Address) (arguments : Arguments)
    (original : Option Address) : Run ρ Int32 :=
  match original with
  | some method => callNative env method arguments
  | none => do
    let frame ← read
    callUnlessDetour env [detour] (env.currentMethod detour this frame.process) arguments

def resumeMethod (detour : Detour) (this : Address) (arguments : Arguments)
    (original : Option Address) : Run ρ Int32 := do
  let frame ← read
  match original.or (env.currentMethod detour this frame.process) with
  | some method => callNative env method arguments
  | none => pure eFail

def resumeChecked (detour : Detour) (this : Address) (arguments : Arguments)
    (original : Option Address) : Run ρ Int32 := do
  let frame ← read
  callUnlessDetour env [detour] (original.or (env.currentMethod detour this frame.process))
    arguments

def fallbackQueryInterface (this : Address) (arguments : Arguments) (original : Option Address) :
    Run ρ Int32 :=
  match original with
  | some query => callNative env query arguments
  | none => do
    let frame ← read
    callUnlessDetour env [.factoryQueryInterface, .swapChainQueryInterface]
      (env.originalIunknownQuery this frame.process) arguments

def queryInterfaceBoundary (this iid output : Address) (kind : ObjectKind) : Forwarding ρ where
  arguments := .queryInterface this iid output
  boundary := match kind with
    | .factory => .factoryQueryInterface
    | .swapChain => .swapChainQueryInterface
  route := fun routes => (routeFor routes this kind).map Route.query
  Token := Unit
  before := fun _ => pure none
  after := fun manager _ result => env.attachQueried manager kind iid output result
  fallback := fallbackQueryInterface env this (.queryInterface this iid output)

/-- The shape of the factory's detours: nothing runs before the creation, and the swap chain
that it returns is attached. -/
def creationDetour (arguments : Arguments)
    (route : (Address → Option Route) → Option (Address × ManagerId)) (swapChain : Address)
    (interface : SwapChainInterface) (fallback : Option Address → Run ρ Int32) :
    Forwarding ρ where
  arguments := arguments
  boundary := .factoryCreateSwapChain
  route := route
  Token := Unit
  before := fun _ => pure none
  after := fun manager _ result => env.attachCreatedSwapChain manager result swapChain interface
  fallback := fallback

def factoryCreateSwapChainDetour (this device description swapChain : Address) : Forwarding ρ :=
  let arguments := .createSwapChain this device description swapChain
  creationDetour env arguments
    (fun routes => (factoryRoute routes this).map fun (manager, originals) =>
      (originals.createSwapChain, manager))
    swapChain .base (resumeMethod env .factoryCreateSwapChain this arguments)

def factoryCreateSwapChainForHwndDetour (this device window description fullscreenDescription
    restrictToOutput swapChain : Address) : Forwarding ρ :=
  let arguments := .createSwapChainForHwnd this device window description fullscreenDescription
    restrictToOutput swapChain
  creationDetour env arguments
    (fun routes => (factoryRoute routes this).bind fun (manager, originals) =>
      originals.createForHwnd.map fun call => (call, manager))
    swapChain .v1 (resumeMethod env .factoryCreateSwapChainForHwnd this arguments)

def factoryCreateSwapChainForCoreWindowDetour (this device window description restrictToOutput
    swapChain : Address) : Forwarding ρ :=
  let arguments := .createSwapChainForCoreWindow this device window description restrictToOutput
    swapChain
  creationDetour env arguments
    (fun routes => (factoryRoute routes this).bind fun (manager, originals) =>
      originals.createForCoreWindow.map fun call => (call, manager))
    swapChain .v1 (resumeMethod env .factoryCreateSwapChainForCoreWindow this arguments)

def factoryCreateSwapChainForCompositionDetour (this device description restrictToOutput
    swapChain : Address) : Forwarding ρ :=
  let arguments := .createSwapChainForComposition this device description restrictToOutput
    swapChain
  creationDetour env arguments
    (fun routes => (factoryRoute routes this).bind fun (manager, originals) =>
      originals.createForComposition.map fun call => (call, manager))
    swapChain .v1 (resumeMethod env .factoryCreateSwapChainForComposition this arguments)

def factoryCreateSwapChainForCompositionSurfaceHandleDetour (this device surface description
    restrictToOutput swapChain : Address) : Forwarding ρ :=
  let arguments := .createSwapChainForCompositionSurfaceHandle this device surface description
    restrictToOutput swapChain
  creationDetour env arguments
    (fun routes => (factoryMediaRoute routes this).map fun (manager, originals) =>
      (originals.createForCompositionSurfaceHandle, manager))
    swapChain .v1
    (resumeChecked env .factoryCreateSwapChainForCompositionSurfaceHandle this arguments)

def presentDetour (this : Address) (syncInterval flags : UInt32) : Forwarding ρ where
  arguments := .present this syncInterval flags
  boundary := .present
  route := fun routes => (swapChainRoute routes this).map fun (manager, originals) =>
    (originals.present, manager)
  Token := PresentInvocation
  before := fun manager => env.beforePresent manager this .present
  after := fun manager invocation result =>
    env.afterPresent manager this .present invocation result
  fallback := resumeOriginal env .present this (.present this syncInterval flags)

def present1Detour (this : Address) (syncInterval flags : UInt32) (parameters : Address) :
    Forwarding ρ where
  arguments := .present1 this syncInterval flags parameters
  boundary := .present
  route := fun routes => (swapChainRoute routes this).bind fun (manager, originals) =>
    originals.present1.map fun call => (call, manager)
  Token := PresentInvocation
  before := fun manager => env.beforePresent manager this .present1
  after := fun manager invocation result =>
    env.afterPresent manager this .present1 invocation result
  fallback := resumeMethod env .present1 this (.present1 this syncInterval flags parameters)

def resizeBuffersDetour (this : Address) (bufferCount width height : UInt32) (format : Int32)
    (flags : UInt32) : Forwarding ρ where
  arguments := .resizeBuffers this bufferCount width height format flags
  boundary := .resizeBuffers
  route := fun routes => (swapChainRoute routes this).map fun (manager, originals) =>
    (originals.resizeBuffers, manager)
  Token := ResizeInvocation
  before := fun manager => env.beforeResize manager this width height format
  after := fun manager invocation result => env.afterResize manager this invocation result
  fallback := resumeOriginal env .resizeBuffers this
    (.resizeBuffers this bufferCount width height format flags)

def setColorSpace1Detour (this : Address) (colorSpace : Int32) : Forwarding ρ where
  arguments := .setColorSpace1 this colorSpace
  boundary := .setColorSpace1
  route := fun routes => (swapChainRoute routes this).bind fun (manager, originals) =>
    originals.setColorSpace1.map fun call => (call, manager)
  Token := Unit
  before := fun _ => pure none
  after := fun manager _ result => env.afterSetColorSpace manager this colorSpace result
  fallback := resumeOriginal env .setColorSpace1 this (.setColorSpace1 this colorSpace)

def resizeBuffers1Detour (this : Address) (bufferCount width height : UInt32) (format : Int32)
    (flags : UInt32) (creationNodeMask presentQueue : Address) : Forwarding ρ where
  arguments := .resizeBuffers1 this bufferCount width height format flags creationNodeMask
    presentQueue
  boundary := .resizeBuffers
  route := fun routes => (swapChainRoute routes this).bind fun (manager, originals) =>
    originals.resizeBuffers1.map fun call => (call, manager)
  Token := ResizeInvocation
  before := fun manager => env.beforeResize manager this width height format
  after := fun manager invocation result => env.afterResize manager this invocation result
  fallback := resumeOriginal env .resizeBuffers1 this
    (.resizeBuffers1 this bufferCount width height format flags creationNodeMask presentQueue)

inductive DetourCall where
  | queryInterface (kind : ObjectKind) (this iid output : Address)
  | createSwapChain (this device description swapChain : Address)
  | createSwapChainForHwnd (this device window description fullscreenDescription
      restrictToOutput swapChain : Address)
  | createSwapChainForCoreWindow (this device window description restrictToOutput
      swapChain : Address)
  | createSwapChainForComposition (this device description restrictToOutput swapChain : Address)
  | createSwapChainForCompositionSurfaceHandle (this device surface description restrictToOutput
      swapChain : Address)
  | present (this : Address) (syncInterval flags : UInt32)
  | present1 (this : Address) (syncInterval flags : UInt32) (parameters : Address)
  | resizeBuffers (this : Address) (bufferCount width height : UInt32) (format : Int32)
      (flags : UInt32)
  | setColorSpace1 (this : Address) (colorSpace : Int32)
  | resizeBuffers1 (this : Address) (bufferCount width height : UInt32) (format : Int32)
      (flags : UInt32) (creationNodeMask presentQueue : Address)

def DetourCall.forwarding : DetourCall → Forwarding ρ
  | .queryInterface kind this iid output => queryInterfaceBoundary env this iid output kind
  | .createSwapChain this device description swapChain =>
    factoryCreateSwapChainDetour env this device description swapChain
  | .createSwapChainForHwnd this device window description fullscreenDescription restrictToOutput
      swapChain =>
    factoryCreateSwapChainForHwndDetour env this device window description fullscreenDescription
      restrictToOutput swapChain
  | .createSwapChainForCoreWindow this device window description restrictToOutput swapChain =>
    factoryCreateSwapChainForCoreWindowDetour env this device window description restrictToOutput
      swapChain
  | .createSwapChainForComposition this device description restrictToOutput swapChain =>
    factoryCreateSwapChainForCompositionDetour env this device description restrictToOutput
      swapChain
  | .createSwapChainForCompositionSurfaceHandle this device surface description restrictToOutput
      swapChain =>
    factoryCreateSwapChainForCompositionSurfaceHandleDetour env this device surface description
      restrictToOutput swapChain
  | .present this syncInterval flags => presentDetour env this syncInterval flags
  | .present1 this syncInterval flags parameters =>
    present1Detour env this syncInterval flags parameters
  | .resizeBuffers this bufferCount width height format flags =>
    resizeBuffersDetour env this bufferCount width height format flags
  | .setColorSpace1 this colorSpace => setColorSpace1Detour env this colorSpace
  | .resizeBuffers1 this bufferCount width height format flags creationNodeMask presentQueue =>
    resizeBuffers1Detour env this bufferCount width height format flags creationNodeMask
      presentQueue

end

end Nexus.Dxgi
