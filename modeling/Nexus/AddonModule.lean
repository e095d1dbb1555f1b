import Nexus.HostLifecycle

namespace Nexus

inductive ModuleBoundsError where
  | empty
  | overflow
  deriving DecidableEq

structure ModuleBounds where
  base : Nat
  size : Nat
  base_pos : 0 < base
  size_pos : 0 < size
  stop_lt : base + size < wordLimit

namespace ModuleBounds

def new (base size : Nat) (hb : 0 < base) : Except ModuleBoundsError ModuleBounds :=
  if hs : size = 0 then .error .empty
  else if hl : base + size < wordLimit then .ok ⟨base, size, hb, Nat.pos_of_ne_zero hs, hl⟩
  else .error .overflow

def stop (bounds : ModuleBounds) : Nat := bounds.base + bounds.size

def containsAddress (bounds : ModuleBounds) (address : Nat) : Bool :=
  bounds.base ≤ address ∧ address < bounds.stop

def containsRange (bounds : ModuleBounds) (address length : Nat) : Bool :=
  if address < bounds.base then false
  else match checkedAdd address length with
    | some stop => stop ≤ bounds.stop
    | none => false

def capRead (bounds : ModuleBounds) (address requested : Nat) : Option Nat :=
  if bounds.containsAddress address then some (min requested (bounds.stop - address)) else none

end ModuleBounds

structure ModuleImage where
  bounds : ModuleBounds
  memory : ModuleMemory

def ModuleImage.readBounded (image : ModuleImage) : ModuleMemory := fun address maximumBytes =>
  if address = 0 then .returned (.error ⟨"module memory address was null"⟩)
  else match image.bounds.capRead address maximumBytes with
    | none => .returned (.error ⟨"module memory address is outside the image"⟩)
    | some maximumBytes => do
      match ← image.memory address maximumBytes with
      | .error e => .returned (.error e)
      | .ok bytes =>
        if maximumBytes < bytes.length then
          .returned (.error ⟨"platform memory reader exceeded its requested bound"⟩)
        else .returned (.ok bytes)

inductive PlatformOperation where
  | loadLibrary
  | inspectImage
  | resolveDefinitionExport
  | inspectCodeAddress
  | freeLibrary
  deriving DecidableEq

inductive PanicBoundary where
  | loadLibrary
  | inspectImage
  | resolveDefinitionExport
  | definitionExport
  | definitionValidation
  | inspectCodeAddress
  | loadCallback
  | unloadCallback
  | hostCleanup
  | freeLibrary
  deriving DecidableEq

inductive DefinitionIssue where
  | moduleAccess
  | zeroSignature
  | missingLoadCallback
  | missingUnloadCallback
  | unsupportedApiRevision
  | nullMetadata
  | metadataMemory
  | readerContract
  | unterminatedMetadata
  | invalidUtf8
  deriving DecidableEq

def DefinitionIssue.ofError : DefinitionError → DefinitionIssue
  | .moduleAccess _ => .moduleAccess
  | .zeroSignature => .zeroSignature
  | .missingLoadCallback => .missingLoadCallback
  | .missingUnloadCallback => .missingUnloadCallback
  | .apiRevision _ => .unsupportedApiRevision
  | .nullMetadata _ => .nullMetadata
  | .memoryRead .. => .metadataMemory
  | .readerExceededBound .. => .readerContract
  | .unterminatedMetadata .. => .unterminatedMetadata
  | .invalidUtf8 _ => .invalidUtf8

inductive LoadError where
  | platform (operation : PlatformOperation) (source : PlatformError)
  | rustPanic (boundary : PanicBoundary)
  | nullDefinition
  | misalignedDefinition
  | definitionOutsideImage
  | definitionUnreadable
  | definitionRejected (issue : DefinitionIssue)
  | definitionExportOutsideImage
  | definitionExportNotExecutable
  | loadCallbackOutsideImage
  | loadCallbackNotExecutable
  | unloadCallbackOutsideImage
  | unloadCallbackNotExecutable
  deriving DecidableEq

inductive CodeAddress where
  | definitionExport
  | loadCallback
  | unloadCallback
  deriving DecidableEq

namespace CodeAddress

def outsideError : CodeAddress → LoadError
  | .definitionExport => .definitionExportOutsideImage
  | .loadCallback => .loadCallbackOutsideImage
  | .unloadCallback => .unloadCallbackOutsideImage

def notExecutableError : CodeAddress → LoadError
  | .definitionExport => .definitionExportNotExecutable
  | .loadCallback => .loadCallbackNotExecutable
  | .unloadCallback => .unloadCallbackNotExecutable

end CodeAddress

/-- What the platform and the native code of one module answer during a load. `definition` is
what the memory at the exported pointer holds, `freeLibrary` the answer to the release of the
provisional reference. -/
structure LoadAnswers where
  loadLibrary : Call (Except PlatformError ModuleHandle)
  moduleImage : Call (Except PlatformError ModuleImage)
  resolveDefinitionExport : Call (Except PlatformError Nat)
  executable : CodeAddress → Call (Except PlatformError Bool)
  definitionExport : Call Nat
  definition : AddonDefinitionV1
  freeLibrary : Call (Except PlatformError Unit)

def catchBoundary {α : Type} (boundary : PanicBoundary) : Call α → Except LoadError α
  | .returned a => .ok a
  | .unwound => .error (.rustPanic boundary)

def platformCall {α : Type} (boundary : PanicBoundary) (operation : PlatformOperation)
    (call : Call (Except PlatformError α)) : Except LoadError α := do
  let result ← catchBoundary boundary call
  result.mapError (.platform operation)

def validateCodeAddress (answers : LoadAnswers) (bounds : ModuleBounds) (rawAddress : Nat)
    (kind : CodeAddress) : Except LoadError Unit :=
  if rawAddress = 0 then .error kind.outsideError
  else if ¬bounds.containsAddress rawAddress then .error kind.outsideError
  else do
    let executable ← platformCall .inspectCodeAddress .inspectCodeAddress
      (answers.executable kind)
    if executable then .ok () else .error kind.notExecutableError

def validateUnloadAddress (answers : LoadAnswers) (bounds : ModuleBounds) :
    Option Nat → Except LoadError Unit
  | none => .ok ()
  | some unloadCallback => validateCodeAddress answers bounds unloadCallback .unloadCallback

def definitionSize : Nat := 72

def definitionAlign : Nat := 8

/-- The reader may unwind; the definition is what the checked memory holds. -/
def copyDefinition (image : ModuleImage) (pointer : Nat) (definition : AddonDefinitionV1) :
    Call (Except LoadError AddonDefinitionV1) :=
  if pointer = 0 then .returned (.error .nullDefinition)
  else if pointer % definitionAlign ≠ 0 then .returned (.error .misalignedDefinition)
  else if ¬image.bounds.containsRange pointer definitionSize then
    .returned (.error .definitionOutsideImage)
  else do
    match ← image.readBounded pointer definitionSize with
    | .error _ => .returned (.error .definitionUnreadable)
    | .ok readable =>
      if readable.length < definitionSize then .returned (.error .definitionUnreadable)
      else .returned (.ok definition)

inductive ModuleState where
  | inspected
  | active
  | activationFailed
  | shutdownRequested
  | callbacksQuiesced
  | unloadCallbackComplete
  | hostCleanupComplete
  | releaseUncertain
  | released
  deriving DecidableEq

inductive ModuleOperation where
  | activate
  | requestShutdown
  | drainCallbacks
  | invokeUnload
  | completeHostCleanup
  | release
  deriving DecidableEq

inductive ModuleError where
  | invalidTransition (operation : ModuleOperation) (state : ModuleState)
  | callbackAdmissionClosed
  | drainTimedOut
  | callbackDrainIncomplete
  | rustPanic (boundary : PanicBoundary)
  | hostCleanupFailed
  | platform (operation : PlatformOperation) (source : PlatformError)
  deriving DecidableEq

/-- One live module. `id` is the serial number of the load that produced it: it names the gate
allocation and the reference in the trace. -/
structure AddonModule where
  id : Nat
  handle : Option ModuleHandle
  bounds : ModuleBounds
  definition : AddonDefinitionV1
  ownedDefinition : OwnedAddonDefinition
  loadCallback : Nat
  unloadCallback : Option Nat
  state : ModuleState
  releaseOnDrop : Bool

structure ReleaseFailure where
  module : AddonModule
  error : ModuleError

structure ModuleWorld extends Shared where
  module : AddonModule

abbrev ModuleM := Fallible ModuleWorld ModuleError

namespace AddonModule

open Fallible

def gate (module : AddonModule) : GateRef := .module module.id

def shared (f : Shared → Shared) : ModuleM Unit :=
  modify fun w => { w with toShared := f w.toShared }

def setState (state : ModuleState) : ModuleM Unit :=
  modify fun w => { w with module := { w.module with state := state } }

def ensureState (operation : ModuleOperation) (required : ModuleState) : ModuleM Unit := do
  let w ← read
  ensure (w.module.state = required) (.invalidTransition operation w.module.state)

def activate (callback : Call Unit) : ModuleM Unit := do
  ensureState .activate .inspected
  let w ← read
  let gate := w.module.gate
  ensure ((w.toShared.enterGate gate).1 = true) .callbackAdmissionClosed
  shared fun s => (s.enterGate gate).2
  shared (·.record (.loadEntered w.module.id w.module.ownedDefinition.signature
    (w.module.ownedDefinition.flags.contains .launchOnly)))
  shared (·.leaveGate gate 1)
  match callback with
  | .returned () => setState .active
  | .unwound =>
    shared (·.closeGate gate)
    setState .activationFailed
    fail (.rustPanic .loadCallback)

def requestShutdown : ModuleM Unit := do
  let w ← read
  match w.module.state with
  | .active | .activationFailed =>
    shared (·.closeGate w.module.gate)
    setState .shutdownRequested
  | state => fail (.invalidTransition .requestShutdown state)

def waitForCallbacks (leaving : Nat) : ModuleM Unit := do
  ensureState .drainCallbacks .shutdownRequested
  let w ← read
  shared fun s => (s.waitForDrain w.module.gate leaving).2
  ensure ((w.toShared.waitForDrain w.module.gate leaving).1 = true) .drainTimedOut
  setState .callbacksQuiesced

def invokeUnload (callback : Call Unit) : ModuleM Unit := do
  ensureState .invokeUnload .callbacksQuiesced
  let w ← read
  match w.module.unloadCallback with
  | none => setState .unloadCallbackComplete
  | some _ =>
    shared (·.record (.unloadEntered w.module.id))
    setState .unloadCallbackComplete
    match callback with
    | .returned () => pure ()
    | .unwound => fail (.rustPanic .unloadCallback)

def completeHostCleanup (cleanup : Call (Except Unit Unit)) : ModuleM Unit := do
  ensureState .completeHostCleanup .unloadCallbackComplete
  match cleanup with
  | .unwound => fail (.rustPanic .hostCleanup)
  | .returned (.error ()) => fail .hostCleanupFailed
  | .returned (.ok ()) => setState .hostCleanupComplete

def Releasable (state : ModuleState) : Prop := state = .inspected ∨ state = .hostCleanupComplete

instance (state : ModuleState) : Decidable (Releasable state) := inferInstanceAs (Decidable (_ ∨ _))

def retain (module : AddonModule) (error : ModuleError) : ReleaseFailure :=
  ⟨{ module with releaseOnDrop := false }, error⟩

def closeUnactivated (module : AddonModule) (s : Shared) : Shared :=
  if module.state = .inspected then s.closeGate module.gate else s

def release (freeLibrary : Call (Except PlatformError Unit)) (module : AddonModule) :
    Fallible Shared ReleaseFailure Unit := do
  ensure (Releasable module.state)
    (module.retain (.invalidTransition .release module.state))
  modify module.closeUnactivated
  let s ← read
  ensure ((s.gates module.gate).inFlight = 0) (module.retain .callbackDrainIncomplete)
  let handle ← require module.handle (module.retain (.invalidTransition .release module.state))
  modify (·.record (.freed module.id handle .release freeLibrary))
  match freeLibrary with
  | .returned (.ok ()) => pure ()
  | .returned (.error source) => fail (module.retain (.platform .freeLibrary source))
  | .unwound =>
    fail (retain { module with handle := none, state := .releaseUncertain }
      (.rustPanic .freeLibrary))

def drop (freeLibrary : Call (Except PlatformError Unit)) (module : AddonModule) (s : Shared) :
    Shared :=
  let s := module.closeUnactivated s
  match module.handle with
  | none => s
  | some handle =>
    if module.releaseOnDrop = true ∧ (s.gates module.gate).inFlight = 0 ∧ Releasable module.state
    then s.record (.freed module.id handle .drop freeLibrary)
    else s

def definitionLease (module : AddonModule) (memory : ModuleMemory) :
    Except ModuleAccessError DefinitionLease :=
  if module.handle = none ∨ module.state = .released then
    .error ⟨"native add-on module is not live"⟩
  else .ok ⟨module.definition, (ModuleImage.mk module.bounds memory).readBounded⟩

end AddonModule

namespace ReleaseFailure

def isRetryable (failure : ReleaseFailure) : Bool :=
  failure.module.handle.isSome ∧ AddonModule.Releasable failure.module.state

def intoParts (failure : ReleaseFailure) : AddonModule × ModuleError :=
  (failure.module, failure.error)

end ReleaseFailure

namespace AddonLoader

open Fallible

/-- The checks of `load_absolute` behind the provisional reference to `handle`. -/
def inspect (answers : LoadAnswers) (limits : MetadataLimits) (id : Nat) (handle : ModuleHandle) :
    Except LoadError AddonModule := do
  let image ← platformCall .inspectImage .inspectImage answers.moduleImage
  let definitionExport ← platformCall .resolveDefinitionExport .resolveDefinitionExport
    answers.resolveDefinitionExport
  validateCodeAddress answers image.bounds definitionExport .definitionExport
  let definitionPointer ← catchBoundary .definitionExport answers.definitionExport
  let copied ← catchBoundary .definitionValidation
    (copyDefinition image definitionPointer answers.definition)
  let definition ← copied
  let validated ← catchBoundary .definitionValidation
    (validateAndCopyDefinition (.ok ⟨definition, image.readBounded⟩) limits).run
  let ownedDefinition ← validated.mapError fun e => .definitionRejected (.ofError e)
  match definition.load with
  | none => .error (.definitionRejected .missingLoadCallback)
  | some loadCallback =>
    validateCodeAddress answers image.bounds loadCallback .loadCallback
    validateUnloadAddress answers image.bounds definition.unload
    .ok {
      id := id
      handle := some handle
      bounds := image.bounds
      definition := definition
      ownedDefinition := ownedDefinition
      loadCallback := loadCallback
      unloadCallback := definition.unload
      state := .inspected
      releaseOnDrop := true }

def loadAbsolute (answers : LoadAnswers) (limits : MetadataLimits) :
    Fallible Shared LoadError AddonModule := do
  let handle ← ofExcept id (platformCall .loadLibrary .loadLibrary answers.loadLibrary)
  let s ← read
  let id := s.nextModule
  modify fun s => { s.record (.loaded id handle) with nextModule := id + 1 }
  match inspect answers limits id handle with
  | .error e =>
    modify (·.record (.freed id handle .provisional answers.freeLibrary))
    fail e
  | .ok module =>
    modify (·.openGate module.gate)
    pure module

end AddonLoader

end Nexus
