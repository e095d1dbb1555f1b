import Nexus.AddressOwnership

namespace Nexus

inductive MetadataField where
  | name
  | author
  | description
  | updateLink
  deriving DecidableEq

structure MetadataLimits where
  name : Nat
  author : Nat
  description : Nat
  updateLink : Nat
  deriving DecidableEq

def MetadataLimits.default : MetadataLimits := ⟨255, 255, 4096, 2048⟩

def MetadataLimits.forField (limits : MetadataLimits) : MetadataField → Nat
  | .name => limits.name
  | .author => limits.author
  | .description => limits.description
  | .updateLink => limits.updateLink

structure ModuleReadError where
  message : String
  deriving DecidableEq

structure ModuleAccessError where
  message : String
  deriving DecidableEq

abbrev ModuleMemory := Nat → Nat → Call (Except ModuleReadError (List UInt8))

abbrev AddonDefinitionFlags := BitVec 32

namespace AddonDefinitionFlags

def none : AddonDefinitionFlags := 0#32

def disableHotLoading : AddonDefinitionFlags := 2#32

def launchOnly : AddonDefinitionFlags := 4#32

def contains (flags flag : AddonDefinitionFlags) : Bool := flags &&& flag == flag

end AddonDefinitionFlags

structure Version where
  major : Nat
  minor : Nat
  build : Nat
  revision : Nat
  deriving DecidableEq

/-- The raw definition an addon exports. Pointers and callbacks are addresses; a null pointer
is zero, an absent callback is `none`. -/
structure AddonDefinitionV1 where
  signature : Nat
  apiVersion : Nat
  name : Nat
  version : Version
  author : Nat
  description : Nat
  load : Option Nat
  unload : Option Nat
  flags : AddonDefinitionFlags
  provider : Nat
  updateLink : Nat
  deriving DecidableEq

inductive ApiRevision where
  | v1 | v2 | v3 | v4 | v5 | v6
  deriving DecidableEq

inductive ApiTableError where
  | unsupportedRevision (requested : Nat)
  deriving DecidableEq

def ApiRevision.tryFrom : Nat → Except ApiTableError ApiRevision
  | 1 => .ok .v1
  | 2 => .ok .v2
  | 3 => .ok .v3
  | 4 => .ok .v4
  | 5 => .ok .v5
  | 6 => .ok .v6
  | requested => .error (.unsupportedRevision requested)

structure OwnedAddonDefinition where
  signature : Nat
  apiRevision : ApiRevision
  name : String
  version : Version
  author : String
  description : String
  flags : AddonDefinitionFlags
  provider : Nat
  updateLink : Option String
  hasUnloadCallback : Bool
  deriving DecidableEq

inductive DefinitionError where
  | moduleAccess (source : ModuleAccessError)
  | zeroSignature
  | missingLoadCallback
  | missingUnloadCallback
  | apiRevision (source : ApiTableError)
  | nullMetadata (field : MetadataField)
  | memoryRead (field : MetadataField) (source : ModuleReadError)
  | readerExceededBound (field : MetadataField) (requested returned : Nat)
  | unterminatedMetadata (field : MetadataField) (maximum : Nat)
  | invalidUtf8 (field : MetadataField)
  deriving DecidableEq

structure DefinitionLease where
  definition : AddonDefinitionV1
  memory : ModuleMemory

abbrev Validation := ExceptT DefinitionError Call

def copyAt (memory : ModuleMemory) (address : Nat) (field : MetadataField)
    (limits : MetadataLimits) : Validation String := do
  let maximum := limits.forField field
  let requested := maximum + 1
  match ← (memory address requested : Call _) with
  | .error source => throw (.memoryRead field source)
  | .ok bytes =>
    if requested < bytes.length then
      throw (.readerExceededBound field requested bytes.length)
    else match bytes.findIdx? (· = 0) with
      | none => throw (.unterminatedMetadata field maximum)
      | some nul =>
        if maximum < nul then throw (.unterminatedMetadata field maximum)
        else match String.fromUTF8? ⟨(bytes.take nul).toArray⟩ with
          | none => throw (.invalidUtf8 field)
          | some text => pure text

def copyRequired (memory : ModuleMemory) (pointer : Nat) (field : MetadataField)
    (limits : MetadataLimits) : Validation String :=
  if pointer = 0 then throw (.nullMetadata field) else copyAt memory pointer field limits

def copyOptional (memory : ModuleMemory) (pointer : Nat) (field : MetadataField)
    (limits : MetadataLimits) : Validation (Option String) :=
  if pointer = 0 then pure none
  else do
    let value ← copyAt memory pointer field limits
    pure (if value.isEmpty then none else some value)

def validateAndCopyDefinition (access : Except ModuleAccessError DefinitionLease)
    (limits : MetadataLimits) : Validation OwnedAddonDefinition :=
  match access with
  | .error source => throw (.moduleAccess source)
  | .ok lease =>
    let definition := lease.definition
    if definition.signature = 0 then throw .zeroSignature
    else match ApiRevision.tryFrom definition.apiVersion with
      | .error source => throw (.apiRevision source)
      | .ok apiRevision =>
        if definition.load.isNone then throw .missingLoadCallback
        else if definition.unload.isNone ∧ ¬definition.flags.contains .disableHotLoading then
          throw .missingUnloadCallback
        else do
          let name ← copyRequired lease.memory definition.name .name limits
          let author ← copyRequired lease.memory definition.author .author limits
          let description ← copyRequired lease.memory definition.description .description limits
          let updateLink ← copyOptional lease.memory definition.updateLink .updateLink limits
          pure {
            signature := definition.signature
            apiRevision := apiRevision
            name := name
            version := definition.version
            author := author
            description := description
            flags := definition.flags
            provider := definition.provider
            updateLink := updateLink
            hasUnloadCallback := definition.unload.isSome }

theorem validation_bind_ok {α β : Type} {x : Validation α} {f : α → Validation β} {b : β}
    (h : (x >>= f).run = .returned (.ok b)) :
    ∃ a, x.run = .returned (.ok a) ∧ (f a).run = .returned (.ok b) := by
  obtain ⟨r, hr⟩ : ∃ r, x.run = r := ⟨_, rfl⟩
  change (x.run >>= ExceptT.bindCont f : Call _) = _ at h
  rw [hr] at h
  match r, hr, h with
  | .returned (.ok a), hr, h => exact ⟨a, hr, h⟩
  | .returned (.error e), _, h => cases h
  | .unwound, _, h => cases h

theorem validateAndCopyDefinition_ok {access : Except ModuleAccessError DefinitionLease}
    {limits : MetadataLimits} {owned : OwnedAddonDefinition}
    (h : (validateAndCopyDefinition access limits).run = .returned (.ok owned)) :
    ∃ lease, access = .ok lease ∧ owned.signature = lease.definition.signature ∧
      owned.signature ≠ 0 ∧ owned.flags = lease.definition.flags ∧
      owned.hasUnloadCallback = lease.definition.unload.isSome ∧
      lease.definition.load.isSome = true := by
  cases access with
  | error => cases h
  | ok lease =>
    refine ⟨lease, rfl, ?_⟩
    simp only [validateAndCopyDefinition] at h
    split at h
    next => cases h
    next hs =>
    split at h
    next => cases h
    next =>
    split at h
    next => cases h
    next hl =>
    split at h
    next => cases h
    next =>
    obtain ⟨_, _, h⟩ := validation_bind_ok h
    obtain ⟨_, _, h⟩ := validation_bind_ok h
    obtain ⟨_, _, h⟩ := validation_bind_ok h
    obtain ⟨_, _, h⟩ := validation_bind_ok h
    cases h
    exact ⟨rfl, hs, rfl, rfl, Option.isSome_iff_ne_none.mpr (by simpa using hl)⟩

inductive LifecycleState where
  | discovered
  | loaded
  | unloadRequested
  | draining
  | unloaded
  | failed
  deriving DecidableEq

inductive LoadMode where
  | initial
  | hotReload
  deriving DecidableEq

inductive UnloadReason where
  | runtime
  | shutdown
  deriving DecidableEq

inductive HostError where
  | definition (source : DefinitionError)
  | apiTable (source : ApiTableError)
  | duplicateSignature (signature : Nat) (existing : OwnerToken)
  | generationExhausted (signature : Nat)
  | unknownOwner (owner : OwnerToken)
  | invalidTransition (owner : OwnerToken) (expected : String) (actual : LifecycleState)
  | hotReloadForbidden (signature : Nat)
  | runtimeUnloadForbidden (owner : OwnerToken)
  | drainTimedOut (owner : OwnerToken)
  | cleanup (owner : OwnerToken) (phase : CleanupPhase) (source : CleanupError)
  | drainIncomplete (owner : OwnerToken)
  deriving DecidableEq

structure AddonRecord where
  owner : OwnerToken
  definition : OwnedAddonDefinition
  loadMode : LoadMode
  state : LifecycleState
  cleanupCursor : Nat

/-- The maps of the host. The pinned API tables enter only through whether they were filled. -/
structure AddonHost where
  apiTablesPopulated : Bool
  records : OwnerToken → Option AddonRecord
  activeBySignature : Nat → Option OwnerToken
  lastGeneration : Nat → Option Nat

def AddonHost.new (apiTablesPopulated : Bool) : AddonHost :=
  ⟨apiTablesPopulated, fun _ => none, fun _ => none, fun _ => none⟩

structure HostWorld extends Shared where
  host : AddonHost

abbrev HostM := Fallible HostWorld (Fault HostError)

namespace HostWorld

def setRecord (w : HostWorld) (owner : OwnerToken) (record : Option AddonRecord) : HostWorld :=
  { w with host := { w.host with records := Function.update w.host.records owner record } }

def dropActive (w : HostWorld) (owner : OwnerToken) : HostWorld :=
  if w.host.activeBySignature owner.signature = some owner then
    { w with host := { w.host with
      activeBySignature := Function.update w.host.activeBySignature owner.signature none } }
  else w

def withShared (w : HostWorld) (f : Shared → Shared) : HostWorld :=
  { w with toShared := f w.toShared }

def admitted (w : HostWorld) (owner : OwnerToken) (definition : OwnedAddonDefinition)
    (mode : LoadMode) : HostWorld where
  host := { w.host with
    lastGeneration := Function.update w.host.lastGeneration owner.signature owner.generation
    activeBySignature := Function.update w.host.activeBySignature owner.signature owner
    records := Function.update w.host.records owner (some ⟨owner, definition, mode, .discovered, 0⟩) }
  toShared := w.toShared.openGate (.host owner)

end HostWorld

namespace AddonHost

open Fallible

def failWith {α : Type} (e : HostError) : HostM α := fail (.error e)

def shared (f : Shared → Shared) : HostM Unit :=
  modify (·.withShared f)

def recordMut (owner : OwnerToken) : HostM AddonRecord := do
  let w ← read
  require (w.host.records owner) (.error (.unknownOwner owner))

def putRecord (owner : OwnerToken) (record : AddonRecord) : HostM Unit :=
  modify (·.setRecord owner (some record))

def ensureState (record : AddonRecord) (expected : List LifecycleState) (label : String) :
    HostM Unit :=
  ensure (record.state ∈ expected) (.error (.invalidTransition record.owner label record.state))

def discover (access : Except ModuleAccessError DefinitionLease) (mode : LoadMode)
    (limits : MetadataLimits) : HostM OwnerToken := do
  match (validateAndCopyDefinition access limits).run with
  | .unwound => fail .unwound
  | .returned (.error source) => failWith (.definition source)
  | .returned (.ok definition) =>
    let signature := definition.signature
    let w ← read
    match w.host.activeBySignature signature with
    | some existing => failWith (.duplicateSignature signature existing)
    | none =>
      ensure (¬(mode = .hotReload ∧ (definition.flags.contains .disableHotLoading ∨
        definition.flags.contains .launchOnly))) (.error (.hotReloadForbidden signature))
      match checkedAdd ((w.host.lastGeneration signature).getD 0) 1 with
      | none => failWith (.generationExhausted signature)
      | some generation =>
        let owner : OwnerToken := ⟨signature, generation⟩
        modify (·.admitted owner definition mode)
        pure owner

def acknowledgeLoaded (owner : OwnerToken) : HostM Unit := do
  let record ← recordMut owner
  ensureState record [.discovered] "Discovered"
  putRecord owner { record with state := .loaded }

def requestUnload (owner : OwnerToken) (reason : UnloadReason) : HostM Unit := do
  let record ← recordMut owner
  ensureState record [.loaded] "Loaded"
  ensure (¬(reason = .runtime ∧ record.definition.flags.contains .disableHotLoading))
    (.error (.runtimeUnloadForbidden owner))
  shared (·.closeGate (.host owner))
  putRecord owner { record with state := .unloadRequested }

/-- The phase at the cursor; the cursor moves only after the cleaner succeeds. -/
def cleanupNextPhase (cleaner : Cleaner) (owner : OwnerToken) : HostM Unit := do
  let record ← recordMut owner
  let phase ← require CleanupPhase.order[record.cleanupCursor]? .unwound
  shared (·.record (.cleaned owner phase (cleaner phase)))
  match cleaner phase with
  | .unwound => fail .unwound
  | .returned (.error source) => failWith (.cleanup owner phase source)
  | .returned (.ok ()) => putRecord owner { record with cleanupCursor := record.cleanupCursor + 1 }

/-- The loop `while cleanup_cursor < limit`: each turn that does not return moves the cursor by
one, so the loop turns once for every phase between the cursor and the limit. -/
def cleanupPhases (cleaner : Cleaner) (owner : OwnerToken) : Nat → HostM Unit
  | 0 => pure ()
  | turns + 1 => do
    cleanupNextPhase cleaner owner
    cleanupPhases cleaner owner turns

def cleanupUntil (cleaner : Cleaner) (owner : OwnerToken) (limit : Nat) : HostM Unit := do
  let record ← recordMut owner
  cleanupPhases cleaner owner (limit - record.cleanupCursor)

def waitForDrain (owner : OwnerToken) (leaving : Nat) : HostM Bool := do
  let w ← read
  shared fun s => (s.waitForDrain (.host owner) leaving).2
  pure (w.toShared.waitForDrain (.host owner) leaving).1

def drainRegistrations (cleaner : Cleaner) (leaving : Nat) (owner : OwnerToken) : HostM Unit := do
  let record ← recordMut owner
  ensureState record [.unloadRequested, .draining] "UnloadRequested or Draining"
  putRecord owner { record with state := .draining }
  cleanupUntil cleaner owner CleanupPhase.preDrainCount
  let drained ← waitForDrain owner leaving
  ensure (drained = true) (.error (.drainTimedOut owner))
  cleanupUntil cleaner owner CleanupPhase.order.length

def acknowledgeModuleReleased (owner : OwnerToken) : HostM Unit := do
  let record ← recordMut owner
  ensureState record [.draining] "Draining"
  let w ← read
  ensure (¬(record.cleanupCursor ≠ CleanupPhase.order.length ∨
    (w.gates (.host owner)).inFlight ≠ 0)) (.error (.drainIncomplete owner))
  putRecord owner { record with state := .unloaded }
  modify (·.dropActive owner)

def acknowledgeActivationFailed (owner : OwnerToken) : HostM Unit := do
  let record ← recordMut owner
  ensureState record [.discovered] "Discovered"
  shared (·.closeGate (.host owner))
  putRecord owner { record with state := .failed }
  modify (·.dropActive owner)

def cancelDiscovery (owner : OwnerToken) : HostM Unit := do
  let record ← recordMut owner
  ensureState record [.discovered] "Discovered"
  shared (·.closeGate (.host owner))
  modify (·.dropActive owner)
  modify (·.setRecord owner none)

def apiTable (host : AddonHost) (owner : OwnerToken) : Except HostError ApiRevision :=
  match host.records owner with
  | some record => .ok record.definition.apiRevision
  | none => .error (.unknownOwner owner)

def callbackGate (host : AddonHost) (owner : OwnerToken) : Except HostError GateRef :=
  match host.records owner with
  | some record => .ok (.host record.owner)
  | none => .error (.unknownOwner owner)

def activeOwner (host : AddonHost) (signature : Nat) : Option OwnerToken :=
  host.activeBySignature signature

end AddonHost

end Nexus
