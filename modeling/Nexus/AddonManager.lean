import Nexus.AddonConfig
import Nexus.Discovery
import Nexus.AddonModule

namespace Nexus

inductive DiagnosticSeverity where
  | info
  | warning
  | error
  deriving DecidableEq

inductive DiagnosticCode where
  | candidateDiscovered
  | candidateChanged
  | candidateRemoved
  | candidateRenamed
  | definitionInspected
  | policyBlocked
  | activated
  | unloadRequested
  | drainComplete
  | nativeUnloadComplete
  | moduleReleased
  | activationFailed
  | cleanupRetryRequired
  | releaseRetryRequired
  | releasePinned
  | hotReloadComplete
  | boundaryPanicContained
  deriving DecidableEq

structure Diagnostic where
  sequence : Nat
  severity : DiagnosticSeverity
  code : DiagnosticCode
  owner : Option OwnerToken
  deriving DecidableEq

/-- Bounded buffer, oldest first. -/
structure DiagnosticBuffer where
  capacity : Nat
  nextSequence : Nat
  entries : List Diagnostic
  deriving DecidableEq

namespace DiagnosticBuffer

def new (capacity : Nat) : DiagnosticBuffer := ⟨capacity, 1, []⟩

def push (buffer : DiagnosticBuffer) (severity : DiagnosticSeverity) (code : DiagnosticCode)
    (owner : Option OwnerToken) : DiagnosticBuffer :=
  if buffer.capacity = 0 then buffer
  else
    let kept := if buffer.entries.length = buffer.capacity then buffer.entries.drop 1
      else buffer.entries
    { buffer with
      entries := kept ++ [⟨buffer.nextSequence, severity, code, owner⟩]
      nextSequence := min (buffer.nextSequence + 1) (wordLimit - 1) }

end DiagnosticBuffer

inductive ActivationRequest where
  | startup
  | runtime
  | hotReload
  deriving DecidableEq

inductive ManagerState where
  | discovered
  | policyBlocked
  | inspected
  | active
  | unloadRequested
  | draining
  | drained
  | nativeUnloadComplete
  | activationFailed
  | releaseFailed
  | unloaded
  | removed
  deriving DecidableEq

inductive PolicyReason where
  | disabledByUser
  | notAllowlisted
  | versionDisabled
  | startupClosed
  | launchOnly
  | hotLoadingLocked
  deriving DecidableEq

inductive InspectOutcome where
  | ready (owner : OwnerToken)
  | blocked (signature : Nat) (reason : PolicyReason)
  deriving DecidableEq

inductive EnableEffect where
  | noRuntimeChange
  | activationAvailable
  | unloadAvailable (owner : OwnerToken)
  | restartRequired (owner : Option OwnerToken)
  deriving DecidableEq

inductive ManagerBoundary where
  | directoryScanner
  | addressResolver
  | hostCoordinator
  | registrationCleaner
  deriving DecidableEq

inductive AddressResolutionError where
  | unavailable
  | empty
  | overflow
  | sizeMismatch
  | overlap
  deriving DecidableEq

structure ModuleAddressRange where
  start : Nat
  stop : Nat
  start_pos : 0 < start
  start_lt : start < stop
  stop_lt : stop < wordLimit
  deriving DecidableEq

def ModuleAddressRange.len (range : ModuleAddressRange) : Nat := range.stop - range.start

def ModuleAddressRange.overlaps (range other : ModuleAddressRange) : Bool :=
  range.start < other.stop ∧ other.start < range.stop

structure DefinitionSummary where
  signature : Nat
  name : String
  version : Version
  author : String
  description : String
  flags : AddonDefinitionFlags
  provider : Nat
  updateLink : Option String
  deriving DecidableEq

def summaryFromModule (module : AddonModule) : DefinitionSummary :=
  let definition := module.ownedDefinition
  { signature := definition.signature
    name := definition.name
    version := definition.version
    author := definition.author
    description := definition.description
    flags := definition.flags
    provider := definition.provider
    updateLink := definition.updateLink }

inductive DirectoryRecommendation where
  | none
  | hotReload (owner : OwnerToken)
  | unload (owner : OwnerToken)
  | restartRequired (owner : OwnerToken)
  deriving DecidableEq

def DirectoryRecommendation.owner : DirectoryRecommendation → Option OwnerToken
  | .none => Option.none
  | .hotReload owner | .unload owner | .restartRequired owner => some owner

inductive DirectoryChangeKind where
  | added
  | modified
  | removed
  | renamed
  | unchanged
  deriving DecidableEq

structure DirectoryImpact (Path : Type) where
  path : Path
  kind : DirectoryChangeKind
  recommendation : DirectoryRecommendation

structure ManagerOptions where
  metadataLimits : MetadataLimits
  diagnosticCapacity : Nat
  gameBuild : Nat
  deriving DecidableEq

inductive HostIssue where
  | definition
  | apiTable
  | duplicateSignature
  | generationExhausted
  | unknownOwner
  | invalidTransition
  | hotReloadForbidden
  | runtimeUnloadForbidden
  | drainTimedOut
  | cleanup
  | drainIncomplete
  deriving DecidableEq

def HostIssue.ofError : HostError → HostIssue
  | .definition _ => .definition
  | .apiTable _ => .apiTable
  | .duplicateSignature .. => .duplicateSignature
  | .generationExhausted _ => .generationExhausted
  | .unknownOwner _ => .unknownOwner
  | .invalidTransition .. => .invalidTransition
  | .hotReloadForbidden _ => .hotReloadForbidden
  | .runtimeUnloadForbidden _ => .runtimeUnloadForbidden
  | .drainTimedOut _ => .drainTimedOut
  | .cleanup .. => .cleanup
  | .drainIncomplete _ => .drainIncomplete

inductive ManagerError where
  | discovery (source : DiscoveryError)
  | config (source : ConfigError)
  | load (source : LoadError)
  | module (source : ModuleError)
  | host (issue : HostIssue)
  | address (source : AddressResolutionError)
  | ownershipIndex (source : AddressOwnershipError)
  | unknownPath
  | unknownOwner
  | invalidState (expected : String) (actual : ManagerState)
  | candidateMissing
  | policy (reason : PolicyReason)
  | configReadOnly
  | boundaryPanic (boundary : ManagerBoundary)
  | releaseFailed (retryable : Bool)
  | releaseNotRetryable
  deriving DecidableEq

structure Entry (Path : Type) where
  discovered : DiscoveredDll Path
  present : Bool
  state : ManagerState
  module : Option AddonModule
  range : Option ModuleAddressRange
  owner : Option OwnerToken
  lastOwner : Option OwnerToken
  summary : Option DefinitionSummary
  loadedRevision : Option BinaryRevision
  blockedBy : Option PolicyReason
  failedCleanupCursor : Nat
  releaseNeedsHostAck : Bool
  releaseReturnState : Option ManagerState

def Entry.ofDiscovered {Path : Type} (discovered : DiscoveredDll Path) : Entry Path where
  discovered := discovered
  present := true
  state := .discovered
  module := none
  range := none
  owner := none
  lastOwner := none
  summary := none
  loadedRevision := none
  blockedBy := none
  failedCleanupCursor := 0
  releaseNeedsHostAck := false
  releaseReturnState := none

structure ManagerCore (Path : Type) extends HostWorld where
  ownership : AddressOwnershipIndex
  entries : SortedMap String (Entry Path)
  ownerPaths : OwnerToken → Option String
  launchAttempted : List Nat
  startupOpen : Bool

structure AddonManager (Path : Type) extends ManagerCore Path where
  directory : AddonDirectory Path
  configs : AddonConfigDocument
  configAccess : ConfigAccess
  options : ManagerOptions
  diagnostics : DiagnosticBuffer

variable {Path : Type}

namespace ManagerCore

def putEntry (w : ManagerCore Path) (key : String) (entry : Entry Path) : ManagerCore Path :=
  { w with entries := w.entries.put key entry }

def withHost (w : ManagerCore Path) (host : HostWorld) : ManagerCore Path :=
  { w with toHostWorld := host }

def withShared (w : ManagerCore Path) (shared : Shared) : ManagerCore Path :=
  { w with toShared := shared }

def closeOwnership (w : ManagerCore Path) (owner : OwnerToken) : ManagerCore Path :=
  let r := w.ownership.close owner w.toShared
  { w.withShared r.2.2 with ownership := r.2.1 }

def retireOwnership (w : ManagerCore Path) (owner : OwnerToken) : ManagerCore Path :=
  { w with ownership := (w.ownership.retire owner).2 }

end ManagerCore

def AddonManager.withCore (w : AddonManager Path) (core : ManagerCore Path) : AddonManager Path :=
  { w with toManagerCore := core }

def AddonManager.new (apiTablesPopulated : Bool) (directory : AddonDirectory Path)
    (configs : AddonConfigDocument) (configAccess : ConfigAccess) (options : ManagerOptions) :
    AddonManager Path where
  toShared := Shared.start
  host := AddonHost.new apiTablesPopulated
  ownership := AddressOwnershipIndex.new
  entries := .empty
  ownerPaths := fun _ => none
  launchAttempted := []
  startupOpen := true
  directory := directory
  configs := configs
  configAccess := configAccess
  options := options
  diagnostics := DiagnosticBuffer.new options.diagnosticCapacity

abbrev ManagerM (Path : Type) := Fallible (AddonManager Path) ManagerError

end Nexus
