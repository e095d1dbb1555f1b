import Nexus.AddonManager

namespace Nexus

namespace AddonManager

open Fallible

variable {Path α : Type}

def core (f : ManagerCore Path → ManagerCore Path) : ManagerM Path Unit :=
  modify fun w => w.withCore (f w.toManagerCore)

def emitted (w : AddonManager Path) (severity : DiagnosticSeverity) (code : DiagnosticCode)
    (owner : Option OwnerToken) : AddonManager Path :=
  { w with diagnostics := w.diagnostics.push severity code owner }

def emit (severity : DiagnosticSeverity) (code : DiagnosticCode) (owner : Option OwnerToken) :
    ManagerM Path Unit :=
  modify (·.emitted severity code owner)

def ownerKey (owner : OwnerToken) : ManagerM Path String := do
  let w ← read
  require (w.ownerPaths owner) .unknownOwner

def entry (key : String) : ManagerM Path (Entry Path) := do
  let w ← read
  require (w.entries.get? key) .unknownPath

def updateEntry (key : String) (f : Entry Path → Entry Path) : ManagerM Path Unit := do
  let e ← entry key
  core (·.putEntry key (f e))

def setState (key : String) (state : ManagerState) : ManagerM Path Unit :=
  updateEntry key fun e => { e with state := state }

def hostCall (x : HostM α) : ManagerM Path (Except (Fault HostError) α) :=
  attempt (zoom (fun w => w.toHostWorld)
    (fun host w => w.withCore (w.toManagerCore.withHost host)) x)

/-- Only calls the manager contains can unwind. -/
def hostError : Fault HostError → ManagerError
  | .error e => .host (.ofError e)
  | .unwound => .boundaryPanic .hostCoordinator

def hostStep (x : HostM α) : ManagerM Path α := do
  let r ← hostCall x
  ofExcept hostError r

def sharedCall {ε : Type} (x : Fallible Shared ε α) : ManagerM Path (Except ε α) :=
  attempt (zoom (fun w => w.toShared)
    (fun shared w => w.withCore (w.toManagerCore.withShared shared)) x)

def moduleCall (key : String) (missing : ManagerError) (x : ModuleM Unit) :
    ManagerM Path (Except ModuleError Unit) := do
  let e ← entry key
  let m ← require e.module missing
  let w ← read
  let r := x ⟨w.toShared, m⟩
  core fun c => (c.withShared r.2.toShared).putEntry key { e with module := some r.2.module }
  pure r.1

def moduleStep (key : String) (missing : ManagerError) (x : ModuleM Unit) :
    ManagerM Path Unit := do
  let r ← moduleCall key missing x
  ofExcept .module r

def takeModule (key : String) (missing : ManagerError) : ManagerM Path AddonModule := do
  let e ← entry key
  let m ← require e.module missing
  core (·.putEntry key { e with module := none })
  pure m

def dropModule (m : AddonModule) (freeLibrary : Call (Except PlatformError Unit)) :
    ManagerM Path Unit :=
  core fun c => c.withShared (m.drop freeLibrary c.toShared)

def emitReleaseFailure (owner : OwnerToken) (retryable : Bool) : ManagerM Path Unit :=
  emit .error (if retryable then .releaseRetryRequired else .releasePinned) (some owner)

def emitRetryFailure (owner : Option OwnerToken) (retryable : Bool) : ManagerM Path Unit :=
  match owner with
  | some owner => emitReleaseFailure owner retryable
  | none => pure ()

def releaseRejectedModule (key : String) (m : AddonModule) (returnState : ManagerState)
    (freeLibrary : Call (Except PlatformError Unit)) : ManagerM Path Unit := do
  match ← sharedCall (m.release freeLibrary) with
  | .ok () => pure ()
  | .error failure =>
    let retryable := failure.isRetryable
    updateEntry key fun e => { e with
      module := some failure.intoParts.1
      state := .releaseFailed
      releaseNeedsHostAck := false
      releaseReturnState := some returnState }
    emit .error (if retryable then .releaseRetryRequired else .releasePinned) none
    fail (.releaseFailed retryable)

def acknowledgeRelease (owner : Option OwnerToken) (acknowledgeHost : Bool) :
    ManagerM Path (Except ManagerError Unit) :=
  if acknowledgeHost then
    match owner with
    | some owner => do
      let r ← hostCall (AddonHost.acknowledgeModuleReleased owner)
      pure (r.mapError hostError)
    | none => pure (.error .unknownOwner)
  else pure (.ok ())

def retireOwner : Option OwnerToken → ManagerM Path Unit
  | some owner => core (·.retireOwnership owner)
  | none => pure ()

def releasedEntry (e : Entry Path) : Entry Path :=
  let nextState := e.releaseReturnState.getD (if e.present then .unloaded else .removed)
  { e with
    module := none
    range := none
    owner := none
    blockedBy := if nextState = .policyBlocked then e.blockedBy else none
    state := nextState
    releaseNeedsHostAck := false
    releaseReturnState := none }

def finishSuccessfulRelease (key : String) (owner : Option OwnerToken) (acknowledgeHost : Bool) :
    ManagerM Path Unit := do
  let hostResult ← acknowledgeRelease owner acknowledgeHost
  updateEntry key releasedEntry
  retireOwner owner
  emit .info .moduleReleased owner
  ofExcept id hostResult

def retainModule (key : String) (owner : OwnerToken) (failure : ReleaseFailure)
    (needsHostAck : Bool) : ManagerM Path Unit := do
  let retryable := failure.isRetryable
  updateEntry key fun e => { e with
    module := some failure.intoParts.1
    state := .releaseFailed
    releaseNeedsHostAck := needsHostAck
    releaseReturnState := some (if e.present then .unloaded else .removed) }
  emitReleaseFailure owner retryable
  fail (.releaseFailed retryable)

def configForOrRegister (signature : Nat) : ManagerM Path AddonConfig := do
  let w ← read
  match w.configAccess with
  | .writable =>
    let configs ← ofExcept .config (w.configs.getOrInsert signature id)
    modify fun w => { w with configs := configs }
    pure ((configs.get signature).getD .registeredDefault)
  | .readOnlyAllowlist _ => pure ((w.configs.get signature).getD .registeredDefault)

def attemptLaunch (signature : Nat) : ManagerM Path Bool := do
  let w ← read
  core fun c => { c with launchAttempted :=
    if signature ∈ c.launchAttempted then c.launchAttempted else signature :: c.launchAttempted }
  pure (signature ∉ w.launchAttempted)

def enabledBy (access : ConfigAccess) (config : AddonConfig) (signature : Nat) : Bool :=
  match access with
  | .writable => config.enabled
  | .readOnlyAllowlist allowed => decide (signature ∈ allowed)

def disabledReason : ConfigAccess → PolicyReason
  | .writable => .disabledByUser
  | .readOnlyAllowlist _ => .notAllowlisted

def activationPolicy (summary : DefinitionSummary) (revision : BinaryRevision)
    (request : ActivationRequest) : ManagerM Path (Option PolicyReason) := do
  let config ← configForOrRegister summary.signature
  let w ← read
  let hotLoading : ManagerM Path (Option PolicyReason) :=
    if request = .hotReload ∧ summary.flags.contains .disableHotLoading then
      pure (some .hotLoadingLocked)
    else pure none
  if ¬enabledBy w.configAccess config summary.signature then
    pure (some (disabledReason w.configAccess))
  else if config.disableVersion.isEmpty = false ∧ revision.matchesLegacyHex config.disableVersion then
    pure (some .versionDisabled)
  else if request = .startup ∧ ¬w.startupOpen then pure (some .startupClosed)
  else if summary.flags.contains .launchOnly then do
    let inserted ← attemptLaunch summary.signature
    if request ≠ .startup ∨ ¬inserted then pure (some .launchOnly) else hotLoading
  else hotLoading

/-- What the boundaries answer during one inspection: the load, the release of the module when
it is not kept, the address resolver, and the module's memory when the host validates again. -/
structure InspectAnswers where
  load : LoadAnswers
  freeLibrary : Call (Except PlatformError Unit)
  resolve : Call (Except AddressResolutionError ModuleAddressRange)
  memory : ModuleMemory

/-- The end of `inspect`: the generation is admitted by the host and has to be published. -/
def publishGeneration (key : String) (candidate : DiscoveredDll Path) (state : ManagerState)
    (m : AddonModule) (range : ModuleAddressRange) (owner : OwnerToken)
    (freeLibrary : Call (Except PlatformError Unit)) : ManagerM Path InspectOutcome := do
  let w ← read
  match AddonHost.callbackGate w.host owner with
  | .error error =>
    let _ ← hostCall (AddonHost.cancelDiscovery owner)
    releaseRejectedModule key m state freeLibrary
    fail (.host (.ofError error))
  | .ok gate =>
    match w.ownership.publish owner range.start range.len gate with
    | .error error =>
      let hostResult ← hostCall (AddonHost.cancelDiscovery owner)
      releaseRejectedModule key m state freeLibrary
      ofExcept hostError hostResult
      fail (.ownershipIndex error)
    | .ok (_, index) =>
      core fun c => { c with ownership := index }
      match w.entries.get? key with
      | none =>
        dropModule m freeLibrary
        fail .unknownPath
      | some e =>
        core fun c => { c.putEntry key { e with
            module := some m
            range := some range
            owner := some owner
            lastOwner := some owner
            summary := some (summaryFromModule m)
            loadedRevision := some candidate.revision
            blockedBy := none
            state := .inspected
            failedCleanupCursor := 0 } with
          ownerPaths := Function.update c.ownerPaths owner (some key) }
        core fun c => c.withShared (c.toShared.record (.bound owner m.id m.unloadCallback.isSome))
        emit .info .definitionInspected (some owner)
        pure (.ready owner)

def admitModule (key : String) (candidate : DiscoveredDll Path) (state : ManagerState)
    (m : AddonModule) (request : ActivationRequest) (answers : InspectAnswers) :
    ManagerM Path InspectOutcome := do
  match answers.resolve with
  | .unwound =>
    emit .error .boundaryPanicContained none
    dropModule m answers.freeLibrary
    fail (.boundaryPanic .addressResolver)
  | .returned (.error error) =>
    dropModule m answers.freeLibrary
    fail (.address error)
  | .returned (.ok range) =>
    let w ← read
    if range.len ≠ m.bounds.size then
      releaseRejectedModule key m state answers.freeLibrary
      fail (.address .sizeMismatch)
    else if w.entries.toList.any fun (other, e) => other ≠ key ∧ e.range.any range.overlaps then
      releaseRejectedModule key m state answers.freeLibrary
      fail (.address .overlap)
    else
      let mode : LoadMode := if request = .hotReload then .hotReload else .initial
      match ← hostCall (AddonHost.discover (m.definitionLease answers.memory) mode
          w.options.metadataLimits) with
      | .ok owner => publishGeneration key candidate state m range owner answers.freeLibrary
      | .error (.error error) =>
        releaseRejectedModule key m state answers.freeLibrary
        fail (.host (.ofError error))
      | .error .unwound =>
        releaseRejectedModule key m state answers.freeLibrary
        emit .error .boundaryPanicContained none
        fail (.boundaryPanic .hostCoordinator)

def concludePolicy (key : String) (e : Entry Path) (m : AddonModule) (request : ActivationRequest)
    (answers : InspectAnswers) :
    Except ManagerError (Option PolicyReason) → ManagerM Path InspectOutcome
  | .error error => do
    dropModule m answers.freeLibrary
    fail error
  | .ok (some reason) => do
    updateEntry key fun e => { e with
      summary := some (summaryFromModule m)
      blockedBy := some reason
      state := .policyBlocked }
    releaseRejectedModule key m .policyBlocked answers.freeLibrary
    emit .warning .policyBlocked none
    pure (.blocked (summaryFromModule m).signature reason)
  | .ok none => admitModule key e.discovered e.state m request answers

def inspect [HostPath Path] (path : Path) (request : ActivationRequest) (answers : InspectAnswers) :
    ManagerM Path InspectOutcome := do
  let key := pathKey path
  let e ← entry key
  ensure (e.present = true) .candidateMissing
  ensure (e.state ∈ [.discovered, .policyBlocked, .unloaded, .removed])
    (.invalidState "Discovered, PolicyBlocked, Unloaded, or Removed" e.state)
  let w ← read
  let loaded ← sharedCall (AddonLoader.loadAbsolute answers.load w.options.metadataLimits)
  let m ← ofExcept .load loaded
  let allowed ← attempt (activationPolicy (summaryFromModule m) e.discovered.revision request)
  concludePolicy key e m request answers allowed

def recordActivation (summary : DefinitionSummary) : ManagerM Path Unit := do
  let w ← read
  if w.configAccess.isWritable then do
    let configs ← ofExcept .config (w.configs.getOrInsert summary.signature fun config =>
      { config with lastGameBuild := w.options.gameBuild, lastName := summary.name })
    modify fun w => { w with configs := configs }
  else pure ()

/-- What `activate` does with the result of the load callback. -/
def concludeActivation (key : String) (owner : OwnerToken) :
    Except ModuleError Unit → ManagerM Path Unit
  | .error error => do
    let _ ← hostCall (AddonHost.acknowledgeActivationFailed owner)
    core (·.closeOwnership owner)
    setState key .activationFailed
    emit .error .activationFailed (some owner)
    fail (.module error)
  | .ok () => do
    hostStep (AddonHost.acknowledgeLoaded owner)
    let e ← entry key
    let summary ← require e.summary (.invalidState "copied definition metadata" .inspected)
    recordActivation summary
    setState key .active
    emit .info .activated (some owner)

def activate (owner : OwnerToken) (callback : Call Unit) : ManagerM Path Unit := do
  let w ← read
  ensure (w.host.apiTablesPopulated = true) (.host .apiTable)
  let key ← ownerKey owner
  let e ← entry key
  ensure (e.state = .inspected) (.invalidState "Inspected" e.state)
  let _ ← ofExcept (fun error => .host (.ofError error)) (AddonHost.apiTable w.host owner)
  let result ← moduleCall key (.invalidState "live inspected module" e.state)
    (AddonModule.activate callback)
  concludeActivation key owner result

def requestUnload (owner : OwnerToken) (reason : UnloadReason) : ManagerM Path Unit := do
  let key ← ownerKey owner
  let e ← entry key
  ensure (e.state = .active) (.invalidState "Active" e.state)
  hostStep (AddonHost.requestUnload owner reason)
  moduleStep key (.invalidState "live active module" e.state) AddonModule.requestShutdown
  setState key .unloadRequested
  emit .info .unloadRequested (some owner)

/-- What the boundaries answer during one drain: the cleaner, and how many callbacks leave each
gate before the timeout. -/
structure DrainAnswers where
  cleaner : Cleaner
  hostLeaving : Nat
  moduleLeaving : Nat

/-- What `drain` does with the host's answer. -/
def concludeDrain (key : String) (owner : OwnerToken) (answers : DrainAnswers) :
    Except (Fault HostError) Unit → ManagerM Path Unit
  | .error (.error error) => do
    emit .warning .cleanupRetryRequired (some owner)
    fail (.host (.ofError error))
  | .error .unwound => do
    emit .error .boundaryPanicContained (some owner)
    fail (.boundaryPanic .hostCoordinator)
  | .ok () => do
    moduleStep key (.invalidState "live draining module" .draining)
      (AddonModule.waitForCallbacks answers.moduleLeaving)
    setState key .drained
    emit .info .drainComplete (some owner)

def drain (owner : OwnerToken) (answers : DrainAnswers) : ManagerM Path Unit := do
  let key ← ownerKey owner
  let e ← entry key
  ensure (e.state = .unloadRequested ∨ e.state = .draining)
    (.invalidState "UnloadRequested or Draining" e.state)
  setState key .draining
  let result ← hostCall (AddonHost.drainRegistrations answers.cleaner answers.hostLeaving owner)
  concludeDrain key owner answers result

def invokeNativeUnload (owner : OwnerToken) (callback : Call Unit) : ManagerM Path Unit := do
  let key ← ownerKey owner
  let e ← entry key
  ensure (e.state = .drained) (.invalidState "Drained" e.state)
  let result ← moduleCall key (.invalidState "live drained module" e.state)
    (AddonModule.invokeUnload callback)
  core (·.closeOwnership owner)
  setState key .nativeUnloadComplete
  emit (if result.isOk then .info else .error) .nativeUnloadComplete (some owner)
  ofExcept .module result

def releaseEntry (key : String) (owner : OwnerToken) (needsHostAck : Bool) (missing : ManagerError)
    (freeLibrary : Call (Except PlatformError Unit)) : ManagerM Path Unit := do
  let m ← takeModule key missing
  match ← sharedCall (m.release freeLibrary) with
  | .ok () => finishSuccessfulRelease key (some owner) needsHostAck
  | .error failure => retainModule key owner failure needsHostAck

def finishUnload (owner : OwnerToken) (freeLibrary : Call (Except PlatformError Unit)) :
    ManagerM Path Unit := do
  let key ← ownerKey owner
  let e ← entry key
  ensure (e.state = .nativeUnloadComplete) (.invalidState "NativeUnloadComplete" e.state)
  moduleStep key (.invalidState "live cleaned module" e.state)
    (AddonModule.completeHostCleanup (.returned (.ok ())))
  releaseEntry key owner true (.invalidState "live cleaned module" e.state) freeLibrary

def retryRelease [HostPath Path] (path : Path)
    (freeLibrary : Call (Except PlatformError Unit)) : ManagerM Path Unit := do
  let key := pathKey path
  let e ← entry key
  ensure (e.state = .releaseFailed) (.invalidState "ReleaseFailed" e.state)
  let m ← takeModule key .releaseNotRetryable
  match ← sharedCall (m.release freeLibrary) with
  | .ok () => finishSuccessfulRelease key e.owner e.releaseNeedsHostAck
  | .error failure =>
    let retryable := failure.isRetryable
    updateEntry key fun e => { e with module := some failure.intoParts.1 }
    emitRetryFailure e.owner retryable
    fail (if retryable then .releaseFailed retryable else .releaseNotRetryable)

def runDirectCleanup (cleaner : Cleaner) (owner : OwnerToken) (phase : CleanupPhase) :
    ManagerM Path Unit := do
  core fun c => c.withShared (c.toShared.record (.cleaned owner phase (cleaner phase)))
  match cleaner phase with
  | .returned (.ok ()) => pure ()
  | .returned (.error _) => fail (.host .cleanup)
  | .unwound =>
    emit .error .boundaryPanicContained (some owner)
    fail (.boundaryPanic .registrationCleaner)

/-- The loop `while failed_cleanup_cursor < 2`, which turns once for every early phase left. -/
def runEarlyCleanup (cleaner : Cleaner) (owner : OwnerToken) (key : String) :
    Nat → ManagerM Path Unit
  | 0 => pure ()
  | turns + 1 => do
    let e ← entry key
    let phase ← require CleanupPhase.order[e.failedCleanupCursor]?
      (.boundaryPanic .registrationCleaner)
    runDirectCleanup cleaner owner phase
    updateEntry key fun e => { e with failedCleanupCursor := e.failedCleanupCursor + 1 }
    runEarlyCleanup cleaner owner key turns

structure FailureCleanupAnswers extends DrainAnswers where
  unload : Call Unit
  freeLibrary : Call (Except PlatformError Unit)

def beginFailureCleanup (key : String) (owner : OwnerToken) : ManagerM Path Unit := do
  core (·.closeOwnership owner)
  moduleStep key (.invalidState "failed live module" .activationFailed) AddonModule.requestShutdown
  setState key .draining

def waitForFailedGate (owner : OwnerToken) (leaving : Nat) : ManagerM Path Unit := do
  let w ← read
  let gate ← ofExcept (fun error => .host (.ofError error)) (AddonHost.callbackGate w.host owner)
  core fun c => c.withShared (c.toShared.waitForDrain gate leaving).2
  ensure ((w.toShared.waitForDrain gate leaving).1 = true) (.host .drainTimedOut)

def completeFailureCleanup (key : String) (owner : OwnerToken)
    (answers : FailureCleanupAnswers) : ManagerM Path Unit := do
  runDirectCleanup answers.cleaner owner .ownedResources
  updateEntry key fun e => { e with failedCleanupCursor := CleanupPhase.order.length }
  moduleStep key (.invalidState "failed live module" .draining)
    (AddonModule.invokeUnload answers.unload)
  moduleStep key (.invalidState "failed live module" .draining)
    (AddonModule.completeHostCleanup (.returned (.ok ())))
  setState key .nativeUnloadComplete
  releaseEntry key owner false .releaseNotRetryable answers.freeLibrary

def resumeFailureCleanup (key : String) (owner : OwnerToken) (cursor : Nat)
    (answers : FailureCleanupAnswers) : ManagerM Path Unit := do
  runEarlyCleanup answers.cleaner owner key (CleanupPhase.preDrainCount - cursor)
  waitForFailedGate owner answers.hostLeaving
  moduleStep key (.invalidState "failed live module" .draining)
    (AddonModule.waitForCallbacks answers.moduleLeaving)
  completeFailureCleanup key owner answers

def cleanupActivationFailure (owner : OwnerToken) (answers : FailureCleanupAnswers) :
    ManagerM Path Unit := do
  let key ← ownerKey owner
  let e ← entry key
  ensure (e.state = .activationFailed ∨ e.state = .draining)
    (.invalidState "ActivationFailed or Draining" e.state)
  if e.state = .activationFailed then beginFailureCleanup key owner else pure ()
  resumeFailureCleanup key owner e.failedCleanupCursor answers

structure ReloadAnswers where
  drain : DrainAnswers
  unload : Call Unit
  freeLibrary : Call (Except PlatformError Unit)
  inspect : InspectAnswers
  load : Call Unit

def hotReload [HostPath Path] (owner : OwnerToken) (answers : ReloadAnswers) :
    ManagerM Path OwnerToken := do
  let key ← ownerKey owner
  let e ← entry key
  let summary ← require e.summary (.invalidState "copied definition metadata" e.state)
  ensure (¬summary.flags.contains .disableHotLoading) (.policy .hotLoadingLocked)
  ensure (¬summary.flags.contains .launchOnly) (.policy .launchOnly)
  requestUnload owner .runtime
  drain owner answers.drain
  invokeNativeUnload owner answers.unload
  finishUnload owner answers.freeLibrary
  match ← inspect e.discovered.path .hotReload answers.inspect with
  | .blocked _ reason => fail (.policy reason)
  | .ready newOwner =>
    activate newOwner answers.load
    emit .info .hotReloadComplete (some newOwner)
    pure newOwner

def finishStartup : ManagerM Path Unit :=
  core fun c => { c.withShared (c.toShared.record .startupFinished) with startupOpen := false }

def enableEffect (entry : Option (Entry Path)) (enabled startupOpen : Bool) :
    Except ManagerError EnableEffect :=
  match entry with
  | none => .ok .noRuntimeChange
  | some e =>
    if ¬enabled ∧ e.state = .active then
      match e.owner, e.summary with
      | some owner, some summary =>
        .ok (if summary.flags.contains .disableHotLoading then .restartRequired (some owner)
          else .unloadAvailable owner)
      | _, _ => .error .unknownOwner
    else if enabled ∧ e.present ∧ e.module.isNone then
      let launchOnly := e.summary.any fun summary => summary.flags.contains .launchOnly
      .ok (if launchOnly ∧ ¬startupOpen then .restartRequired e.lastOwner
        else .activationAvailable)
    else .ok .noRuntimeChange

def setEnabled (signature : Nat) (enabled : Bool) : ManagerM Path EnableEffect := do
  let w ← read
  ensure (w.configAccess.isWritable = true) .configReadOnly
  let configs ← ofExcept .config (w.configs.getOrInsert signature fun config =>
    { config with enabled := enabled })
  modify fun w => { w with configs := configs }
  let matching := w.entries.toList.find? fun (_, e) =>
    e.summary.any fun summary => summary.signature = signature
  ofExcept id (enableEffect (matching.map Prod.snd) enabled w.startupOpen)

def recommendationFor (e : Entry Path) (changed removed : Bool) : DirectoryRecommendation :=
  match e.owner with
  | none => .none
  | some owner =>
    if e.state ≠ .active then .none
    else
      let flags := (e.summary.map DefinitionSummary.flags).getD .none
      if flags.contains .disableHotLoading || flags.contains .launchOnly then
        .restartRequired owner
      else if removed then .unload owner
      else if changed then .hotReload owner
      else .none

section Directory

variable [DecidableEq Path] [HostPath Path]

def applyUpsert (candidate : DiscoveredDll Path) : ManagerM Path (DirectoryImpact Path) := do
  let w ← read
  ensure (w.directory.containsDirectChild candidate.path = true) (.discovery .outsideDirectory)
  let key := pathKey candidate.path
  match w.entries.get? key with
  | some e =>
    let changed := e.discovered.revision ≠ candidate.revision ∨
      e.discovered.byteLen ≠ candidate.byteLen
    let e := { e with discovered := candidate, present := true }
    core (·.putEntry key e)
    if changed then
      let recommendation := recommendationFor e true false
      emit .info .candidateChanged recommendation.owner
      pure ⟨candidate.path, .modified, recommendation⟩
    else pure ⟨candidate.path, .unchanged, .none⟩
  | none =>
    core (·.putEntry key (Entry.ofDiscovered candidate))
    emit .info .candidateDiscovered none
    pure ⟨candidate.path, .added, .none⟩

def applyRemoved (path : Path) : ManagerM Path (DirectoryImpact Path) := do
  let w ← read
  ensure (w.directory.containsDirectChild path = true) (.discovery .outsideDirectory)
  let key := pathKey path
  let e ← entry key
  if ¬e.present then pure ⟨path, .unchanged, .none⟩
  else
    let recommendation := recommendationFor { e with present := false } false true
    core (·.putEntry key { e with
      present := false
      state := if e.module.isNone then .removed else e.state })
    emit .info .candidateRemoved recommendation.owner
    pure ⟨path, .removed, recommendation⟩

def applyRenamed (source : Path) (target : DiscoveredDll Path) :
    ManagerM Path (DirectoryImpact Path) := do
  let w ← read
  ensure (w.directory.containsDirectChild source = true ∧
    w.directory.containsDirectChild target.path = true) (.discovery .outsideDirectory)
  let oldKey := pathKey source
  let newKey := pathKey target.path
  if oldKey = newKey then applyUpsert target
  else do
    ensure ((w.entries.get? newKey).isNone) (.discovery .duplicateEntry)
    let e ← entry oldKey
    let e := { e with discovered := target, present := true }
    let recommendation := recommendationFor e true false
    core fun c => { c with
      entries := (c.entries.erase oldKey).put newKey e
      ownerPaths := fun owner => (c.ownerPaths owner).map fun key =>
        if key = oldKey then newKey else key }
    emit .info .candidateRenamed recommendation.owner
    pure ⟨target.path, .renamed, recommendation⟩

def applyEach {β : Type} (f : β → ManagerM Path (DirectoryImpact Path)) :
    List β → ManagerM Path (List (DirectoryImpact Path))
  | [] => pure []
  | x :: rest => do
    let impact ← f x
    let impacts ← applyEach f rest
    pure (impact :: impacts)

def refreshDiscovery (scan : Call (Except DiscoveryError (List (DiscoveredDll Path)))) :
    ManagerM Path (List (DirectoryImpact Path)) := do
  match scan with
  | .unwound =>
    emit .error .boundaryPanicContained none
    fail (.boundaryPanic .directoryScanner)
  | .returned (.error error) => fail (.discovery error)
  | .returned (.ok found) =>
    let w ← read
    let scanned ← ofExcept .discovery (normalizeDiscovery w.directory found)
    let seen := scanned.map fun item => pathKey item.path
    let upserts ← applyEach applyUpsert scanned
    let w ← read
    let removed := (w.entries.toList.filter fun (key, e) => e.present && !seen.contains key).map
      fun (_, e) => e.discovered.path
    let removals ← applyEach applyRemoved removed
    pure (upserts ++ removals)

def applyDirectoryEvent (event : DirectoryEvent Path)
    (scan : Call (Except DiscoveryError (List (DiscoveredDll Path)))) :
    ManagerM Path (List (DirectoryImpact Path)) := do
  match event with
  | .upsert candidate =>
    let impact ← applyUpsert candidate
    pure [impact]
  | .removed path =>
    let impact ← applyRemoved path
    pure [impact]
  | .renamed source target =>
    let impact ← applyRenamed source target
    pure [impact]
  | .rescan => refreshDiscovery scan

end Directory

end AddonManager

end Nexus
