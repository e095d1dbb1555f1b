import Nexus.ManagerOperations

namespace Nexus

namespace AddonManager

open Fallible

variable {Path α β : Type}

theorem read_bind (f : AddonManager Path → ManagerM Path β) (w : AddonManager Path) :
    (read >>= f) w = f w w := rfl

/-- The same directory, and the same candidate under every key. -/
structure Located (w next : AddonManager Path) : Prop where
  directory : next.directory = w.directory
  discovered : ∀ key, (next.entries.get? key).map Entry.discovered =
    (w.entries.get? key).map Entry.discovered

namespace Located

variable {w next last : AddonManager Path}

theorem refl (w : AddonManager Path) : Located w w := ⟨rfl, fun _ => rfl⟩

theorem trans (h : Located w next) (hlast : Located next last) : Located w last :=
  ⟨hlast.directory.trans h.directory, fun key => (hlast.discovered key).trans (h.discovered key)⟩

theorem of_entries (hdirectory : next.directory = w.directory)
    (hentries : next.entries = w.entries) : Located w next :=
  ⟨hdirectory, fun _ => by rw [hentries]⟩

theorem put (hdirectory : next.directory = w.directory) {key : String} {e e' : Entry Path}
    (hentry : w.entries.get? key = some e) (hentries : next.entries = w.entries.put key e')
    (hsame : e'.discovered = e.discovered) : Located w next where
  directory := hdirectory
  discovered other := by
    rw [hentries, SortedMap.get?_put]
    split
    next heq =>
      rw [heq, hentry]
      exact congrArg some hsame
    next => rfl

end Located

structure Locates (x : ManagerM Path α) : Prop where
  follows : Follows Located x

namespace Locates

theorem bind {x : ManagerM Path α} {f : α → ManagerM Path β} (hx : Locates x)
    (hf : ∀ a, Locates (f a)) : Locates (x >>= f) :=
  ⟨Follows.bind (R := Located) (fun _ _ _ h hnext => h.trans hnext) hx.follows
    fun a => (hf a).follows⟩

theorem pure (a : α) : Locates (Pure.pure a : ManagerM Path α) :=
  ⟨Follows.pure Located.refl a⟩

theorem fail (error : ManagerError) : Locates (Fallible.fail error : ManagerM Path α) :=
  ⟨Follows.fail Located.refl error⟩

theorem ensure (p : Prop) [Decidable p] (error : ManagerError) :
    Locates (Fallible.ensure p error : ManagerM Path Unit) :=
  ⟨Follows.ensure Located.refl p error⟩

theorem read : Locates (Fallible.read : ManagerM Path (AddonManager Path)) :=
  ⟨Located.refl⟩

theorem attempt {x : ManagerM Path α} (hx : Locates x) :
    Locates (Fallible.attempt x : ManagerM Path (Except ManagerError α)) := ⟨hx.follows⟩

theorem require (o : Option α) (error : ManagerError) :
    Locates (Fallible.require o error : ManagerM Path α) := by
  cases o with
  | none => exact fail error
  | some a => exact pure a

theorem ofExcept {ε : Type} (f : ε → ManagerError) (x : Except ε α) :
    Locates (Fallible.ofExcept f x : ManagerM Path α) := by
  cases x with
  | error error => exact fail (f error)
  | ok a => exact pure a

theorem core {f : ManagerCore Path → ManagerCore Path} (h : ∀ c, (f c).entries = c.entries) :
    Locates (AddonManager.core f) := ⟨fun w => .of_entries rfl (h w.toManagerCore)⟩

theorem emit (severity : DiagnosticSeverity) (code : DiagnosticCode) (owner : Option OwnerToken) :
    Locates (AddonManager.emit severity code owner : ManagerM Path Unit) :=
  ⟨fun _ => .of_entries rfl rfl⟩

theorem hostCall (x : HostM α) : Locates (AddonManager.hostCall x : ManagerM Path _) :=
  ⟨fun _ => .of_entries rfl rfl⟩

theorem sharedCall {ε : Type} (x : Fallible Shared ε α) :
    Locates (AddonManager.sharedCall x : ManagerM Path _) :=
  ⟨fun _ => .of_entries rfl rfl⟩

theorem hostStep (x : HostM α) : Locates (AddonManager.hostStep x : ManagerM Path α) :=
  bind (hostCall x) fun _ => ofExcept ..

theorem ownerKey (owner : OwnerToken) :
    Locates (AddonManager.ownerKey owner : ManagerM Path String) :=
  bind read fun _ => require ..

theorem entry (key : String) : Locates (AddonManager.entry key : ManagerM Path (Entry Path)) :=
  bind read fun _ => require ..

theorem of_entry {key : String} {f : Entry Path → ManagerM Path α}
    (h : ∀ w e, w.entries.get? key = some e → Located w (f e w).2) :
    Locates (AddonManager.entry key >>= f) := by
  refine ⟨fun w => ?_⟩
  rcases hentry : w.entries.get? key with _ | e
  · have hread : AddonManager.entry key w = (.error .unknownPath, w) := by
      rw [AddonManager.entry, read_bind, hentry, require_none, fail_apply]
    rw [bind_of_error hread]
    exact Located.refl w
  · have hread : AddonManager.entry key w = (.ok e, w) := by
      rw [AddonManager.entry, read_bind, hentry, require_some, pure_apply]
    rw [bind_of_ok hread]
    exact h w e hentry

theorem updateEntry (key : String) {f : Entry Path → Entry Path}
    (h : ∀ e, (f e).discovered = e.discovered) : Locates (AddonManager.updateEntry key f) :=
  of_entry fun _ e hentry => .put rfl hentry rfl (h e)

theorem setState (key : String) (state : ManagerState) :
    Locates (AddonManager.setState key state : ManagerM Path Unit) := updateEntry key fun _ => rfl

theorem moduleCall (key : String) (missing : ManagerError) (x : ModuleM Unit) :
    Locates (AddonManager.moduleCall key missing x : ManagerM Path _) := by
  refine of_entry fun w e hentry => ?_
  rcases hmodule : e.module with _ | _
  · exact Located.refl w
  · exact .put rfl hentry rfl rfl

theorem moduleStep (key : String) (missing : ManagerError) (x : ModuleM Unit) :
    Locates (AddonManager.moduleStep key missing x : ManagerM Path Unit) :=
  bind (moduleCall key missing x) fun _ => ofExcept ..

theorem takeModule (key : String) (missing : ManagerError) :
    Locates (AddonManager.takeModule key missing : ManagerM Path AddonModule) := by
  refine of_entry fun w e hentry => ?_
  rcases hmodule : e.module with _ | _
  · exact Located.refl w
  · exact .put rfl hentry rfl rfl

theorem closeOwnership (owner : OwnerToken) :
    Locates (AddonManager.core (·.closeOwnership owner) : ManagerM Path Unit) := core fun _ => rfl

theorem dropModule (m : AddonModule) (freeLibrary : Call (Except PlatformError Unit)) :
    Locates (AddonManager.dropModule m freeLibrary : ManagerM Path Unit) := core fun _ => rfl

theorem releaseRejectedModule (key : String) (m : AddonModule) (returnState : ManagerState)
    (freeLibrary : Call (Except PlatformError Unit)) :
    Locates (AddonManager.releaseRejectedModule key m returnState freeLibrary :
      ManagerM Path Unit) := by
  refine bind (sharedCall _) fun result => ?_
  cases result with
  | ok => exact pure ()
  | error =>
    exact bind (updateEntry key fun _ => rfl) fun _ => bind (emit ..) fun _ => fail _

theorem finishSuccessfulRelease (key : String) (owner : Option OwnerToken)
    (acknowledgeHost : Bool) :
    Locates (AddonManager.finishSuccessfulRelease key owner acknowledgeHost :
      ManagerM Path Unit) := by
  refine bind ?_ fun _ => bind (updateEntry key fun _ => rfl) fun _ => bind ?_ fun _ =>
    bind (emit ..) fun _ => ofExcept ..
  · unfold acknowledgeRelease
    split
    · split
      · exact bind (hostCall _) fun _ => pure _
      · exact pure _
    · exact pure _
  · cases owner with
    | none => exact pure ()
    | some owner => exact core (f := fun c => c.retireOwnership owner) fun _ => rfl

theorem retainModule (key : String) (owner : OwnerToken) (failure : ReleaseFailure)
    (needsHostAck : Bool) :
    Locates (AddonManager.retainModule key owner failure needsHostAck : ManagerM Path Unit) :=
  bind (updateEntry key fun _ => rfl) fun _ => bind (emit ..) fun _ => fail _

theorem releaseEntry (key : String) (owner : OwnerToken) (needsHostAck : Bool)
    (missing : ManagerError) (freeLibrary : Call (Except PlatformError Unit)) :
    Locates (AddonManager.releaseEntry key owner needsHostAck missing freeLibrary :
      ManagerM Path Unit) := by
  refine bind (takeModule ..) fun m => bind (sharedCall _) fun result => ?_
  cases result with
  | ok => exact finishSuccessfulRelease ..
  | error => exact retainModule ..

theorem modifyConfigs (configs : AddonConfigDocument) :
    Locates (modify fun w => { w with configs := configs } : ManagerM Path Unit) :=
  ⟨fun _ => .of_entries rfl rfl⟩

theorem activationPolicy (summary : DefinitionSummary) (revision : BinaryRevision)
    (request : ActivationRequest) :
    Locates (AddonManager.activationPolicy summary revision request : ManagerM Path _) := by
  have hconfig : Locates (configForOrRegister summary.signature : ManagerM Path AddonConfig) := by
    refine bind read fun w => ?_
    rcases w.configAccess with _ | _
    · exact bind (ofExcept ..) fun _ => bind (modifyConfigs _) fun _ => pure _
    · exact pure _
  have hattempt : Locates (attemptLaunch summary.signature : ManagerM Path Bool) :=
    bind read fun _ => bind (core fun _ => rfl) fun _ => pure _
  have hhot : Locates (if request = .hotReload ∧ summary.flags.contains .disableHotLoading then
      Pure.pure (some PolicyReason.hotLoadingLocked) else Pure.pure none : ManagerM Path _) := by
    split
    · exact pure _
    · exact pure _
  refine bind hconfig fun config => bind read fun w => ?_
  dsimp only
  split
  · exact pure _
  split
  · exact pure _
  split
  · exact pure _
  split
  · refine bind hattempt fun inserted => ?_
    split
    · exact pure _
    · exact hhot
  · exact hhot

theorem publishGeneration (key : String) (candidate : DiscoveredDll Path) (state : ManagerState)
    (m : AddonModule) (range : ModuleAddressRange) (owner : OwnerToken)
    (freeLibrary : Call (Except PlatformError Unit)) :
    Locates (AddonManager.publishGeneration key candidate state m range owner freeLibrary) := by
  refine ⟨fun w => ?_⟩
  unfold AddonManager.publishGeneration
  rw [read_bind]
  rcases w.host.callbackGate owner with error | gate
  · exact (bind (hostCall _) fun _ => bind (releaseRejectedModule ..) fun _ => fail _).follows w
  · dsimp only
    rcases w.ownership.publish owner range.start range.len gate with error | ⟨_, index⟩
    · exact (bind (hostCall _) fun _ => bind (releaseRejectedModule ..) fun _ =>
        bind (ofExcept ..) fun _ => fail _).follows w
    · dsimp only
      rcases hentry : w.entries.get? key with _ | _
      · exact (bind (core (f := fun c => { c with ownership := index }) fun _ => rfl) fun _ =>
          bind (dropModule ..) fun _ => fail _).follows w
      · exact .put rfl hentry rfl rfl

theorem admitModule (key : String) (candidate : DiscoveredDll Path) (state : ManagerState)
    (m : AddonModule) (request : ActivationRequest) (answers : InspectAnswers) :
    Locates (AddonManager.admitModule key candidate state m request answers) := by
  unfold AddonManager.admitModule
  split
  next => exact bind (emit ..) fun _ => bind (dropModule ..) fun _ => fail _
  next => exact bind (dropModule ..) fun _ => fail _
  next =>
    refine bind read fun w => ?_
    split
    · exact bind (releaseRejectedModule ..) fun _ => fail _
    split
    · exact bind (releaseRejectedModule ..) fun _ => fail _
    · refine bind (hostCall _) fun result => ?_
      rcases result with (error | _) | owner
      · exact bind (releaseRejectedModule ..) fun _ => fail _
      · exact bind (releaseRejectedModule ..) fun _ => bind (emit ..) fun _ => fail _
      · exact publishGeneration ..

theorem inspect [HostPath Path] (path : Path) (request : ActivationRequest)
    (answers : InspectAnswers) : Locates (AddonManager.inspect path request answers) := by
  refine bind (entry _) fun e => bind (ensure ..) fun _ => bind (ensure ..) fun _ =>
    bind read fun w => bind (sharedCall _) fun loaded => bind (ofExcept ..) fun m =>
    bind (attempt (activationPolicy ..)) fun allowed => ?_
  rcases allowed with _ | reason | reason
  · exact bind (dropModule ..) fun _ => fail _
  · exact admitModule ..
  · exact bind (updateEntry _ fun _ => rfl) fun _ => bind (releaseRejectedModule ..) fun _ =>
      bind (emit ..) fun _ => pure _

theorem activate (owner : OwnerToken) (callback : Call Unit) :
    Locates (AddonManager.activate owner callback : ManagerM Path Unit) := by
  have hrecord : ∀ summary, Locates (recordActivation summary : ManagerM Path Unit) := by
    refine fun summary => bind read fun w => ?_
    split
    · exact bind (ofExcept ..) fun _ => modifyConfigs _
    · exact pure ()
  refine bind read fun w => bind (ensure ..) fun _ => bind (ownerKey owner) fun key =>
    bind (entry key) fun e => bind (ensure ..) fun _ => bind (ofExcept ..) fun _ =>
    bind (moduleCall ..) fun result => ?_
  cases result with
  | error =>
    exact bind (hostCall _) fun _ => bind (closeOwnership owner) fun _ =>
      bind (setState ..) fun _ => bind (emit ..) fun _ => fail _
  | ok =>
    exact bind (hostStep _) fun _ => bind (entry key) fun _ => bind (require ..) fun _ =>
      bind (hrecord _) fun _ => bind (setState ..) fun _ => emit ..

theorem requestUnload (owner : OwnerToken) (reason : UnloadReason) :
    Locates (AddonManager.requestUnload owner reason : ManagerM Path Unit) :=
  bind (ownerKey owner) fun key => bind (entry key) fun _ => bind (ensure ..) fun _ =>
    bind (hostStep _) fun _ => bind (moduleStep ..) fun _ => bind (setState ..) fun _ => emit ..

theorem drain (owner : OwnerToken) (answers : DrainAnswers) :
    Locates (AddonManager.drain owner answers : ManagerM Path Unit) := by
  refine bind (ownerKey owner) fun key => bind (entry key) fun _ => bind (ensure ..) fun _ =>
    bind (setState ..) fun _ => bind (hostCall _) fun result => ?_
  rcases result with (error | _) | _
  · exact bind (emit ..) fun _ => fail _
  · exact bind (emit ..) fun _ => fail _
  · exact bind (moduleStep ..) fun _ => bind (setState ..) fun _ => emit ..

theorem invokeNativeUnload (owner : OwnerToken) (callback : Call Unit) :
    Locates (AddonManager.invokeNativeUnload owner callback : ManagerM Path Unit) :=
  bind (ownerKey owner) fun key => bind (entry key) fun _ => bind (ensure ..) fun _ =>
    bind (moduleCall ..) fun _ => bind (closeOwnership owner) fun _ => bind (setState ..) fun _ =>
    bind (emit ..) fun _ => ofExcept ..

theorem finishUnload (owner : OwnerToken) (freeLibrary : Call (Except PlatformError Unit)) :
    Locates (AddonManager.finishUnload owner freeLibrary : ManagerM Path Unit) :=
  bind (ownerKey owner) fun key => bind (entry key) fun _ => bind (ensure ..) fun _ =>
    bind (moduleStep ..) fun _ => releaseEntry ..

theorem retryRelease [HostPath Path] (path : Path)
    (freeLibrary : Call (Except PlatformError Unit)) :
    Locates (AddonManager.retryRelease path freeLibrary) := by
  refine bind (entry _) fun e => bind (ensure ..) fun _ => bind (takeModule ..) fun m =>
    bind (sharedCall _) fun result => ?_
  cases result with
  | ok => exact finishSuccessfulRelease ..
  | error =>
    refine bind (updateEntry _ fun _ => rfl) fun _ => bind ?_ fun _ => fail _
    unfold emitRetryFailure
    split
    · exact emit ..
    · exact pure ()

theorem runDirectCleanup (cleaner : Cleaner) (owner : OwnerToken) (phase : CleanupPhase) :
    Locates (AddonManager.runDirectCleanup cleaner owner phase : ManagerM Path Unit) := by
  refine bind (core fun _ => rfl) fun _ => ?_
  split
  · exact pure ()
  · exact fail _
  · exact bind (emit ..) fun _ => fail _

theorem runEarlyCleanup (cleaner : Cleaner) (owner : OwnerToken) (key : String) (turns : Nat) :
    Locates (AddonManager.runEarlyCleanup cleaner owner key turns : ManagerM Path Unit) := by
  induction turns with
  | zero => exact pure ()
  | succ _ ih =>
    exact bind (entry key) fun _ => bind (require ..) fun _ => bind (runDirectCleanup ..) fun _ =>
      bind (updateEntry key fun _ => rfl) fun _ => ih

theorem cleanupActivationFailure (owner : OwnerToken) (answers : FailureCleanupAnswers) :
    Locates (AddonManager.cleanupActivationFailure owner answers : ManagerM Path Unit) := by
  have hbegin : ∀ key, Locates (beginFailureCleanup key owner : ManagerM Path Unit) := fun key =>
    bind (closeOwnership owner) fun _ => bind (moduleStep ..) fun _ => setState ..
  have hwait : Locates (waitForFailedGate owner answers.hostLeaving : ManagerM Path Unit) :=
    bind read fun _ => bind (ofExcept ..) fun _ => bind (core fun _ => rfl) fun _ => ensure ..
  have hcomplete : ∀ key, Locates (completeFailureCleanup key owner answers :
      ManagerM Path Unit) := fun key =>
    bind (runDirectCleanup ..) fun _ => bind (updateEntry key fun _ => rfl) fun _ =>
      bind (moduleStep ..) fun _ => bind (moduleStep ..) fun _ => bind (setState ..) fun _ =>
      releaseEntry ..
  have hresume : ∀ key cursor, Locates (resumeFailureCleanup key owner cursor answers :
      ManagerM Path Unit) := fun key cursor =>
    bind (runEarlyCleanup ..) fun _ => bind hwait fun _ => bind (moduleStep ..) fun _ =>
      hcomplete key
  refine bind (ownerKey owner) fun key => bind (entry key) fun e => bind (ensure ..) fun _ => ?_
  split
  · exact bind (hbegin key) fun _ => hresume key _
  · exact hresume key _

theorem hotReload [HostPath Path] (owner : OwnerToken) (answers : ReloadAnswers) :
    Locates (AddonManager.hotReload owner answers : ManagerM Path OwnerToken) := by
  refine bind (ownerKey owner) fun key => bind (entry key) fun e => bind (require ..) fun _ =>
    bind (ensure ..) fun _ => bind (ensure ..) fun _ => bind (requestUnload ..) fun _ =>
    bind (drain ..) fun _ => bind (invokeNativeUnload ..) fun _ => bind (finishUnload ..) fun _ =>
    bind (inspect ..) fun outcome => ?_
  cases outcome with
  | blocked => exact fail _
  | ready => exact bind (activate ..) fun _ => bind (emit ..) fun _ => pure _

theorem setEnabled (signature : Nat) (enabled : Bool) :
    Locates (AddonManager.setEnabled signature enabled : ManagerM Path EnableEffect) :=
  bind read fun _ => bind (ensure ..) fun _ => bind (ofExcept ..) fun _ =>
    bind (modifyConfigs _) fun _ => ofExcept ..

end Locates

end AddonManager

end Nexus
