import Nexus.Tally
import Nexus.Trace

namespace Nexus.AddonCleanup

inductive CleanupService where
  | inlineHooks
  | uiHostCallbacks
  | rawWndProcCallbacks
  | managedInputCallbacks
  | eventCallbacks
  | textureCallbacks
  | fontCallbacks
  | fontResources
  | localizationOverrides
  deriving DecidableEq

namespace CleanupService

def order : List CleanupService :=
  [.inlineHooks, .uiHostCallbacks, .rawWndProcCallbacks, .managedInputCallbacks, .eventCallbacks,
    .textureCallbacks, .fontCallbacks, .fontResources, .localizationOverrides]

def phase : CleanupService → CleanupPhase
  | .inlineHooks => .hookRegistrations
  | .uiHostCallbacks | .rawWndProcCallbacks | .managedInputCallbacks | .eventCallbacks
  | .textureCallbacks | .fontCallbacks => .callbackRegistrations
  | .fontResources | .localizationOverrides => .ownedResources

theorem mem_order (service : CleanupService) : service ∈ order := by cases service <;> decide

theorem nodup_order : order.Nodup := by decide

end CleanupService

def phaseIndex : CleanupPhase → Nat
  | .hookRegistrations => 0
  | .callbackRegistrations => 1
  | .ownedResources => 2

def phaseFromIndex : Nat → CleanupPhase
  | 0 => .hookRegistrations
  | 1 => .callbackRegistrations
  | _ => .ownedResources

def phaseName : CleanupPhase → String
  | .hookRegistrations => "HookRegistrations"
  | .callbackRegistrations => "CallbackRegistrations"
  | .ownedResources => "OwnedResources"

def firstService : CleanupPhase → CleanupService
  | .hookRegistrations => .inlineHooks
  | .callbackRegistrations => .uiHostCallbacks
  | .ownedResources => .fontResources

theorem phase_firstService (phase : CleanupPhase) : (firstService phase).phase = phase := by
  cases phase <;> rfl

theorem phaseFromIndex_phaseIndex (phase : CleanupPhase) :
    phaseFromIndex (phaseIndex phase) = phase := by
  cases phase <;> rfl

structure CleanupEffect where
  removed : Nat
  deriving DecidableEq

inductive AdapterFailureKind where
  | busy
  | rejected
  | completionUnverified
  | unavailable
  deriving DecidableEq

structure AdapterError where
  kind : AdapterFailureKind
  removed : Nat
  remaining : Option Nat
  deriving DecidableEq

abbrev AdapterResult := Except AdapterError CleanupEffect

inductive GapReason where
  | notConfigured
  | concreteServiceUnavailable
  | threadAffinityBridgeUnavailable
  | completionAcknowledgementUnavailable
  | upstreamApiMissing
  | upstreamLockSafetyUnproven
  deriving DecidableEq

/-- A callback is foreign code; what it does is given at each invocation. -/
inductive ErasedAdapter where
  | callback
  | gap (reason : GapReason)
  deriving DecidableEq

namespace ErasedAdapter

def invoke (answer : Call AdapterResult) : ErasedAdapter → Call (Option AdapterResult)
  | .callback => do return some (← answer)
  | .gap _ => return none

def gap? : ErasedAdapter → Option GapReason
  | .callback => none
  | .gap reason => some reason

end ErasedAdapter

inductive StepFailure where
  | adapter (kind : AdapterFailureKind)
  | panicked
  deriving DecidableEq

inductive ProgressState where
  | pending
  | complete (removed attempts : Nat)
  | failed (failure : StepFailure) (removed : Nat) (remaining : Option Nat) (attempts : Nat)
  deriving DecidableEq

inductive StepStatus where
  | pending
  | complete (removed attempts : Nat)
  | failed (failure : StepFailure) (removed : Nat) (remaining : Option Nat) (attempts : Nat)
  | gap (reason : GapReason)
  deriving DecidableEq

def StepStatus.removed? : StepStatus → Option Nat
  | .complete removed _ | .failed _ removed _ _ => some removed
  | .pending | .gap _ => none

namespace ProgressState

def isComplete : ProgressState → Bool
  | .complete _ _ => true
  | _ => false

def counters : ProgressState → Nat × Nat
  | .pending => (0, 0)
  | .complete removed attempts | .failed _ removed _ attempts => (removed, attempts)

def report : ProgressState → StepStatus
  | .pending => .pending
  | .complete removed attempts => .complete removed attempts
  | .failed failure removed remaining attempts => .failed failure removed remaining attempts

end ProgressState

/-- Removals are `usize` and attempts `u32`; both saturate. -/
def usizeMax : Nat := 2 ^ 64 - 1

def u32Max : Nat := 2 ^ 32 - 1

def ProgressState.after (state : ProgressState) (outcome : Call (Option AdapterResult)) :
    ProgressState :=
  let (previouslyRemoved, attempts) := state.counters
  let attempts := min (attempts + 1) u32Max
  match outcome with
  | .returned (some (.ok effect)) =>
    .complete (min (previouslyRemoved + effect.removed) usizeMax) attempts
  | .returned (some (.error error)) =>
    .failed (.adapter error.kind) (min (previouslyRemoved + error.removed) usizeMax)
      error.remaining attempts
  | .returned none => .pending
  | .unwound => .failed .panicked previouslyRemoved none attempts

@[ext] structure OwnerProgress where
  slots : CleanupService → ProgressState
  completedPhases : CleanupPhase → Bool

def OwnerProgress.new : OwnerProgress := ⟨fun _ => .pending, fun _ => false⟩

inductive PhaseStatus where
  | complete
  | incomplete
  | blocked (required : CleanupPhase)
  deriving DecidableEq

structure StepReport where
  service : CleanupService
  status : StepStatus
  deriving DecidableEq

structure CleanupReport where
  owner : OwnerToken
  phase : CleanupPhase
  status : PhaseStatus
  steps : List StepReport
  deriving DecidableEq

structure CleanupFailure where
  report : CleanupReport
  deriving DecidableEq

namespace CleanupFailure

def failed (failure : CleanupFailure) : Nat :=
  failure.report.steps.countP fun step => match step.status with
    | .failed .. => true
    | _ => false

def gaps (failure : CleanupFailure) : Nat :=
  failure.report.steps.countP fun step => match step.status with
    | .gap _ => true
    | _ => false

def display (failure : CleanupFailure) : String :=
  "addon registration cleanup incomplete: phase=" ++ phaseName failure.report.phase ++
    ", failed=" ++ toString failure.failed ++ ", gaps=" ++ toString failure.gaps

end CleanupFailure

inductive CleanupEvent where
  | invoked (owner : OwnerToken) (service : CleanupService) (answer : Call AdapterResult)
  | forgot (owner : OwnerToken)

structure RegistrationCleaner where
  slots : CleanupService → ErasedAdapter
  progress : OwnerToken → Option OwnerProgress
  lastReport : Option CleanupReport

namespace RegistrationCleaner

/-- `build`, with the adapters or gaps that the builder was given. -/
def build (slots : CleanupService → ErasedAdapter) : RegistrationCleaner :=
  ⟨slots, fun _ => none, none⟩

def phaseCompleted (cleaner : RegistrationCleaner) (owner : OwnerToken) (phase : CleanupPhase) :
    Bool :=
  match cleaner.progress owner with
  | none => false
  | some progress => progress.completedPhases phase

def firstIncompletePriorPhase (cleaner : RegistrationCleaner) (owner : OwnerToken)
    (phase : CleanupPhase) : Option CleanupPhase :=
  ((List.range (phaseIndex phase)).find? fun index =>
    !cleaner.phaseCompleted owner (phaseFromIndex index)).map phaseFromIndex

def stepStatus (cleaner : RegistrationCleaner) (owner : OwnerToken) (service : CleanupService) :
    StepStatus :=
  let progressStatus : Option StepStatus :=
    (cleaner.progress owner).map fun progress => (progress.slots service).report
  match progressStatus with
  | some (.complete removed attempts) => .complete removed attempts
  | _ =>
    match (cleaner.slots service).gap? with
    | some reason => .gap reason
    | none => progressStatus.getD .pending

def buildReport (cleaner : RegistrationCleaner) (owner : OwnerToken) (phase : CleanupPhase)
    (status : PhaseStatus) : CleanupReport :=
  ⟨owner, phase, status, (CleanupService.order.filter fun service => service.phase = phase).map
    fun service => ⟨service, cleaner.stepStatus owner service⟩⟩

def report (cleaner : RegistrationCleaner) (owner : OwnerToken) (phase : CleanupPhase) :
    CleanupReport :=
  if cleaner.phaseCompleted owner phase then cleaner.buildReport owner phase .complete
  else
    match cleaner.firstIncompletePriorPhase owner phase with
    | some required => cleaner.buildReport owner phase (.blocked required)
    | none => cleaner.buildReport owner phase .incomplete

def runSlot (cleaner : RegistrationCleaner) (answers : CleanupService → Call AdapterResult)
    (owner : OwnerToken) (phase : CleanupPhase) (state : OwnerProgress × List CleanupEvent)
    (service : CleanupService) : OwnerProgress × List CleanupEvent :=
  let (progress, log) := state
  if service.phase ≠ phase ∨ (progress.slots service).isComplete = true then state
  else if (cleaner.slots service).gap?.isSome then state
  else
    let outcome := (cleaner.slots service).invoke (answers service)
    ({ progress with
        slots := Function.update progress.slots service ((progress.slots service).after outcome) },
      .invoked owner service (answers service) :: log)

def setProgress (cleaner : RegistrationCleaner) (owner : OwnerToken) (progress : OwnerProgress) :
    RegistrationCleaner :=
  { cleaner with progress := Function.update cleaner.progress owner (some progress) }

def markPhaseIfComplete (phase : CleanupPhase) (progress : OwnerProgress) : Bool × OwnerProgress :=
  let complete := CleanupService.order.all fun service =>
    service.phase ≠ phase || (progress.slots service).isComplete
  (complete, { progress with
    completedPhases := Function.update progress.completedPhases phase complete })

structure PhaseCall where
  result : Except CleanupFailure CleanupReport
  invocations : List CleanupEvent
  cleaner : RegistrationCleaner

def PhaseCall.report (call : PhaseCall) : CleanupReport :=
  match call.result with
  | .ok report => report
  | .error failure => failure.report

def finish (cleaner : RegistrationCleaner) (invocations : List CleanupEvent)
    (report : CleanupReport) : PhaseCall :=
  ⟨if report.status = .complete then .ok report else .error ⟨report⟩, invocations,
    { cleaner with lastReport := some report }⟩

/-- `cleanup_phase`. `answers` is what the adapter of each slot does if it is invoked. -/
def cleanupPhase (cleaner : RegistrationCleaner) (answers : CleanupService → Call AdapterResult)
    (owner : OwnerToken) (phase : CleanupPhase) : PhaseCall :=
  let progress := (cleaner.progress owner).getD .new
  let cleaner := cleaner.setProgress owner progress
  match cleaner.firstIncompletePriorPhase owner phase with
  | some required => cleaner.finish [] (cleaner.buildReport owner phase (.blocked required))
  | none =>
    if cleaner.phaseCompleted owner phase then
      cleaner.finish [] (cleaner.buildReport owner phase .complete)
    else
      let (ran, invocations) :=
        CleanupService.order.foldl (cleaner.runSlot answers owner phase) (progress, [])
      let (complete, marked) := markPhaseIfComplete phase ran
      let cleaner := cleaner.setProgress owner marked
      cleaner.finish invocations
        (cleaner.buildReport owner phase (if complete then .complete else .incomplete))

def cleanup (cleaner : RegistrationCleaner) (answers : CleanupService → Call AdapterResult)
    (owner : OwnerToken) (phase : CleanupPhase) : Except CleanupError Unit :=
  match (cleaner.cleanupPhase answers owner phase).result with
  | .ok _ => .ok ()
  | .error failure => .error ⟨failure.display⟩

def install (cleaner : RegistrationCleaner) (service : CleanupService) (adapter : ErasedAdapter) :
    RegistrationCleaner :=
  { cleaner with slots := Function.update cleaner.slots service adapter }

def forgetOwner (cleaner : RegistrationCleaner) (owner : OwnerToken) : RegistrationCleaner :=
  { cleaner with progress := Function.update cleaner.progress owner none }

end RegistrationCleaner

/-- The cleaner with what it did so far, newest first. -/
structure CleanupWorld where
  cleaner : RegistrationCleaner
  log : List CleanupEvent

inductive CleanerOp where
  | cleanupPhase (owner : OwnerToken) (phase : CleanupPhase)
      (answers : CleanupService → Call AdapterResult)
  | install (service : CleanupService) (adapter : ErasedAdapter)
  | forgetOwner (owner : OwnerToken)

namespace CleanupWorld

def start (slots : CleanupService → ErasedAdapter) : CleanupWorld := ⟨.build slots, []⟩

def step (world : CleanupWorld) : CleanerOp → CleanupWorld
  | .cleanupPhase owner phase answers =>
    let call := world.cleaner.cleanupPhase answers owner phase
    ⟨call.cleaner, call.invocations ++ world.log⟩
  | .install service adapter => { world with cleaner := world.cleaner.install service adapter }
  | .forgetOwner owner => ⟨world.cleaner.forgetOwner owner, .forgot owner :: world.log⟩

def run (slots : CleanupService → ErasedAdapter) (ops : List CleanerOp) : CleanupWorld :=
  ops.foldl step (start slots)

end CleanupWorld

end Nexus.AddonCleanup
