import Nexus.CallbackGate
import Nexus.SortedMap

namespace Nexus.InlineHooks

/-! The registry of inline hooks. One lock is held during a whole call, and no call leaves it by unwinding. -/

structure MinHookStatus where
  code : Int
  deriving DecidableEq

def mhUnknown : MinHookStatus := ⟨-1⟩

def mhOk : MinHookStatus := ⟨0⟩

def mhErrorAlreadyInitialized : MinHookStatus := ⟨1⟩

def mhErrorNotInitialized : MinHookStatus := ⟨2⟩

def mhErrorAlreadyCreated : MinHookStatus := ⟨3⟩

def mhErrorNotCreated : MinHookStatus := ⟨4⟩

def mhErrorEnabled : MinHookStatus := ⟨5⟩

def mhErrorDisabled : MinHookStatus := ⟨6⟩

def mhErrorNotExecutable : MinHookStatus := ⟨7⟩

def mhErrorUnsupportedFunction : MinHookStatus := ⟨8⟩

def mhErrorMemoryAlloc : MinHookStatus := ⟨9⟩

def mhErrorMemoryProtect : MinHookStatus := ⟨10⟩

inductive RetourError where
  | notExecutable
  | outOfMemory
  | regionFailure
  | alreadyInitialized
  | notInitialized
  | sameAddress
  | invalidCode
  | noPatchArea
  | unsupportedInstruction
  deriving DecidableEq

def mapCreateError : RetourError → MinHookStatus
  | .notExecutable => mhErrorNotExecutable
  | .outOfMemory => mhErrorMemoryAlloc
  | .regionFailure => mhErrorMemoryProtect
  | .alreadyInitialized => mhErrorAlreadyCreated
  | .notInitialized => mhErrorNotCreated
  | .sameAddress | .invalidCode | .noPatchArea | .unsupportedInstruction =>
    mhErrorUnsupportedFunction

def mapToggleError : RetourError → MinHookStatus
  | .regionFailure => mhErrorMemoryProtect
  | .outOfMemory => mhErrorMemoryAlloc
  | .notInitialized => mhErrorNotCreated
  | .alreadyInitialized => mhErrorEnabled
  | .notExecutable => mhErrorNotExecutable
  | .sameAddress | .invalidCode | .noPatchArea | .unsupportedInstruction =>
    mhErrorUnsupportedFunction

structure ManagedDetour where
  trampoline : Nat
  enabled : Bool
  deriving DecidableEq

structure HookEntry where
  owner : OwnerToken
  detour : ManagedDetour
  deriving DecidableEq

/-- What happens to the code of the process. `covered` are the targets of the quiescence guard in
scope, none without a guard. -/
inductive HookEvent where
  | created (target : Nat) (owner : OwnerToken)
  | toggled (target : Nat) (enabled succeeded : Bool) (covered : List Nat)
  | destroyed (target : Nat)
  deriving DecidableEq

/-- `events` is no data of the code: it keeps what the calls did to the detours. -/
structure InlineHookService where
  initialized : Bool
  hooks : SortedMap Nat HookEntry
  retiredGenerations : SortedMap Nat Nat
  events : List HookEvent

inductive Allocation where
  | registry
  | targets
  | enabled

/-- What the system and the detour library answer during one call. A hash map is walked in any
order. -/
structure Process where
  executable : Nat → Bool
  reserves : Allocation → Bool
  order : List Nat → List Nat
  order_perm : ∀ targets, (order targets).Perm targets
  newDetour : Call (Except RetourError Nat)
  acquire : Call Bool
  toggle : Nat → Call (Except RetourError Unit)
  retire : Nat → Call Unit

structure CleanupReport where
  owner : OwnerToken
  retired : Nat
  deriving DecidableEq

structure CleanupError where
  owner : OwnerToken
  status : MinHookStatus
  retired : Nat
  remaining : Nat
  deriving DecidableEq

abbrev Hooking (α : Type) : Type := Fallible InlineHookService (Fault MinHookStatus) α

def stop {α : Type} (status : MinHookStatus) : Hooking α := Fallible.fail (.error status)

namespace InlineHookService

def new : InlineHookService := ⟨false, .empty, .empty, []⟩

def retireOwnerAdmission (owner : OwnerToken) (service : InlineHookService) : InlineHookService :=
  let generation := match service.retiredGenerations.get? owner.signature with
    | some generation => max generation owner.generation
    | none => owner.generation
  { service with
    retiredGenerations := service.retiredGenerations.put owner.signature generation }

def ownerAdmissionRetired (service : InlineHookService) (owner : OwnerToken) : Bool :=
  (service.retiredGenerations.get? owner.signature).any fun generation =>
    owner.generation ≤ generation

def countOwner (service : InlineHookService) (owner : OwnerToken) : Nat :=
  service.hooks.values.countP fun hook => hook.owner = owner

def targetsOf (service : InlineHookService) (p : HookEntry → Bool) : List Nat :=
  (service.hooks.toList.filter fun item => p item.2).map Prod.fst

def toggled (target : Nat) (hook : HookEntry) (enable succeeded : Bool) (covered : List Nat)
    (service : InlineHookService) : InlineHookService :=
  { service with
    hooks := if succeeded then
        service.hooks.put target { hook with detour := { hook.detour with enabled := enable } }
      else service.hooks
    events := service.events ++ if hook.detour.enabled = enable then [] else
      [.toggled target enable succeeded covered] }

def inserted (target : Nat) (owner : OwnerToken) (trampoline : Nat) (service : InlineHookService) :
    InlineHookService :=
  { service with
    hooks := service.hooks.put target ⟨owner, ⟨trampoline, false⟩⟩
    events := service.events ++ [.created target owner] }

def removed (target : Nat) (service : InlineHookService) : InlineHookService :=
  { service with
    hooks := service.hooks.erase target
    events := service.events ++ [.destroyed target] }

end InlineHookService

namespace Process

variable (process : Process)

def isExecutable (address : Nat) : Bool := address != 0 && process.executable address

def collectKeys (allocation : Allocation) (targets : List Nat) : Hooking (List Nat) :=
  if process.reserves allocation then pure targets else stop mhErrorMemoryAlloc

/-- `QuiescenceGuard::acquire`; the guard is the list of what it covers. -/
def acquireGuard (targets : List Nat) : Hooking (List Nat) :=
  match process.acquire with
  | .returned true => pure targets
  | .returned false => stop mhErrorMemoryProtect
  | .unwound => Fallible.fail .unwound

def guardFor (targets : List Nat) : Hooking (List Nat) :=
  if targets = [] then pure [] else process.acquireGuard targets

def toggleDetour (guard : List Nat) (target : Nat) (hook : HookEntry) (enable : Bool) :
    Hooking Unit := fun service =>
  match process.toggle target with
  | .returned (.ok ()) => (.ok (), service.toggled target hook enable true guard)
  | .returned (.error error) =>
    (.error (.error (mapToggleError error)), service.toggled target hook enable false guard)
  | .unwound => (.error .unwound, service.toggled target hook enable false guard)

def retireEntry (target : Nat) : Hooking Unit := fun service =>
  (match process.retire target with
    | .returned () => .ok ()
    | .unwound => .error .unwound, service.removed target)

def toggleEach (guard : List Nat) (enable : Bool) : List Nat → Hooking Unit
  | [] => pure ()
  | target :: targets => do
    match (← Fallible.read).hooks.get? target with
    | none => stop mhUnknown
    | some hook =>
      toggleDetour process guard target hook enable
      toggleEach guard enable targets

def retireKeys : List Nat → Hooking Nat
  | [] => pure 0
  | target :: targets => do
    match (← Fallible.read).hooks.get? target with
    | none => retireKeys targets
    | some _ =>
      retireEntry process target
      return (← retireKeys targets) + 1

def removeOne (target : Nat) : Hooking Unit := do
  match (← Fallible.read).hooks.get? target with
  | none => stop mhErrorNotCreated
  | some hook =>
    let guard ← process.guardFor (if hook.detour.enabled then [target] else [])
    process.toggleDetour guard target hook false
    match (← Fallible.read).hooks.get? target with
    | none => stop mhUnknown
    | some _ => process.retireEntry target

def changeOne (target : Nat) (enable : Bool) : Hooking Unit := do
  match (← Fallible.read).hooks.get? target with
  | none => stop mhErrorNotCreated
  | some hook =>
    if hook.detour.enabled = enable then
      stop (if enable then mhErrorEnabled else mhErrorDisabled)
    else
      let guard ← process.acquireGuard [target]
      process.toggleDetour guard target hook enable

def changeMatching (p : HookEntry → Bool) (enable : Bool) : Hooking Unit := do
  let service ← Fallible.read
  let targets ← process.collectKeys .targets
    (process.order (service.targetsOf fun hook => p hook && hook.detour.enabled != enable))
  if targets = [] then pure ()
  else
    let guard ← process.acquireGuard targets
    process.toggleEach guard enable targets

def changeAll (enable : Bool) : Hooking Unit := process.changeMatching (fun _ => true) enable

def changeAllOwned (owner : OwnerToken) (enable : Bool) : Hooking Unit :=
  process.changeMatching (fun hook => hook.owner = owner) enable

def disableForRetirement (targets : List Nat) : Hooking Unit := do
  let service ← Fallible.read
  let enabled ← process.collectKeys .enabled
    (targets.filter fun target => (service.hooks.get? target).any (·.detour.enabled))
  let guard ← process.guardFor enabled
  process.toggleEach guard false targets

def cleanupOwnerInner (owner : OwnerToken) :
    Fallible InlineHookService (Fault CleanupError) CleanupReport := do
  let service ← Fallible.read
  let initial := service.countOwner owner
  let stopped : Fault MinHookStatus → Fault CleanupError
    | .error status => .error ⟨owner, status, 0, initial⟩
    | .unwound => .unwound
  if initial = 0 then return ⟨owner, 0⟩
  else
    Fallible.ensure (service.initialized = true)
      (.error ⟨owner, mhErrorNotInitialized, 0, initial⟩)
    let keys ← Fallible.mapError stopped (process.collectKeys .targets
      (process.order (service.targetsOf fun hook => hook.owner = owner)))
    Fallible.mapError stopped (process.disableForRetirement keys)
    let retired ← Fallible.mapError stopped (process.retireKeys keys)
    let remaining := (← Fallible.read).countOwner owner
    if remaining = 0 then return ⟨owner, retired⟩
    else Fallible.fail (.error ⟨owner, mhUnknown, retired, remaining⟩)

end Process

def withStatus (operation : Hooking Unit) (service : InlineHookService) :
    MinHookStatus × InlineHookService :=
  match operation service with
  | (.ok (), service) => (mhOk, service)
  | (.error (.error status), service) => (status, service)
  | (.error .unwound, service) => (mhUnknown, service)

section Operations

variable (process : Process)

def requireInitialized : Hooking Unit := do
  Fallible.ensure ((← Fallible.read).initialized = true) (.error mhErrorNotInitialized)

def initializeService : Hooking Unit := do
  Fallible.ensure ((← Fallible.read).initialized = false) (.error mhErrorAlreadyInitialized)
  Fallible.modify fun service => { service with initialized := true }

def uninitializeService : Hooking Unit := do
  requireInitialized
  let service ← Fallible.read
  let keys ← process.collectKeys .targets (process.order (service.targetsOf fun _ => true))
  process.disableForRetirement keys
  let retired ← process.retireKeys keys
  let service ← Fallible.read
  Fallible.ensure (retired = keys.length ∧ service.hooks.toList = []) (.error mhUnknown)
  Fallible.modify fun service => { service with initialized := false }

def publicationStatus : Call MinHookStatus → MinHookStatus
  | .returned status => status
  | .unwound => mhUnknown

def finishPublication (target : Nat) (status : MinHookStatus) : Hooking Unit :=
  if status = mhOk then pure ()
  else do
    let retired ← process.retireKeys [target]
    stop (if retired = 1 then status else mhUnknown)

/-- `publish` gets the trampoline while the lock is held. -/
def createHookTransaction (owner : OwnerToken) (target detour : Nat)
    (publish : Nat → Call MinHookStatus) : Hooking Unit := do
  requireInitialized
  let service ← Fallible.read
  Fallible.ensure (target ≠ 0) (.error mhErrorNotExecutable)
  Fallible.ensure (process.isExecutable target = true ∧ process.isExecutable detour = true)
    (.error mhErrorNotExecutable)
  Fallible.ensure (service.ownerAdmissionRetired owner = false)
    (.error mhErrorUnsupportedFunction)
  Fallible.ensure (service.hooks.get? target = none) (.error mhErrorAlreadyCreated)
  Fallible.ensure (process.reserves .registry = true) (.error mhErrorMemoryAlloc)
  match process.newDetour with
  | .unwound => Fallible.fail .unwound
  | .returned (.error error) => stop (mapCreateError error)
  | .returned (.ok trampoline) =>
    Fallible.modify (·.inserted target owner trampoline)
    finishPublication process target (publicationStatus (publish trampoline))

def requireOwned (owner : OwnerToken) (target : Nat) : Hooking Unit := do
  Fallible.ensure (((← Fallible.read).hooks.get? target).any (·.owner = owner) = true)
    (.error mhErrorNotCreated)

def removeHook (target : Nat) : Hooking Unit := do
  requireInitialized
  Fallible.ensure (target ≠ 0) (.error mhErrorNotCreated)
  process.removeOne target

def removeOwnedHook (owner : OwnerToken) (target : Nat) : Hooking Unit := do
  requireInitialized
  Fallible.ensure (target ≠ 0) (.error mhErrorNotCreated)
  requireOwned owner target
  process.removeOne target

def changeHook (target : Nat) (enable : Bool) : Hooking Unit := do
  requireInitialized
  if target = 0 then process.changeAll enable else process.changeOne target enable

def changeOwnedHook (owner : OwnerToken) (target : Nat) (enable : Bool) : Hooking Unit := do
  requireInitialized
  if target = 0 then process.changeAllOwned owner enable
  else
    requireOwned owner target
    process.changeOne target enable

def cleanupOwner (owner : OwnerToken) (service : InlineHookService) :
    Except CleanupError CleanupReport × InlineHookService :=
  let service := service.retireOwnerAdmission owner
  let initial := service.countOwner owner
  match process.cleanupOwnerInner owner service with
  | (.ok report, service) => (.ok report, service)
  | (.error (.error error), service) => (.error error, service)
  | (.error .unwound, service) =>
    let remaining := service.countOwner owner
    (.error ⟨owner, mhUnknown, initial - remaining, remaining⟩, service)

end Operations

inductive HookCall where
  | initializeService
  | uninitializeService
  | createHookTransaction (owner : OwnerToken) (target detour : Nat)
      (publish : Nat → Call MinHookStatus)
  | removeHook (target : Nat)
  | removeOwnedHook (owner : OwnerToken) (target : Nat)
  | enableHook (target : Nat)
  | disableHook (target : Nat)
  | enableOwnedHook (owner : OwnerToken) (target : Nat)
  | disableOwnedHook (owner : OwnerToken) (target : Nat)
  | cleanupOwner (owner : OwnerToken)

inductive HookResult where
  | status (status : MinHookStatus)
  | cleanup (result : Except CleanupError CleanupReport)

namespace HookCall

def operation (process : Process) : HookCall → Hooking Unit
  | initializeService => InlineHooks.initializeService
  | uninitializeService => InlineHooks.uninitializeService process
  | createHookTransaction owner target detour publish =>
    InlineHooks.createHookTransaction process owner target detour publish
  | removeHook target => InlineHooks.removeHook process target
  | removeOwnedHook owner target => InlineHooks.removeOwnedHook process owner target
  | enableHook target => changeHook process target true
  | disableHook target => changeHook process target false
  | enableOwnedHook owner target => changeOwnedHook process owner target true
  | disableOwnedHook owner target => changeOwnedHook process owner target false
  | cleanupOwner _ => pure ()

def run (process : Process) (service : InlineHookService) : HookCall →
    HookResult × InlineHookService
  | cleanupOwner owner =>
    let (result, service) := InlineHooks.cleanupOwner process owner service
    (.cleanup result, service)
  | call =>
    let (status, service) := withStatus (call.operation process) service
    (.status status, service)

def owner? : HookCall → Option OwnerToken
  | createHookTransaction owner .. => some owner
  | removeOwnedHook owner _ => some owner
  | enableOwnedHook owner _ => some owner
  | disableOwnedHook owner _ => some owner
  | cleanupOwner owner => some owner
  | _ => none

end HookCall

def runCalls (calls : List (Process × HookCall)) (service : InlineHookService) :
    InlineHookService :=
  calls.foldl (fun service call => (call.2.run call.1 service).2) service

end Nexus.InlineHooks
