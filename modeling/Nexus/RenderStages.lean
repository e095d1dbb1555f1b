import Mathlib.Logic.Function.Basic
import Nexus.SortedMap

namespace Nexus.Render

/-- The counters of the sources are `u64` and `u32` and saturate. -/
def saturating (bits n : Nat) : Nat := min n (2 ^ bits - 1)

inductive SafeMode where
  | automatic
  | perObjectHooks
  | factoryHooks
  | globalHookFallback
  | observeOnly
  | off
  deriving DecidableEq

inductive RenderStage where
  | proxyOnly
  | hooksOnly
  | renderProbe
  | coreUi
  | addons
  deriving DecidableEq

def RenderStage.rank : RenderStage → Nat
  | .proxyOnly => 0
  | .hooksOnly => 1
  | .renderProbe => 2
  | .coreUi => 3
  | .addons => 4

def SafeMode.stageCeiling (requested : RenderStage) : SafeMode → RenderStage
  | .observeOnly => .hooksOnly
  | .off => .proxyOnly
  | .automatic | .perObjectHooks | .factoryHooks | .globalHookFallback => requested

structure RenderControls where
  safeMode : SafeMode
  maxStage : RenderStage
  deriving DecidableEq

def RenderControls.effectiveStage (controls : RenderControls) : RenderStage :=
  controls.safeMode.stageCeiling controls.maxStage

def RenderControls.permits (stage : RenderStage) (controls : RenderControls) : Prop :=
  stage.rank ≤ controls.effectiveStage.rank

instance (stage : RenderStage) (controls : RenderControls) : Decidable (controls.permits stage) :=
  inferInstanceAs (Decidable (_ ≤ _))

structure FailurePolicy where
  failuresBeforeCooldown : Nat
  cooldownSequences : Nat
  cooldownsBeforeDisable : Nat
  failures_pos : 0 < failuresBeforeCooldown
  failures_lt : failuresBeforeCooldown < 2 ^ 32
  cooldowns_pos : 0 < cooldownsBeforeDisable
  cooldowns_lt : cooldownsBeforeDisable < 2 ^ 32

inductive StageStatus where
  | healthy
  | coolingDown (retryAtSequence : Nat)
  | disabled
  deriving DecidableEq

structure StageRecord where
  consecutiveFailures : Nat
  cooldowns : Nat
  status : StageStatus
  deriving DecidableEq

def StageRecord.default : StageRecord := ⟨0, 0, .healthy⟩

inductive StageFailureState where
  | healthy (consecutiveFailures cooldowns : Nat)
  | coolingDown (retryAtSequence cooldowns : Nat)
  | disabled (cooldowns : Nat)
  deriving DecidableEq

def StageRecord.state (record : StageRecord) : StageFailureState :=
  match record.status with
  | .healthy => .healthy record.consecutiveFailures record.cooldowns
  | .coolingDown retryAtSequence => .coolingDown retryAtSequence record.cooldowns
  | .disabled => .disabled record.cooldowns

inductive AttemptPermission where
  | attempt
  | retry
  | coolingDown (retryAtSequence : Nat)
  | disabled
  deriving DecidableEq

inductive FailureAction where
  | continue (failuresRemaining : Nat)
  | cooldownStarted (retryAtSequence cooldown : Nat)
  | disabled (cooldowns : Nat)
  | alreadySuppressed (state : StageFailureState)
  deriving DecidableEq

structure FailureController where
  policy : FailurePolicy
  records : RenderStage → Option StageRecord

namespace FailureController

def new (policy : FailurePolicy) : FailureController := ⟨policy, fun _ => none⟩

def state (stage : RenderStage) (controller : FailureController) : StageFailureState :=
  ((controller.records stage).getD .default).state

def withRecord (stage : RenderStage) (record : StageRecord) (controller : FailureController) :
    FailureController :=
  { controller with records := Function.update controller.records stage (some record) }

/-- Polls whether one stage may execute, opening one retry when cooldown expires. -/
def permission (stage : RenderStage) (presentSequence : Nat) (controller : FailureController) :
    AttemptPermission × FailureController :=
  match controller.records stage with
  | none => (.attempt, controller)
  | some record =>
    match record.status with
    | .healthy => (.attempt, controller)
    | .coolingDown retryAtSequence =>
      if retryAtSequence ≤ presentSequence then
        (.retry, controller.withRecord stage
          { record with status := .healthy, consecutiveFailures := 0 })
      else (.coolingDown retryAtSequence, controller)
    | .disabled => (.disabled, controller)

def countFailure (stage : RenderStage) (presentSequence : Nat) (record : StageRecord)
    (controller : FailureController) : FailureAction × FailureController :=
  let failures := saturating 32 (record.consecutiveFailures + 1)
  let threshold := controller.policy.failuresBeforeCooldown
  if failures < threshold then
    (.continue (threshold - failures),
      controller.withRecord stage { record with consecutiveFailures := failures })
  else
    let cooldowns := saturating 32 (record.cooldowns + 1)
    if controller.policy.cooldownsBeforeDisable ≤ cooldowns then
      (.disabled cooldowns, controller.withRecord stage ⟨0, cooldowns, .disabled⟩)
    else
      let retryAtSequence :=
        saturating 64 (presentSequence + controller.policy.cooldownSequences)
      (.cooldownStarted retryAtSequence cooldowns,
        controller.withRecord stage ⟨0, cooldowns, .coolingDown retryAtSequence⟩)

def recordFailure (stage : RenderStage) (presentSequence : Nat) (controller : FailureController) :
    FailureAction × FailureController :=
  let record := (controller.records stage).getD .default
  match record.status with
  | .coolingDown retryAtSequence =>
    if presentSequence < retryAtSequence then
      (.alreadySuppressed record.state, controller.withRecord stage record)
    else
      controller.countFailure stage presentSequence
        { record with status := .healthy, consecutiveFailures := 0 }
  | .disabled => (.alreadySuppressed record.state, controller.withRecord stage record)
  | .healthy => controller.countFailure stage presentSequence record

def recordSuccess (stage : RenderStage) (controller : FailureController) :
    Bool × FailureController :=
  ((controller.records stage).isSome,
    { controller with records := Function.update controller.records stage none })

/-- Manually resets one stage and returns whether any failure history existed. -/
def resetStage (stage : RenderStage) (controller : FailureController) :
    Bool × FailureController :=
  controller.recordSuccess stage

def resetAll (controller : FailureController) : FailureController :=
  { controller with records := fun _ => none }

def Suppressed (stage : RenderStage) (sequence : Nat) (controller : FailureController) : Prop :=
  match controller.state stage with
  | .healthy _ _ => False
  | .coolingDown retryAtSequence _ => sequence < retryAtSequence
  | .disabled _ => True

instance (stage : RenderStage) (sequence : Nat) (controller : FailureController) :
    Decidable (controller.Suppressed stage sequence) := by
  unfold Suppressed
  split <;> infer_instance

end FailureController

end Nexus.Render
