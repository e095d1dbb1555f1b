import Nexus.RenderStages

namespace Nexus.Render

structure Extent2D where
  width : Nat
  height : Nat
  deriving DecidableEq

def Extent2D.isZero (extent : Extent2D) : Prop := extent.width = 0 ∨ extent.height = 0

instance (extent : Extent2D) : Decidable extent.isZero := inferInstanceAs (Decidable (_ ∨ _))

def Extent2D.area (extent : Extent2D) : Nat := extent.width * extent.height

inductive SurfaceFormat where
  | rgba8Unorm
  | rgba8UnormSrgb
  | bgra8Unorm
  | bgra8UnormSrgb
  | rgb10A2Unorm
  | rgba16Float
  | other (native : Nat)
  deriving DecidableEq

inductive ColorSpace where
  | srgb
  | scRgbLinear
  | hdr10Pq
  | other (native : Nat)
  deriving DecidableEq

inductive PresentMethod where
  | present
  | present1
  deriving DecidableEq

structure AdapterLuid where
  lowPart : Nat
  highPart : Int
  deriving DecidableEq

structure Activity where
  presentCount : Nat
  lastPresentSequence : Nat
  consecutivePresentCycles : Nat
  windowVisible : Bool
  foreground : Bool
  occluded : Bool
  deriving DecidableEq

def Activity.default : Activity := ⟨0, 0, 0, true, false, false⟩

structure SwapChainObservation where
  id : Nat
  hwnd : Option Nat
  device : Nat
  adapterLuid : AdapterLuid
  format : SurfaceFormat
  colorSpace : ColorSpace
  size : Extent2D
  presentMethod : PresentMethod
  activity : Activity
  deriving DecidableEq

inductive SessionLifecycle where
  | candidate
  | primary
  | retired
  deriving DecidableEq

structure SwapChainSession where
  observation : SwapChainObservation
  generation : Nat
  lifecycle : SessionLifecycle
  failures : FailureController
  latestOutcomeSequences : RenderStage → Option Nat

def sameSurface (before after : SwapChainObservation) : Prop :=
  before.hwnd = after.hwnd ∧ before.device = after.device ∧
    before.adapterLuid = after.adapterLuid ∧ before.size = after.size ∧
    before.format = after.format ∧ before.colorSpace = after.colorSpace

instance (before after : SwapChainObservation) : Decidable (sameSurface before after) :=
  inferInstanceAs (Decidable (_ ∧ _))

namespace SwapChainSession

def Changed (observation : SwapChainObservation) (session : SwapChainSession) : Prop :=
  session.lifecycle = .retired ∨ ¬ sameSurface session.observation observation

instance (observation : SwapChainObservation) (session : SwapChainSession) :
    Decidable (session.Changed observation) := inferInstanceAs (Decidable (_ ∨ _))

def advance (policy : FailurePolicy) (session : SwapChainSession) : SwapChainSession :=
  { session with
    generation := saturating 64 (session.generation + 1)
    failures := .new policy
    latestOutcomeSequences := fun _ => none }

/-- Applies a stage outcome only when it is newer than every prior outcome observed for that stage
in the current generation. -/
def recordRenderOutcome (stage : RenderStage) (sequence : Nat) (succeeded : Bool)
    (session : SwapChainSession) : Bool × SwapChainSession :=
  if (session.latestOutcomeSequences stage).any fun latest => sequence ≤ latest then
    (false, session)
  else
    (true, { session with
      latestOutcomeSequences := Function.update session.latestOutcomeSequences stage (some sequence)
      failures :=
        if succeeded then (session.failures.recordSuccess stage).2
        else (session.failures.recordFailure stage sequence).2 })

end SwapChainSession

structure SwapChainRegistry where
  sessions : SortedMap Nat SwapChainSession
  failurePolicy : FailurePolicy

/-- The observations by identity. A later one replaces an earlier one. -/
def snapshotOf (observations : List SwapChainObservation) : SortedMap Nat SwapChainObservation :=
  observations.foldl (fun snapshot observation => snapshot.put observation.id observation) .empty

def lifecycleOf (primary : Option Nat) (id : Nat) : SessionLifecycle :=
  if primary = some id then .primary else .candidate

def observed (policy : FailurePolicy) (primary : Option Nat) (observation : SwapChainObservation)
    (id : Nat) : Option SwapChainSession → SwapChainSession
  | some session =>
    { (if session.Changed observation then session.advance policy else session) with
      observation, lifecycle := lifecycleOf primary id }
  | none => ⟨observation, 1, lifecycleOf primary id, .new policy, fun _ => none⟩

namespace SwapChainRegistry

def get? (id : Nat) (registry : SwapChainRegistry) : Option SwapChainSession :=
  registry.sessions.get? id

/-- The snapshot's sessions, as the first loop of `reconcile` leaves them. No identity occurs twice
in the snapshot, so that the loop reads what the registry had. -/
def observedSessions (snapshot : SortedMap Nat SwapChainObservation) (primary : Option Nat)
    (registry : SwapChainRegistry) : List (Nat × SwapChainSession) :=
  snapshot.toList.map fun entry =>
    (entry.1, observed registry.failurePolicy primary entry.2 entry.1 (registry.get? entry.1))

/-- Applies one complete observation snapshot and selected primary identity. -/
def reconcile (observations : List SwapChainObservation) (primary : Option Nat)
    (registry : SwapChainRegistry) : SwapChainRegistry :=
  let snapshot := snapshotOf observations
  let sessions := (registry.observedSessions snapshot primary).foldl
    (fun sessions entry => sessions.put entry.1 entry.2) registry.sessions
  { registry with
    sessions := sessions.mapEntries fun id session =>
      if (snapshot.get? id).isSome then session else { session with lifecycle := .retired } }

theorem find_observedSessions (snapshot : SortedMap Nat SwapChainObservation)
    (primary : Option Nat) (registry : SwapChainRegistry) (id : Nat) :
    SortedMap.find id (registry.observedSessions snapshot primary) = (snapshot.get? id).map
      fun observation => observed registry.failurePolicy primary observation id (registry.get? id) := by
  unfold observedSessions SortedMap.get?
  induction snapshot.toList with
  | nil => rfl
  | cons entry _ ih =>
    rw [List.map_cons, SortedMap.find, SortedMap.find]
    by_cases hid : entry.1 = id
    · simp [hid]
    · simp only [hid, if_false]
      exact ih

theorem get?_reconcile (observations : List SwapChainObservation) (primary : Option Nat)
    (registry : SwapChainRegistry) (id : Nat) :
    (registry.reconcile observations primary).get? id =
      match (snapshotOf observations).get? id with
      | some observation =>
        some (observed registry.failurePolicy primary observation id (registry.get? id))
      | none => (registry.get? id).map fun session => { session with lifecycle := .retired } := by
  have hnodup : ((registry.observedSessions (snapshotOf observations) primary).map
      Prod.fst).Nodup := by
    unfold observedSessions
    rw [List.map_map]
    exact (snapshotOf observations).sorted.imp fun h => ne_of_lt h
  unfold reconcile get?
  rw [SortedMap.get?_mapEntries, SortedMap.get?_foldl_put hnodup, find_observedSessions]
  rcases (snapshotOf observations).get? id with _ | observation
  · rfl
  · rfl

end SwapChainRegistry

end Nexus.Render
