import Nexus.SwapChainSessions

namespace Nexus.Render

structure ClassifierConfig where
  expectedGameWindow : Option Nat
  requireExpectedGameWindow : Bool
  userOverride : Option Nat
  minimumExtent : Extent2D
  staleAfterSequences : Nat

inductive RejectionReason where
  | zeroSized
  | missingWindowHandle
  | expectedWindowNotDiscovered
  | unexpectedWindow (expected actual : Nat)
  | belowMinimumExtent (minimum : Extent2D)
  | neverPresented
  | invisibleWindow
  | occluded
  | stale (latestSequence candidateSequence allowedLag : Nat)
  deriving DecidableEq

structure CandidateRejection where
  id : Nat
  reason : RejectionReason
  deriving DecidableEq

inductive OverrideStatus where
  | notRequested
  | applied (id : Nat)
  | unavailable (id : Nat)
  | ineligible (id : Nat) (reason : RejectionReason)
  deriving DecidableEq

inductive SelectionReason where
  | userOverride
  | onlyEligibleCandidate
  | expectedGameWindow
  | foregroundWindow
  | retainedPrimary
  | largestSurface
  | longestActiveStreak
  | mostRecentPresentation
  | highestPresentationCount
  | stableIdentityTieBreak
  deriving DecidableEq

inductive NoSelectionReason where
  | noObservations
  | noEligibleCandidates
  deriving DecidableEq

structure Classification where
  selected : Option Nat
  selectionReason : Option SelectionReason
  noSelectionReason : Option NoSelectionReason
  overrideStatus : OverrideStatus
  rejected : List CandidateRejection
  deriving DecidableEq

structure PrimarySwapChainClassifier where
  config : ClassifierConfig
  current : Option Nat

namespace PrimarySwapChainClassifier

def tryOverride (observations : List SwapChainObservation)
    (classifier : PrimarySwapChainClassifier) : OverrideStatus :=
  match classifier.config.userOverride with
  | none => .notRequested
  | some id =>
    match observations.find? fun observation => observation.id = id with
    | none => .unavailable id
    | some observation =>
      if observation.size.isZero then .ineligible id .zeroSized else .applied id

def rejectionReason (observation : SwapChainObservation) (latestSequence : Nat)
    (classifier : PrimarySwapChainClassifier) : Option RejectionReason :=
  let config := classifier.config
  if observation.size.isZero then some .zeroSized
  else
    match observation.hwnd with
    | none => some .missingWindowHandle
    | some hwnd =>
      if config.requireExpectedGameWindow ∧ config.expectedGameWindow = none then
        some .expectedWindowNotDiscovered
      else
        match config.expectedGameWindow.filter fun expected => hwnd ≠ expected with
        | some expected => some (.unexpectedWindow expected hwnd)
        | none =>
          if observation.size.width < config.minimumExtent.width ∨
              observation.size.height < config.minimumExtent.height then
            some (.belowMinimumExtent config.minimumExtent)
          else if observation.activity.presentCount = 0 then some .neverPresented
          else if ¬ observation.activity.windowVisible then some .invisibleWindow
          else if observation.activity.occluded then some .occluded
          else if config.staleAfterSequences <
              latestSequence - observation.activity.lastPresentSequence then
            some (.stale latestSequence observation.activity.lastPresentSequence
              config.staleAfterSequences)
          else none

def matchesExpectedWindow (observation : SwapChainObservation)
    (classifier : PrimarySwapChainClassifier) : Bool :=
  classifier.config.expectedGameWindow.isSome &&
    observation.hwnd = classifier.config.expectedGameWindow

def isCurrent (observation : SwapChainObservation) (classifier : PrimarySwapChainClassifier) :
    Bool := classifier.current = some observation.id

/-- The order of the candidates' ranks. Among equal signals the lower identity is greater. -/
def compareRanks (left right : SwapChainObservation) (classifier : PrimarySwapChainClassifier) :
    Ordering :=
  (compare (classifier.matchesExpectedWindow left) (classifier.matchesExpectedWindow right)).then <|
  (compare left.activity.foreground right.activity.foreground).then <|
  (compare left.size.area right.size.area).then <|
  (compare (classifier.isCurrent left) (classifier.isCurrent right)).then <|
  (compare left.activity.consecutivePresentCycles
    right.activity.consecutivePresentCycles).then <|
  (compare left.activity.lastPresentSequence right.activity.lastPresentSequence).then <|
  (compare left.activity.presentCount right.activity.presentCount).then <|
  compare right.id left.id

def selectionReason (winner runnerUp : SwapChainObservation)
    (classifier : PrimarySwapChainClassifier) : SelectionReason :=
  if classifier.matchesExpectedWindow winner ≠ classifier.matchesExpectedWindow runnerUp then
    .expectedGameWindow
  else if winner.activity.foreground ≠ runnerUp.activity.foreground then .foregroundWindow
  else if winner.size.area ≠ runnerUp.size.area then .largestSurface
  else if classifier.isCurrent winner ≠ classifier.isCurrent runnerUp then .retainedPrimary
  else if winner.activity.consecutivePresentCycles ≠
      runnerUp.activity.consecutivePresentCycles then .longestActiveStreak
  else if winner.activity.lastPresentSequence ≠ runnerUp.activity.lastPresentSequence then
    .mostRecentPresentation
  else if winner.activity.presentCount ≠ runnerUp.activity.presentCount then
    .highestPresentationCount
  else .stableIdentityTieBreak

def winnerReason (winner : SwapChainObservation) (classifier : PrimarySwapChainClassifier) :
    List SwapChainObservation → SelectionReason
  | [] =>
    if classifier.matchesExpectedWindow winner then .expectedGameWindow
    else .onlyEligibleCandidate
  | runnerUp :: _ => classifier.selectionReason winner runnerUp

def classifyWithLatestPresentSequence (observations : List SwapChainObservation)
    (latestPresentSequence : Nat) (classifier : PrimarySwapChainClassifier) :
    Classification × PrimarySwapChainClassifier :=
  let overrideStatus := classifier.tryOverride observations
  match overrideStatus with
  | .applied id =>
    (⟨some id, some .userOverride, none, overrideStatus, []⟩, { classifier with current := some id })
  | _ =>
    let retainedLatestSequence := (observations.map fun observation =>
      observation.activity.lastPresentSequence).foldl max 0
    let latestSequence := max latestPresentSequence retainedLatestSequence
    let rejected := (observations.filterMap fun observation =>
      (classifier.rejectionReason observation latestSequence).map fun reason =>
        (⟨observation.id, reason⟩ : CandidateRejection)).mergeSort fun left right =>
          left.id ≤ right.id
    let eligible := (observations.filter fun observation =>
      (classifier.rejectionReason observation latestSequence).isNone).mergeSort
        fun left right => (classifier.compareRanks left right).isLE
    match eligible.reverse with
    | [] =>
      let reason := if observations.isEmpty then .noObservations else .noEligibleCandidates
      (⟨none, none, some reason, overrideStatus, rejected⟩, { classifier with current := none })
    | winner :: rest =>
      (⟨some winner.id, some (classifier.winnerReason winner rest), none, overrideStatus,
        rejected⟩, { classifier with current := some winner.id })

variable {observations : List SwapChainObservation} {latestPresentSequence : Nat}
  {classifier : PrimarySwapChainClassifier}

end PrimarySwapChainClassifier

end Nexus.Render
