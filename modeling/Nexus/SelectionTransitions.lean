import Nexus.SortedMap
import Nexus.StepRuns

namespace Nexus.Selection

variable {δ : Type}

/-- What a render selection came to. A deferred one carries its diagnostic. -/
inductive SelectionTransition (δ : Type) where
  | resolved
  | deferred (diagnostic : δ)
  deriving DecidableEq

structure SelectionTransitionInFlight where
  sequence : Nat
  resetDeferral : Bool
  deriving DecidableEq

inductive SelectionTransitionAction (δ : Type) where
  | proceed
  | report (sequence : Nat) (diagnostic : δ)
  deriving DecidableEq

def SELECTION_TRANSITION_CAPACITY : Nat := 256

def SELECTION_REPORT_ATTEMPTS : Nat := 2

structure SelectionTransitionState (δ : Type) where
  latestSequence : Option Nat
  skippedThrough : Option Nat
  deferral : Option δ
  pending : SortedMap Nat (SelectionTransition δ)
  inFlight : Option SelectionTransitionInFlight
  retry : Option SelectionTransitionInFlight
  draining : Bool
  resetDeferralBeforeNext : Bool

namespace SelectionTransitionState

def default : SelectionTransitionState δ := ⟨none, none, none, .empty, none, none, false, false⟩

def nextExpectedSequence (state : SelectionTransitionState δ) : Nat :=
  match state.latestSequence with
  | none => 1
  | some latest => min (latest + 1) (2 ^ 64 - 1)

def expectedSequence (state : SelectionTransitionState δ) : Nat :=
  match state.retry with
  | some retry => retry.sequence
  | none => state.nextExpectedSequence

def hasReadyTransition (state : SelectionTransitionState δ) : Bool :=
  state.pending.toList.head?.any fun item => item.1 = state.expectedSequence

def advanceOverflowSkip (state : SelectionTransitionState δ) : SelectionTransitionState δ :=
  if state.inFlight.isSome || state.retry.isSome then state
  else
    match state.skippedThrough with
    | none => state
    | some skipped =>
      let state := { state with skippedThrough := none }
      if state.latestSequence.all (· < skipped) then { state with latestSequence := some skipped }
      else state

/-- Walks the keys from the last one down; `none` where only the protected one is left. -/
def retainedTailStart (protectedSequence : Option Nat) : Option Nat → List Nat → Option Nat
  | start, [] => start
  | start, sequence :: sequences =>
    if some sequence = protectedSequence then retainedTailStart protectedSequence start sequences
    else
      match start with
      | none => retainedTailStart protectedSequence (some sequence) sequences
      | some tail =>
        if sequence + 1 = tail then retainedTailStart protectedSequence (some sequence) sequences
        else some tail

def compactOverloadedTail (protectedSequence : Option Nat) (evictedSequence : Nat)
    (pending : SortedMap Nat (SelectionTransition δ)) :
    Nat × SortedMap Nat (SelectionTransition δ) :=
  match retainedTailStart protectedSequence none (pending.toList.map Prod.fst).reverse with
  | none => (evictedSequence, pending)
  | some start =>
    (max evictedSequence (start - 1),
      pending.filter fun sequence _ => some sequence = protectedSequence || start ≤ sequence)

def protectedSequence (state : SelectionTransitionState δ) : Option Nat :=
  (state.inFlight.or state.retry).map SelectionTransitionInFlight.sequence

def accepts (sequence : Nat) (state : SelectionTransitionState δ) : Bool :=
  sequence ≠ 0 && !(state.retry.any fun retry => retry.sequence = sequence) &&
    state.latestSequence.all (· < sequence) && state.skippedThrough.all (· < sequence) &&
    (state.pending.get? sequence).isNone

/-- Gives up the first transition that is not protected, and what is cut off by it. -/
def shedOverload (state : SelectionTransitionState δ) : SelectionTransitionState δ :=
  match (state.pending.toList.map Prod.fst).find? fun sequence =>
      some sequence ≠ state.protectedSequence with
  | none => state
  | some evicted =>
    let (skipped, pending) := compactOverloadedTail state.protectedSequence evicted
      (state.pending.erase evicted)
    { state with
      pending
      skippedThrough := some (match state.skippedThrough with
        | none => skipped
        | some earlier => max earlier skipped)
      resetDeferralBeforeNext := true }

def overloads (sequence : Nat) (transition : SelectionTransition δ)
    (state : SelectionTransitionState δ) : Bool :=
  state.accepts sequence &&
    SELECTION_TRANSITION_CAPACITY < (state.pending.put sequence transition).toList.length

def insert (sequence : Nat) (transition : SelectionTransition δ)
    (state : SelectionTransitionState δ) : SelectionTransitionState δ :=
  if state.accepts sequence then
    let inserted := { state with pending := state.pending.put sequence transition }
    if SELECTION_TRANSITION_CAPACITY < inserted.pending.toList.length then inserted.shedOverload
    else inserted
  else state

def enqueue (sequence : Nat) (transition : SelectionTransition δ)
    (state : SelectionTransitionState δ) : Bool × SelectionTransitionState δ :=
  let state := (state.insert sequence transition).advanceOverflowSkip
  if state.draining || !state.hasReadyTransition then (false, state)
  else (true, { state with draining := true })

def actOn [DecidableEq δ] (sequence : Nat) (transition : SelectionTransition δ)
    (state : SelectionTransitionState δ) :
    SelectionTransitionAction δ × SelectionTransitionState δ :=
  let resetDeferral := match state.retry with
    | some retry => retry.resetDeferral
    | none => state.resetDeferralBeforeNext
  let state := match state.retry with
    | some _ => { state with retry := none }
    | none => { state with resetDeferralBeforeNext := false }
  match transition with
  | .resolved =>
    (.proceed, { state with
      pending := state.pending.erase sequence
      latestSequence := some sequence
      deferral := none })
  | .deferred diagnostic =>
    if !resetDeferral && state.deferral = some diagnostic then
      (.proceed, { state with
        pending := state.pending.erase sequence
        latestSequence := some sequence })
    else (.report sequence diagnostic, { state with inFlight := some ⟨sequence, resetDeferral⟩ })

def nextAction [DecidableEq δ] (state : SelectionTransitionState δ) :
    Option (SelectionTransitionAction δ) × SelectionTransitionState δ :=
  let state := state.advanceOverflowSkip
  match state.pending.toList.head? with
  | none => (none, state)
  | some (sequence, transition) =>
    if sequence ≠ state.expectedSequence then (none, state)
    else
      let (action, state) := state.actOn sequence transition
      (some action, state)

/-- `none` where an assertion of the source fails. -/
def commitReport (sequence : Nat) (state : SelectionTransitionState δ) :
    Option (SelectionTransitionState δ) :=
  match state.inFlight, state.pending.get? sequence with
  | some inFlight, some (.deferred diagnostic) =>
    if inFlight.sequence = sequence then
      some { state with
        inFlight := none
        pending := state.pending.erase sequence
        latestSequence := some sequence
        deferral := some diagnostic }
    else none
  | _, _ => none

def abandonReporterBacklog (state : SelectionTransitionState δ) : SelectionTransitionState δ :=
  let last := state.pending.toList.getLast?
  let advancedThrough := max? (last.map Prod.fst) state.skippedThrough
  { state with
    latestSequence := if advancedThrough.any fun through =>
        state.latestSequence.all (· < through) then advancedThrough else state.latestSequence
    pending := .empty
    inFlight := none
    retry := none
    skippedThrough := none
    draining := false
    deferral := none
    resetDeferralBeforeNext := !(last.any fun item => match item.2 with
      | .resolved => true
      | .deferred _ => false) }
where
  max? : Option Nat → Option Nat → Option Nat
    | some a, some b => some (max a b)
    | some a, none => some a
    | none, b => b

end SelectionTransitionState

/-- Where a drainer stands: before the next action, at the reporter, or back from it. -/
inductive Drainer (δ : Type) where
  | looping
  | reporting (sequence : Nat) (diagnostic : δ) (attempts : Nat)
  | reported (sequence : Nat)
  | failed
  deriving DecidableEq

/-- What happened, for the record only. -/
inductive SelectionEvent (δ : Type) where
  | enqueued (sequence : Nat) (transition : SelectionTransition δ)
  | overloaded
  | processed (sequence : Nat) (transition : SelectionTransition δ) (isReported : Bool)
  | reported (sequence : Nat) (diagnostic : δ)
  | abandoned
  deriving DecidableEq

structure SelectionWorld (δ : Type) where
  state : SelectionTransitionState δ
  drainers : List (Drainer δ)
  log : List (SelectionEvent δ)

/-- A call enqueues, be it from within the reporter, or the drainer at a place goes on. -/
inductive SelectionStep (δ : Type) where
  | enqueue (sequence : Nat) (transition : SelectionTransition δ)
  | next (place : Nat)
  | attempt (place : Nat) (succeeds : Bool)
  | settle (place : Nat)

namespace SelectionWorld

def start : SelectionWorld δ := ⟨.default, [], []⟩

def enqueue (sequence : Nat) (transition : SelectionTransition δ) (world : SelectionWorld δ) :
    SelectionWorld δ :=
  let log := .enqueued sequence transition :: world.log
  let log := if world.state.overloads sequence transition then .overloaded :: log else log
  match world.state.enqueue sequence transition with
  | (true, state) => ⟨state, .looping :: world.drainers, log⟩
  | (false, state) => ⟨state, world.drainers, log⟩

def next [DecidableEq δ] (place : Nat) (world : SelectionWorld δ) : SelectionWorld δ :=
  match world.state.nextAction with
  | (none, state) => ⟨{ state with draining := false }, world.drainers.eraseIdx place, world.log⟩
  | (some .proceed, state) =>
    ⟨state, world.drainers, match world.state.advanceOverflowSkip.pending.toList.head? with
      | some (sequence, transition) => .processed sequence transition false :: world.log
      | none => world.log⟩
  | (some (.report sequence diagnostic), state) =>
    ⟨state, world.drainers.set place (.reporting sequence diagnostic 0),
      .processed sequence (.deferred diagnostic) true :: world.log⟩

/-- One call of the reporter; a panic is contained, and the last one gives up. -/
def attempt (place sequence : Nat) (diagnostic : δ) (attempts : Nat) (succeeds : Bool)
    (world : SelectionWorld δ) : SelectionWorld δ :=
  if succeeds then
    ⟨world.state, world.drainers.set place (.reported sequence),
      .reported sequence diagnostic :: world.log⟩
  else
    ⟨world.state, world.drainers.set place (if attempts + 1 = SELECTION_REPORT_ATTEMPTS then .failed
      else .reporting sequence diagnostic (attempts + 1)), world.log⟩

def nextAt [DecidableEq δ] (place : Nat) (world : SelectionWorld δ) : Option (SelectionWorld δ) :=
  match world.drainers[place]? with
  | some .looping => some (world.next place)
  | _ => none

def attemptAt (place : Nat) (succeeds : Bool) (world : SelectionWorld δ) :
    Option (SelectionWorld δ) :=
  match world.drainers[place]? with
  | some (.reporting sequence diagnostic attempts) =>
    some (world.attempt place sequence diagnostic attempts succeeds)
  | _ => none

def settleAt (place : Nat) (world : SelectionWorld δ) : Option (SelectionWorld δ) :=
  match world.drainers[place]? with
  | some (.reported sequence) => (world.state.commitReport sequence).map fun state =>
      ⟨state, world.drainers.set place .looping, world.log⟩
  | some .failed => some ⟨world.state.abandonReporterBacklog, world.drainers.eraseIdx place,
      .abandoned :: world.log⟩
  | _ => none

def step [DecidableEq δ] (world : SelectionWorld δ) :
    SelectionStep δ → Option (SelectionWorld δ)
  | .enqueue sequence transition =>
    if sequence < 2 ^ 64 then some (world.enqueue sequence transition) else none
  | .next place => world.nextAt place
  | .attempt place succeeds => world.attemptAt place succeeds
  | .settle place => world.settleAt place

end SelectionWorld

end Nexus.Selection
