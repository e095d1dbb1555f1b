import Mathlib.Data.String.Basic
import Nexus.CallbackGate
import Nexus.SortedMap
import Nexus.StepRuns

namespace Nexus.Events

/-! The event bus. A handler does what it likes: between its start and its return its thread may take
any steps. -/

/-- `marker` tells the insertions apart; the admission of a subscription goes by it too. -/
structure Subscription where
  owner : OwnerToken
  callbackId : Nat
  marker : Nat
  deriving DecidableEq

structure AdmissionState where
  accepting : Bool
  inFlight : Nat
  byThread : Nat → Nat

namespace AdmissionState

def opened : AdmissionState := ⟨true, 0, fun _ => 0⟩

def enter (thread : Nat) (state : AdmissionState) : AdmissionState :=
  { state with
    inFlight := state.inFlight + 1
    byThread := Function.update state.byThread thread (state.byThread thread + 1) }

def close (state : AdmissionState) : AdmissionState := { state with accepting := false }

def leave (thread : Nat) (state : AdmissionState) : AdmissionState :=
  { state with
    inFlight := state.inFlight - 1
    byThread := Function.update state.byThread thread (state.byThread thread - 1) }

end AdmissionState

structure DispatchReport where
  invoked : Nat
  panicked : Nat
  deriving DecidableEq

/-- A generation without retiring callbacks has an empty list. -/
structure EventRegistry where
  subscriptions : SortedMap String (List Subscription)
  retiredGenerations : SortedMap Nat Nat
  retiring : OwnerToken → List Nat

inductive BusEvent where
  | subscribed (identifier : String) (subscription : Subscription)
  | removed (gone : List Subscription)
  | closed (marker : Nat)
  deriving DecidableEq

inductive TurnOutcome where
  | skipped
  | returned
  | panicked
  deriving DecidableEq

/-- One turn of a dispatch. `log` is what had happened when it came, newest first. -/
structure Turn where
  subscription : Subscription
  log : List BusEvent
  outcome : TurnOutcome

/-- A call of `dispatch`. `log` is what had happened when the snapshot was taken, `turns` are those
taken so far. -/
structure Dispatch where
  identifier : String
  target : Option Nat
  rest : List Subscription
  owners : List OwnerToken
  report : DispatchReport
  running : Option (Subscription × List BusEvent)
  log : List BusEvent
  turns : List Turn

inductive Retirement where
  | exact
  | owner (owner : OwnerToken)
  deriving DecidableEq

inductive Ending where
  | dispatch (dispatch : Dispatch)
  | exact (removed : List Subscription)

inductive Call where
  | dispatching (dispatch : Dispatch)
  | closing (retirement : Retirement) (pending removed : List Subscription)
      (owners : List OwnerToken)
  | waiting (pending removed : List Subscription) (owners : List OwnerToken)
  | reaping (owners : List OwnerToken) (ending : Ending)
  | retiring (owner : OwnerToken) (retired : Nat)

/-- `writer` holds the write lock beyond one step; `calls` are the calls of each thread, innermost
first. `log` is what happened to subscriptions, newest first; `finished` are the dispatches that
returned, `quiescent` the owners whose removal returned a quiescent report, and `unsubscribed` the
exact removals that returned, by thread. -/
structure EventBus where
  registry : EventRegistry
  admissions : Nat → AdmissionState
  markers : Nat
  writer : Option Nat
  calls : Nat → List Call
  log : List BusEvent
  finished : List Dispatch
  quiescent : List OwnerToken
  unsubscribed : List (Nat × List Subscription)

namespace EventBus

def new : EventBus where
  registry := ⟨.empty, .empty, fun _ => []⟩
  admissions _ := .opened
  markers := 0
  writer := none
  calls _ := []
  log := []
  finished := []
  quiescent := []
  unsubscribed := []

def mayCall (bus : EventBus) (thread : Nat) : Bool :=
  match bus.calls thread with
  | [] => true
  | .dispatching dispatch :: _ => dispatch.running.isSome
  | _ => false

def setCalls (thread : Nat) (calls : List Call) (bus : EventBus) : EventBus :=
  { bus with calls := Function.update bus.calls thread calls }

def push (thread : Nat) (call : Call) (bus : EventBus) : EventBus :=
  bus.setCalls thread (call :: bus.calls thread)

def setAdmission (marker : Nat) (state : AdmissionState) (bus : EventBus) : EventBus :=
  { bus with admissions := Function.update bus.admissions marker state }

def setRetiring (owner : OwnerToken) (markers : List Nat) (bus : EventBus) : EventBus :=
  { bus with registry := { bus.registry with
      retiring := Function.update bus.registry.retiring owner markers } }

def registered (bus : EventBus) (identifier : String) : List Subscription :=
  (bus.registry.subscriptions.get? identifier).getD []

def subscribe (identifier : String) (owner : OwnerToken) (callbackId : Nat) (bus : EventBus) :
    EventBus :=
  let subscription : Subscription := ⟨owner, callbackId, bus.markers⟩
  if (bus.registry.retiredGenerations.get? owner.signature).any fun generation =>
      owner.generation ≤ generation then
    { bus with markers := bus.markers + 1 }
  else
    { bus with
      markers := bus.markers + 1
      registry := { bus.registry with subscriptions :=
        bus.registry.subscriptions.put identifier (bus.registered identifier ++ [subscription]) }
      log := .subscribed identifier subscription :: bus.log }

/-- `retire_matching`, up to the first `close`. -/
def retireMatching (thread : Nat) (identifier : String) (gone : Subscription → Bool)
    (bus : EventBus) : EventBus :=
  let removed := (bus.registered identifier).filter gone
  let kept := (bus.registered identifier).filter fun subscription => !gone subscription
  { bus.push thread (.closing .exact removed removed []) with
    writer := some thread
    registry := { bus.registry with subscriptions :=
      if kept = [] then bus.registry.subscriptions.erase identifier
      else bus.registry.subscriptions.put identifier kept }
    log := .removed removed :: bus.log }

/-- `remove_owner`, up to the first `close`. -/
def removeOwner (thread : Nat) (owner : OwnerToken) (bus : EventBus) : EventBus :=
  let generation := (bus.registry.retiredGenerations.get? owner.signature).getD owner.generation
  let removed := bus.registry.subscriptions.values.flatMap fun subscriptions =>
    subscriptions.filter fun subscription => subscription.owner = owner
  { bus.push thread (.closing (.owner owner) removed removed []) with
    writer := some thread
    registry := { bus.registry with
      retiredGenerations := bus.registry.retiredGenerations.put owner.signature
        (max generation owner.generation)
      subscriptions := (bus.registry.subscriptions.mapValues fun subscriptions =>
        subscriptions.filter fun subscription => subscription.owner ≠ owner).filter
          fun _ subscriptions => subscriptions ≠ [] }
    log := .removed removed :: bus.log }

def Targets (target : Option Nat) (subscription : Subscription) : Bool :=
  target.all fun signature => subscription.owner.signature = signature

/-- `dispatch`, up to its first turn. -/
def raise (thread : Nat) (identifier : String) (target : Option Nat) (bus : EventBus) : EventBus :=
  bus.push thread (.dispatching {
    identifier
    target
    rest := (bus.registered identifier).filter (Targets target)
    owners := []
    report := ⟨0, 0⟩
    running := none
    log := bus.log
    turns := [] })

def addOwner (owner : OwnerToken) (owners : List OwnerToken) : List OwnerToken :=
  if owner ∈ owners then owners else owners ++ [owner]

def turn (thread : Nat) (dispatch : Dispatch) (outer : List Call) (bus : EventBus) : EventBus :=
  match dispatch.rest with
  | [] => bus.setCalls thread (.reaping dispatch.owners (.dispatch dispatch) :: outer)
  | subscription :: rest =>
    let dispatch := { dispatch with rest, owners := addOwner subscription.owner dispatch.owners }
    let admission := bus.admissions subscription.marker
    if admission.accepting then
      (bus.setAdmission subscription.marker (admission.enter thread)).setCalls thread
        (.dispatching { dispatch with
          report := { dispatch.report with invoked := dispatch.report.invoked + 1 }
          running := some (subscription, bus.log) } :: outer)
    else
      bus.setCalls thread (.dispatching { dispatch with
        turns := dispatch.turns ++ [⟨subscription, bus.log, .skipped⟩] } :: outer)

def handlerDone (thread : Nat) (dispatch : Dispatch) (subscription : Subscription)
    (log : List BusEvent) (panicked : Bool) (outer : List Call) (bus : EventBus) : EventBus :=
  (bus.setAdmission subscription.marker
    ((bus.admissions subscription.marker).leave thread)).setCalls thread
      (.dispatching { dispatch with
        report := if panicked then { dispatch.report with panicked := dispatch.report.panicked + 1 }
          else dispatch.report
        running := none
        turns := dispatch.turns ++
          [⟨subscription, log, if panicked then .panicked else .returned⟩] } :: outer)

def quiet (bus : EventBus) (owner : OwnerToken) : Bool :=
  (bus.registry.retiring owner).all fun marker => (bus.admissions marker).inFlight = 0

def reapQuiescent (owner : OwnerToken) (bus : EventBus) : EventBus :=
  if bus.quiet owner then bus.setRetiring owner [] else bus

/-- The end of `remove_owner`. -/
def ownerRetirement (owner : OwnerToken) (bus : EventBus) : EventBus :=
  let inFlight := ((bus.registry.retiring owner).map fun marker =>
    (bus.admissions marker).inFlight).sum
  if inFlight = 0 then { bus.setRetiring owner [] with quiescent := owner :: bus.quiescent }
  else bus

def stage (thread : Nat) (retirement : Retirement) (subscription : Subscription)
    (pending removed : List Subscription) (owners : List OwnerToken) (outer : List Call)
    (bus : EventBus) : EventBus :=
  let closed := bus.setAdmission subscription.marker (bus.admissions subscription.marker).close
  let staged := closed.setRetiring subscription.owner
    (bus.registry.retiring subscription.owner ++ [subscription.marker])
  { staged.setCalls thread
      (.closing retirement pending removed (addOwner subscription.owner owners) :: outer) with
    log := .closed subscription.marker :: bus.log }

def finish (thread : Nat) (ending : Ending) (bus : EventBus) : EventBus :=
  match ending with
  | .dispatch dispatch => { bus with finished := dispatch :: bus.finished }
  | .exact removed => { bus with unsubscribed := (thread, removed) :: bus.unsubscribed }

def proceed (thread : Nat) (bus : EventBus) : Option EventBus :=
  match bus.calls thread with
  | [] => none
  | .dispatching dispatch :: outer =>
    if dispatch.running.isNone then some (bus.turn thread dispatch outer) else none
  | .closing retirement (subscription :: pending) removed owners :: outer =>
    some (bus.stage thread retirement subscription pending removed owners outer)
  | .closing .exact [] removed owners :: outer =>
    some { bus.setCalls thread (.waiting removed removed owners :: outer) with writer := none }
  | .closing (.owner owner) [] removed _ :: outer =>
    some { bus.setCalls thread (.retiring owner removed.length :: outer) with writer := none }
  | .waiting (subscription :: pending) removed owners :: outer =>
    let admission := bus.admissions subscription.marker
    if admission.inFlight ≤ admission.byThread thread then
      some (bus.setCalls thread (.waiting pending removed owners :: outer))
    else none
  | .waiting [] removed owners :: outer =>
    some (bus.setCalls thread (.reaping owners (.exact removed) :: outer))
  | .reaping (owner :: owners) ending :: outer =>
    if bus.writer = none then
      some ((bus.reapQuiescent owner).setCalls thread (.reaping owners ending :: outer))
    else none
  | .reaping [] ending :: outer => some ((bus.finish thread ending).setCalls thread outer)
  | .retiring owner _ :: outer =>
    if bus.writer = none then some ((bus.ownerRetirement owner).setCalls thread outer) else none

def handlerReturns (thread : Nat) (panicked : Bool) (bus : EventBus) : Option EventBus :=
  match bus.calls thread with
  | .dispatching dispatch :: outer =>
    dispatch.running.map fun (subscription, log) =>
      bus.handlerDone thread dispatch subscription log panicked outer
  | _ => none

end EventBus

inductive BusAction where
  | subscribe (thread : Nat) (identifier : String) (owner : OwnerToken) (callbackId : Nat)
  | unsubscribeRegistration (thread : Nat) (identifier : String) (marker : Nat)
  | unsubscribe (thread : Nat) (identifier : String) (callbackId : Nat)
  | unsubscribeOwner (thread : Nat) (identifier : String) (owner : OwnerToken) (callbackId : Nat)
  | removeOwner (thread : Nat) (owner : OwnerToken)
  | raise (thread : Nat) (identifier : String)
  | raiseTargeted (thread : Nat) (signature : Nat) (identifier : String)
  | proceed (thread : Nat)
  | handlerReturns (thread : Nat) (panicked : Bool)

namespace EventBus

def call (thread : Nat) (operation : EventBus → EventBus) (bus : EventBus) : Option EventBus :=
  if bus.mayCall thread ∧ bus.writer = none then some (operation bus) else none

def step (bus : EventBus) : BusAction → Option EventBus
  | .subscribe thread identifier owner callbackId =>
    bus.call thread (subscribe identifier owner callbackId)
  | .unsubscribeRegistration thread identifier marker =>
    bus.call thread (retireMatching thread identifier fun subscription =>
      subscription.marker = marker)
  | .unsubscribe thread identifier callbackId =>
    bus.call thread (retireMatching thread identifier fun subscription =>
      subscription.callbackId = callbackId)
  | .unsubscribeOwner thread identifier owner callbackId =>
    bus.call thread (retireMatching thread identifier fun subscription =>
      subscription.owner = owner ∧ subscription.callbackId = callbackId)
  | .removeOwner thread owner => bus.call thread (removeOwner thread owner)
  | .raise thread identifier => bus.call thread (raise thread identifier none)
  | .raiseTargeted thread signature identifier =>
    bus.call thread (raise thread identifier (some signature))
  | .proceed thread => bus.proceed thread
  | .handlerReturns thread panicked => bus.handlerReturns thread panicked

end EventBus

/-! The steps of the bus, one by one. -/

inductive Move (bus : EventBus) : EventBus → Prop
  | subscribed (identifier : String) (owner : OwnerToken) (callbackId : Nat) :
      bus.writer = none → Move bus (bus.subscribe identifier owner callbackId)
  | matched (thread : Nat) (identifier : String) (gone : Subscription → Bool) :
      bus.mayCall thread = true → bus.writer = none →
      Move bus (bus.retireMatching thread identifier gone)
  | removed (thread : Nat) (owner : OwnerToken) : bus.mayCall thread = true → bus.writer = none →
      Move bus (bus.removeOwner thread owner)
  | raised (thread : Nat) (identifier : String) (target : Option Nat) :
      bus.mayCall thread = true → bus.writer = none → Move bus (bus.raise thread identifier target)
  | turned {thread : Nat} {dispatch : Dispatch} {outer : List Call} :
      bus.calls thread = .dispatching dispatch :: outer → dispatch.running = none →
      Move bus (bus.turn thread dispatch outer)
  | returned {thread : Nat} {dispatch : Dispatch} {outer : List Call}
      {subscription : Subscription} {log : List BusEvent} (panicked : Bool) :
      bus.calls thread = .dispatching dispatch :: outer →
      dispatch.running = some (subscription, log) →
      Move bus (bus.handlerDone thread dispatch subscription log panicked outer)
  | staged {thread : Nat} {retirement : Retirement} {subscription : Subscription}
      {pending removed : List Subscription} {owners : List OwnerToken} {outer : List Call} :
      bus.calls thread = .closing retirement (subscription :: pending) removed owners :: outer →
      Move bus (bus.stage thread retirement subscription pending removed owners outer)
  | unlocked {thread : Nat} {retirement : Retirement} {removed : List Subscription}
      {owners : List OwnerToken} {outer : List Call} {call : Call} :
      bus.calls thread = .closing retirement [] removed owners :: outer →
      (retirement = .exact ∧ call = .waiting removed removed owners ∨
        ∃ owner, retirement = .owner owner ∧ call = .retiring owner removed.length) →
      Move bus { bus.setCalls thread (call :: outer) with writer := none }
  | waited {thread : Nat} {subscription : Subscription} {pending removed : List Subscription}
      {owners : List OwnerToken} {outer : List Call} :
      bus.calls thread = .waiting (subscription :: pending) removed owners :: outer →
      (bus.admissions subscription.marker).inFlight ≤
        (bus.admissions subscription.marker).byThread thread →
      Move bus (bus.setCalls thread (.waiting pending removed owners :: outer))
  | drained {thread : Nat} {removed : List Subscription} {owners : List OwnerToken}
      {outer : List Call} : bus.calls thread = .waiting [] removed owners :: outer →
      Move bus (bus.setCalls thread (.reaping owners (.exact removed) :: outer))
  | reaped {thread : Nat} {owner : OwnerToken} {owners : List OwnerToken} {ending : Ending}
      {outer : List Call} : bus.calls thread = .reaping (owner :: owners) ending :: outer →
      bus.writer = none →
      Move bus ((bus.reapQuiescent owner).setCalls thread (.reaping owners ending :: outer))
  | finished {thread : Nat} {ending : Ending} {outer : List Call} :
      bus.calls thread = .reaping [] ending :: outer →
      Move bus ((bus.finish thread ending).setCalls thread outer)
  | retired {thread : Nat} {owner : OwnerToken} {count : Nat} {outer : List Call} :
      bus.calls thread = .retiring owner count :: outer → bus.writer = none →
      Move bus ((bus.ownerRetirement owner).setCalls thread outer)

namespace EventBus

variable {bus next : EventBus}

@[simp] theorem admissions_setAdmission (bus : EventBus) (marker other : Nat)
    (state : AdmissionState) : (bus.setAdmission marker state).admissions other =
      if other = marker then state else bus.admissions other :=
  Function.update_apply ..

@[simp] theorem calls_setCalls (bus : EventBus) (thread other : Nat) (calls : List Call) :
    (bus.setCalls thread calls).calls other =
      if other = thread then calls else bus.calls other :=
  Function.update_apply ..

theorem move_of_call {thread : Nat} {operation : EventBus → EventBus}
    (h : bus.call thread operation = some next)
    (hmove : bus.mayCall thread = true → bus.writer = none → Move bus (operation bus)) :
    Move bus next := by
  unfold call at h
  split at h
  next hfree =>
    cases h
    exact hmove hfree.1 hfree.2
  next => cases h

theorem move_of_proceed {thread : Nat} (h : bus.proceed thread = some next) : Move bus next := by
  unfold proceed at h
  split at h
  next => cases h
  next outer hcalls =>
    split at h
    next hidle =>
      cases h
      exact .turned hcalls (Option.isNone_iff_eq_none.mp hidle)
    next => cases h
  next hcalls =>
    cases h
    exact .staged hcalls
  next hcalls =>
    cases h
    exact .unlocked hcalls (Or.inl ⟨rfl, rfl⟩)
  next owner _ _ _ hcalls =>
    cases h
    exact .unlocked hcalls (Or.inr ⟨owner, rfl, rfl⟩)
  next hcalls =>
    dsimp only at h
    split at h
    next hfree =>
      cases h
      exact .waited hcalls hfree
    next => cases h
  next hcalls =>
    cases h
    exact .drained hcalls
  next hcalls =>
    split at h
    next hfree =>
      cases h
      exact .reaped hcalls hfree
    next => cases h
  next hcalls =>
    cases h
    exact .finished hcalls
  next hcalls =>
    split at h
    next hfree =>
      cases h
      exact .retired hcalls hfree
    next => cases h

theorem move_of_step {action : BusAction} (h : bus.step action = some next) : Move bus next := by
  cases action with
  | subscribe _ identifier owner callbackId =>
    exact move_of_call h fun _ => .subscribed identifier owner callbackId
  | unsubscribeRegistration thread identifier | unsubscribe thread identifier
  | unsubscribeOwner thread identifier =>
    exact move_of_call h (.matched thread identifier _)
  | removeOwner thread owner => exact move_of_call h (.removed thread owner)
  | raise thread identifier => exact move_of_call h (.raised thread identifier none)
  | raiseTargeted thread signature identifier =>
    exact move_of_call h (.raised thread identifier (some signature))
  | proceed => exact move_of_proceed h
  | handlerReturns thread panicked =>
    change bus.handlerReturns thread panicked = some next at h
    unfold handlerReturns at h
    split at h
    next hcalls =>
      obtain ⟨⟨_, _⟩, hrunning, rfl⟩ := Option.map_eq_some_iff.mp h
      exact .returned panicked hcalls hrunning
    next => cases h

end EventBus

end Nexus.Events
