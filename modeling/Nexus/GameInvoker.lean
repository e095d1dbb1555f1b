import Nexus.GameBindRegistry
import Nexus.Fallible

namespace Nexus

inductive GameInputError where
  | unbound
  | alreadyPressed
  | sinkFailed
  | sinkPanicked
  deriving DecidableEq

inductive GameSinkError where
  | dispatchFailed
  deriving DecidableEq

inductive GameMessage where
  | modifier (modifier : Modifier) (pressed system : Bool)
  | keyboard (scanCode : Fin (2 ^ 16)) (pressed system : Bool)
  | mouse (button : MouseButton) (pressed : Bool) (modifiers : ModifierState)
  deriving DecidableEq

def Modifier.all : List Modifier := [.alt, .control, .shift]

def modifierMessage (modifier : Modifier) (pressed : Bool) : GameMessage :=
  .modifier modifier pressed (modifier = .alt)

def mainMessage (binding : InputBind) (pressed : Bool) : Except GameInputError GameMessage :=
  if binding.device = .keyboard then .ok (.keyboard binding.code pressed binding.alt)
  else if binding.device = .mouse then
    match (MouseButton.fromCode binding.code).filter fun button => button ≠ .none with
    | some button => .ok (.mouse button pressed binding.modifiers)
    | none => .error .unbound
  else .error .unbound

def pressModifiers (desired physical : ModifierState) : List GameMessage :=
  Modifier.all.filterMap fun modifier =>
    if desired.get modifier then some (modifierMessage modifier true)
    else if physical.get modifier then some (modifierMessage modifier false)
    else none

def pressMessages (binding : InputBind) (physical : ModifierState) :
    Except GameInputError (List GameMessage) := do
  let main ← mainMessage binding true
  .ok (pressModifiers binding.modifiers physical ++ [main])

def restoreModifiers (physical : ModifierState) : List GameMessage :=
  Modifier.all.map fun modifier => modifierMessage modifier (physical.get modifier)

def releaseMessages (binding : InputBind) (physical : ModifierState) :
    Except GameInputError (List GameMessage) := do
  let main ← mainMessage binding false
  .ok (main :: restoreModifiers physical)

def releaseEach (physical : ModifierState) :
    List InputBind → Except GameInputError (List GameMessage)
  | [] => .ok []
  | binding :: rest => do
    let first ← releaseMessages binding physical
    let others ← releaseEach physical rest
    .ok (first ++ others)

inductive InvokeState where
  | pressed
  | released
  | scheduled
  deriving DecidableEq

structure GameDispatch where
  action : GameBindId
  state : InvokeState
  messageCount : Nat
  releaseDueMillis : Option Nat

structure GamePressToken where
  marker : Nat
  deriving DecidableEq

structure ActivePress where
  bindings : List InputBind
  releaseDueMillis : Option Nat
  marker : Nat

structure GameInvoker where
  registry : GameBindRegistry
  active : SortedMap GameBindId ActivePress

structure GamePlatform where
  physical : Nat → Call ModifierState
  sink : Nat → Call (Except GameSinkError Unit)

inductive GameDelivery where
  | press (binding : InputBind) (messages : List GameMessage)
  | release (physical : ModifierState) (messages : List GameMessage)
  deriving DecidableEq

def GameDelivery.messages : GameDelivery → List GameMessage
  | .press _ messages => messages
  | .release _ messages => messages

structure GameWorld where
  invoker : GameInvoker
  markers : Nat
  polls : Nat
  batches : Nat
  delivered : List GameDelivery

abbrev GameMethod := Fallible GameWorld GameInputError

namespace GameInvoker

open Fallible

def new (registry : GameBindRegistry) : GameWorld := ⟨⟨registry, .empty⟩, 0, 0, 0, []⟩

section Platform

variable (platform : GamePlatform)

def pollModifiers : GameMethod ModifierState := fun world =>
  match platform.physical world.polls with
  | .returned modifiers => (.ok modifiers, { world with polls := world.polls + 1 })
  | .unwound => (.error .sinkPanicked, { world with polls := world.polls + 1 })

def send (delivery : GameDelivery) : GameMethod Unit := fun world =>
  match platform.sink world.batches with
  | .returned (.ok ()) => (.ok (), { world with
      batches := world.batches + 1
      delivered := world.delivered ++ [delivery] })
  | .returned (.error _) => (.error .sinkFailed, { world with batches := world.batches + 1 })
  | .unwound => (.error .sinkPanicked, { world with batches := world.batches + 1 })

def setActive (active : SortedMap GameBindId ActivePress) (world : GameWorld) : GameWorld :=
  { world with invoker := { world.invoker with active } }

def boundNow (world : GameWorld) (action : GameBindId) : Option InputBind :=
  (world.invoker.registry.get action).bind MultiInputBind.selected

def sendPress (binding : InputBind) : GameMethod (List GameMessage) := do
  let physical ← pollModifiers platform
  let messages ← ofExcept id (pressMessages binding physical)
  send platform (.press binding messages)
  return messages

/-- The record of a press that just went out: the fresh marker is the number of markers made
so far. -/
def recordNew (action : GameBindId) (binding : InputBind) (world : GameWorld) : GameWorld :=
  { setActive (world.invoker.active.put action ⟨[binding], none, world.markers⟩) world with
    markers := world.markers + 1 }

def recordRepeat (action : GameBindId) (binding : InputBind) (world : GameWorld) : GameWorld :=
  match world.invoker.active.get? action with
  | some active =>
    if binding ∈ active.bindings then world
    else setActive (world.invoker.active.put action
      { active with bindings := active.bindings ++ [binding] }) world
  | none => world

def pressNewTracked (action : GameBindId) : GameMethod (GameDispatch × GamePressToken) := do
  let action := action.canonical
  let world ← read
  ensure (world.invoker.active.get? action = none) .alreadyPressed
  let binding ← require (boundNow world action) .unbound
  let messages ← sendPress platform binding
  let world ← read
  modify (recordNew action binding)
  return (⟨action, .pressed, messages.length, none⟩, ⟨world.markers⟩)

def press (action : GameBindId) : GameMethod GameDispatch := do
  let (dispatch, _) ← pressNewTracked platform action
  return dispatch

def pressRepeated (action : GameBindId) : GameMethod (GameDispatch × GamePressToken) := do
  let action := action.canonical
  let world ← read
  match world.invoker.active.get? action with
  | some active =>
    let binding ← require (boundNow world action) .unbound
    let messages ← sendPress platform binding
    modify (recordRepeat action binding)
    return (⟨action, .pressed, messages.length, none⟩, ⟨active.marker⟩)
  | none => pressNewTracked platform action

def bindingsToRelease (world : GameWorld) (action : GameBindId) : Option (List InputBind) :=
  ((world.invoker.active.get? action).map ActivePress.bindings).or
    ((boundNow world action).map fun binding => [binding])

def release (action : GameBindId) : GameMethod GameDispatch := do
  let action := action.canonical
  let world ← read
  let bindings ← require (bindingsToRelease world action) .unbound
  let physical ← pollModifiers platform
  let messages ← ofExcept id (releaseEach physical bindings.reverse)
  send platform (.release physical messages)
  modify fun world => setActive (world.invoker.active.erase action) world
  return ⟨action, .released, messages.length, none⟩

def releaseTracked (action : GameBindId) (token : GamePressToken) :
    GameMethod (Option GameDispatch) := do
  let action := action.canonical
  let world ← read
  if (world.invoker.active.get? action).any fun active => active.marker = token.marker then
    let dispatch ← release platform action
    return some dispatch
  else
    return none

def saturatingAdd64 (a b : Nat) : Nat := min (a + b) (2 ^ 64 - 1)

def schedule (action : GameBindId) (due : Nat) (world : GameWorld) : GameWorld :=
  match world.invoker.active.get? action with
  | some active => setActive (world.invoker.active.put action
      { active with releaseDueMillis := some due }) world
  | none => world

def invoke (action : GameBindId) (durationMillis nowMillis : Nat) : GameMethod GameDispatch := do
  let pressed ← press platform action
  if durationMillis = 0 then
    let released ← release platform pressed.action
    return ⟨pressed.action, .released, pressed.messageCount + released.messageCount, none⟩
  else
    let due := saturatingAdd64 nowMillis durationMillis
    modify (schedule pressed.action due)
    return ⟨pressed.action, .scheduled, pressed.messageCount, some due⟩

def releaseDue : List GameBindId → GameMethod (List GameDispatch)
  | [] => return []
  | action :: rest => do
    let dispatch ← release platform action
    let others ← releaseDue rest
    return dispatch :: others

def advance (nowMillis : Nat) : GameMethod (List GameDispatch) := do
  let world ← read
  releaseDue platform ((world.invoker.active.toList.filter fun item =>
    item.2.releaseDueMillis.any fun due => due ≤ nowMillis).map Prod.fst)

def releaseActions : List GameBindId → List GameDispatch → Option GameInputError →
    GameMethod (List GameDispatch)
  | [], dispatches, none => return dispatches
  | [], _, some error => fail error
  | action :: rest, dispatches, firstError => do
    match ← attempt (release platform action) with
    | .ok dispatch => releaseActions rest (dispatches ++ [dispatch]) firstError
    | .error error => releaseActions rest dispatches (firstError.or (some error))

def releaseAll : GameMethod (List GameDispatch) := do
  let world ← read
  releaseActions platform (world.invoker.active.toList.map Prod.fst) [] none

end Platform

end GameInvoker

end Nexus
