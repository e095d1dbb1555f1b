import Nexus.CallbackGate
import Nexus.StepRuns

namespace Nexus.Caller

open StepRuns

/-- The ownership authority. `panics` tells which of the questions put to it in one call unwind. -/
structure AddressOwnerResolver where
  owners : Nat → Option OwnerToken
  current : OwnerToken → Bool
  panics : Nat → Bool

/-- What was asked and answered, for the record only. -/
inductive Answer where
  | mapped (address : Nat) (owner : Option OwnerToken)
  | current (owner : OwnerToken) (isCurrent : Bool)
  | panicked
  deriving DecidableEq

/-- A question to injected code, whose panic is contained. -/
def ask {α : Type} (resolver : AddressOwnerResolver) (answer : Answer) (value : α) :
    Fallible (List Answer) Unit α := fun log =>
  if resolver.panics log.length then (.error (), .panicked :: log)
  else (.ok value, answer :: log)

def ownerForAddress (resolver : AddressOwnerResolver) (address : Nat) :
    Fallible (List Answer) Unit (Option OwnerToken) :=
  ask resolver (.mapped address (resolver.owners address)) (resolver.owners address)

def ownerIsCurrent (resolver : AddressOwnerResolver) (owner : OwnerToken) :
    Fallible (List Answer) Unit Bool :=
  ask resolver (.current owner (resolver.current owner)) (resolver.current owner)

def validatedAddress (resolver : AddressOwnerResolver) (address : Nat) :
    Fallible (List Answer) Unit (Option OwnerToken) := do
  match ← ownerForAddress resolver address with
  | none => pure none
  | some owner => if ← ownerIsCurrent resolver owner then pure (some owner) else pure none

def stackFrameCapacity : Nat := 64

/-- What a capture left in the frame buffer, and how many frames it reports. -/
structure StackCapture where
  written : List Nat
  captured : Nat

def StackCapture.frames (capture : StackCapture) : List Nat :=
  ((capture.written ++ List.replicate stackFrameCapacity 0).take stackFrameCapacity).take
    (min capture.captured stackFrameCapacity)

def resolveFrames (resolver : AddressOwnerResolver) :
    List Nat → Fallible (List Answer) Unit (Option OwnerToken)
  | [] => pure none
  | frame :: frames =>
    if frame = 0 then resolveFrames resolver frames
    else do
      match ← validatedAddress resolver frame with
      | some owner => pure (some owner)
      | none => resolveFrames resolver frames

/-- `capture` is `none` where the capture panics. -/
def resolveStack (resolver : AddressOwnerResolver) (capture : Option StackCapture) :
    Fallible (List Answer) Unit (Option OwnerToken) :=
  match capture with
  | none => fun log => (.error (), .panicked :: log)
  | some capture => resolveFrames resolver capture.frames

structure ScopeFrame where
  id : Nat
  owner : OwnerToken
  deriving DecidableEq

structure ScopeStack where
  nextId : Nat
  frames : List ScopeFrame
  deriving DecidableEq

namespace ScopeStack

def new : ScopeStack := ⟨1, []⟩

def push (owner : OwnerToken) (stack : ScopeStack) : Option (Nat × ScopeStack) :=
  if stack.nextId + 1 = 2 ^ 64 then none
  else some (stack.nextId, ⟨stack.nextId + 1, stack.frames ++ [⟨stack.nextId, owner⟩]⟩)

def removeOwnerScope (id : Nat) (stack : ScopeStack) : ScopeStack :=
  { stack with frames := stack.frames.eraseP fun frame => frame.id = id }

def innermost (stack : ScopeStack) : Option OwnerToken :=
  stack.frames.getLast?.map ScopeFrame.owner

end ScopeStack

/-- `scopes` is `none` where the thread-local state is not available. -/
def currentScopedOwner (scopes : Option ScopeStack) :
    Fallible (List Answer) Unit (Option OwnerToken) :=
  match scopes with
  | none => Fallible.fail ()
  | some stack => pure stack.innermost

def resolveActualInner (resolver : AddressOwnerResolver) (scopes : Option ScopeStack)
    (capture : Option StackCapture) : Fallible (List Answer) Unit (Option OwnerToken) := do
  match ← currentScopedOwner scopes with
  | some owner =>
    if ← ownerIsCurrent resolver owner then pure (some owner)
    -- a stale scope is passed over
    else resolveStack resolver capture
  | none => resolveStack resolver capture

def resolveRegisteredAddressInner (resolver : AddressOwnerResolver) (scopes : Option ScopeStack)
    (capture : Option StackCapture) (address : Nat) :
    Fallible (List Answer) Unit (Option OwnerToken) := do
  match ← resolveActualInner resolver scopes capture with
  | none => pure none
  | some actual =>
    match ← validatedAddress resolver address with
    | none => pure none
    | some registered => pure (if actual = registered then some actual else none)

/-- Every contained panic leaves nothing resolved. -/
def contained (result : Except Unit (Option OwnerToken)) : Option OwnerToken :=
  match result with
  | .ok owner => owner
  | .error () => none

def resolveActual (resolver : AddressOwnerResolver) (scopes : Option ScopeStack)
    (capture : Option StackCapture) : Option OwnerToken × List Answer :=
  let outcome := resolveActualInner resolver scopes capture []
  (contained outcome.1, outcome.2)

def resolveRegisteredAddress (resolver : AddressOwnerResolver) (scopes : Option ScopeStack)
    (capture : Option StackCapture) (address : Nat) : Option OwnerToken × List Answer :=
  let outcome := resolveRegisteredAddressInner resolver scopes capture address []
  (contained outcome.1, outcome.2)

/-- What happened to the scopes of one thread, for the record only. -/
inductive ScopeEvent where
  | entered (frame : ScopeFrame)
  | dropped (id : Nat)
  deriving DecidableEq

/-- The scopes of one thread, with the guards that were handed out and not dropped. -/
structure ScopeWorld where
  stack : ScopeStack
  guards : List Nat
  log : List ScopeEvent
  deriving DecidableEq

/-- `admitted` is what the resolver answers when a scope is entered; guards are dropped in any order. -/
inductive ScopeAction where
  | enter (owner : OwnerToken) (admitted : Bool)
  | drop (id : Nat)

namespace ScopeWorld

def start : ScopeWorld := ⟨.new, [], []⟩

def enterOwnerScope (owner : OwnerToken) (admitted : Bool) (world : ScopeWorld) : ScopeWorld :=
  if admitted then
    match world.stack.push owner with
    | some (id, stack) =>
      ⟨stack, id :: world.guards, .entered ⟨id, owner⟩ :: world.log⟩
    | none => world
  else world

def scopes (available : Bool) (world : ScopeWorld) : Option ScopeStack :=
  if available then some world.stack else none

def step (world : ScopeWorld) : ScopeAction → Option ScopeWorld
  | .enter owner admitted => some (world.enterOwnerScope owner admitted)
  | .drop id =>
    if id ∈ world.guards then
      some ⟨world.stack.removeOwnerScope id, world.guards.erase id, .dropped id :: world.log⟩
    else none

end ScopeWorld

end Nexus.Caller
