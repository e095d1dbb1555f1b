import Nexus.ManagedMapping
import Nexus.Fallible
import Mathlib.Logic.Function.Basic

namespace Nexus

inductive RegisterOutcome where
  | boundDefault
  | preservedExisting
  | conflictCleared
  deriving DecidableEq

structure ManagedRegistrationToken where
  marker : Nat
  deriving DecidableEq

structure InvokeOutcome where
  dispatched : Bool
  consumed : Bool
  panicked : Bool
  disabled : Bool
  deriving DecidableEq

def InvokeOutcome.default : InvokeOutcome := ⟨false, false, false, false⟩

structure RouteOutcome where
  consumed : Bool
  dispatched : Nat
  callbackPanics : Nat
  deriving DecidableEq

namespace RouteOutcome

def default : RouteOutcome := ⟨false, 0, 0⟩

def mergeInvoke (route : RouteOutcome) (outcome : InvokeOutcome) : RouteOutcome :=
  { route with
    dispatched := route.dispatched + outcome.dispatched.toNat
    callbackPanics := route.callbackPanics + outcome.panicked.toNat }

def merge (target source : RouteOutcome) : RouteOutcome :=
  ⟨target.consumed || source.consumed, target.dispatched + source.dispatched,
    target.callbackPanics + source.callbackPanics⟩

end RouteOutcome

structure PanicGate where
  count : Nat
  disabled : Bool
  deriving DecidableEq

namespace PanicGate

def new : PanicGate := ⟨0, false⟩

def saturatingNext (count : Nat) : Nat := min (count + 1) (2 ^ 32 - 1)

def record (maximum : Nat) (gate : PanicGate) : PanicGate :=
  ⟨saturatingNext gate.count,
    gate.disabled || decide (max maximum 1 ≤ saturatingNext gate.count)⟩

end PanicGate

/-- What one call of the executor or of a callback does: it returns or unwinds, and jobs of the
listed publications, queued earlier or just now, have panicked by then. -/
structure Invocation where
  executor : Call Unit
  callback : Call Bool
  panicked : List Nat

structure ManagedPlatform where
  maxPanics : Nat
  invocation : Nat → Invocation
  json : JsonLibrary

structure ManagedInputBinds where
  registry : SortedMap String Mapping
  held : SortedMap String InputBind
  capture : InputCapture
  jsonSlots : List JsonSlot

def ManagedInputBinds.default : ManagedInputBinds := ⟨.empty, .empty, .default, []⟩

/-- A transition that routing handed to a publication. Without `received` the executor refused
the job. -/
structure Transition where
  registration : RegisteredCallback
  release : Bool
  received : Bool
  deriving DecidableEq

structure ManagedWorld extends ManagedInputBinds where
  gates : Nat → PanicGate
  markers : Nat
  invocations : Nat
  transitions : List Transition

namespace ManagedWorld

def new : ManagedWorld := ⟨.default, fun _ => .new, 0, 0, []⟩

def modify (world : ManagedWorld) (f : ManagedInputBinds → ManagedInputBinds) : ManagedWorld :=
  { world with toManagedInputBinds := f world.toManagedInputBinds }

def callbackOf (state : ManagedInputBinds) (identifier : String) : Option RegisteredCallback :=
  (state.registry.get? identifier).bind Mapping.callback

def defaultBinding (registry : SortedMap String Mapping) (identifier : String)
    (binding : InputBind) : RegisterOutcome × InputBind :=
  if (findConflict registry identifier binding).isSome then (.conflictCleared, .default)
  else (.boundDefault, binding.normalized)

def registerDefault (identifier : String) (binding : InputBind) (state : ManagedInputBinds) :
    Except SetBindError (RegisterOutcome × ManagedInputBinds) := do
  validateIdentifier identifier
  match state.registry.get? identifier with
  | some _ => return (.preservedExisting, state)
  | none =>
    let (outcome, binding) := defaultBinding state.registry identifier binding
    return (outcome, { state with
      registry := state.registry.put identifier { Mapping.default with binding } })

/-- Every public registration is this one with its callback shape and its default, which a text
variant parses first. The fresh marker is the number of markers made so far. -/
def register (identifier : String) (owner : OwnerGeneration) (callback : Callback)
    (binding : InputBind) (world : ManagedWorld) :
    Except SetBindError (RegisterOutcome × ManagedRegistrationToken) × ManagedWorld :=
  match validateIdentifier identifier with
  | .error error => (.error error, world)
  | .ok () =>
    let marker := world.markers
    let pending : RegisteredCallback := ⟨owner, callback, marker⟩
    let world := { world with markers := marker + 1 }
    match world.registry.get? identifier with
    | some existing =>
      if existing.callback.any fun registration => registration.owner ≠ owner then
        (.error .foreignHandler, world)
      else
        (.ok (.preservedExisting, ⟨marker⟩), world.modify fun state => { state with
          registry := state.registry.put identifier { existing with callback := some pending } })
    | none =>
      let (outcome, binding) := defaultBinding world.registry identifier binding
      (.ok (outcome, ⟨marker⟩), world.modify fun state => { state with
        registry := state.registry.put identifier
          { Mapping.default with binding, callback := some pending } })

def dropHandler (identifier : String) (state : ManagedInputBinds) : ManagedInputBinds :=
  { state with
    held := state.held.erase identifier
    registry := match state.registry.get? identifier with
      | some mapping => state.registry.put identifier { mapping with callback := none }
      | none => state.registry }

def deregister (identifier : String) (state : ManagedInputBinds) : Bool × ManagedInputBinds :=
  ((callbackOf state identifier).isSome, dropHandler identifier state)

def dropHandlerIf (identifier : String) (asked : RegisteredCallback → Bool)
    (state : ManagedInputBinds) : Bool × ManagedInputBinds :=
  if (callbackOf state identifier).any asked then (true, dropHandler identifier state)
  else (false, state)

def deregisterForOwner (identifier : String) (owner : OwnerGeneration) :
    ManagedInputBinds → Bool × ManagedInputBinds :=
  dropHandlerIf identifier fun registration => registration.owner = owner

def removeRegistration (identifier : String) (token : ManagedRegistrationToken) :
    ManagedInputBinds → Bool × ManagedInputBinds :=
  dropHandlerIf identifier fun registration => registration.marker = token.marker

def ownedIdentifiers (owner : OwnerGeneration) (state : ManagedInputBinds) : List String :=
  (state.registry.toList.filter fun item =>
    item.2.callback.any fun registration => registration.owner = owner).map Prod.fst

def cleanupOwnerGeneration (owner : OwnerGeneration) (state : ManagedInputBinds) :
    Nat × ManagedInputBinds :=
  ((ownedIdentifiers owner state).length,
    (ownedIdentifiers owner state).foldl (fun state identifier => dropHandler identifier state) state)

def set (identifier : String) (binding : InputBind) (state : ManagedInputBinds) :
    Except SetBindError ManagedInputBinds := do
  validateIdentifier identifier
  match findConflict state.registry identifier binding with
  | some conflict => .error (.conflict conflict)
  | none =>
    let mapping := (state.registry.get? identifier).getD .default
    return { state with registry :=
      state.registry.put identifier { mapping with binding := binding.normalized } }

def setPassthrough (identifier : String) (passthrough : Bool) (state : ManagedInputBinds) :
    Bool × ManagedInputBinds :=
  match state.registry.get? identifier with
  | some mapping => (true, { state with
      registry := state.registry.put identifier { mapping with passthrough } })
  | none => (false, state)

def delete (identifier : String) (state : ManagedInputBinds) : Bool × ManagedInputBinds :=
  ((state.registry.get? identifier).isSome, { state with
    held := state.held.erase identifier
    registry := state.registry.erase identifier })

section Platform

variable (platform : ManagedPlatform)

def recordPanics (markers : List Nat) (gates : Nat → PanicGate) : Nat → PanicGate :=
  markers.foldl (fun gates marker =>
    Function.update gates marker ((gates marker).record platform.maxPanics)) gates

/-- The panics that the gates record during one call. -/
def afterCall (marker : Nat) (unwound : Bool) (world : ManagedWorld) : ManagedWorld :=
  { world with
    invocations := world.invocations + 1
    gates := recordPanics platform ((platform.invocation world.invocations).panicked ++
      if unwound then [marker] else []) world.gates }

def invokeOutcome (dispatched consumed : Bool) (marker : Nat) (before after : ManagedWorld) :
    InvokeOutcome :=
  ⟨dispatched, consumed, decide ((before.gates marker).count < (after.gates marker).count),
    (after.gates marker).disabled⟩

def handed (registration : RegisteredCallback) (release received : Bool) (world : ManagedWorld) :
    ManagedWorld :=
  { world with transitions := world.transitions ++ [⟨registration, release, received⟩] }

def dispatchAsync (registration : RegisteredCallback) (release : Bool) (world : ManagedWorld) :
    InvokeOutcome × ManagedWorld :=
  match (platform.invocation world.invocations).executor with
  | .returned () =>
    let next := afterCall platform registration.marker false world
    (invokeOutcome true true registration.marker world next, handed registration release true next)
  | .unwound =>
    let next := afterCall platform registration.marker true world
    (invokeOutcome false false registration.marker world next,
      handed registration release false next)

/-- A callback that panics has received the transition all the same. -/
def dispatchNow (registration : RegisteredCallback) (release : Bool) (world : ManagedWorld) :
    InvokeOutcome × ManagedWorld :=
  match (platform.invocation world.invocations).callback with
  | .returned consumed =>
    let next := afterCall platform registration.marker false world
    (invokeOutcome true consumed registration.marker world next,
      handed registration release true next)
  | .unwound =>
    let next := afterCall platform registration.marker true world
    (invokeOutcome false false registration.marker world next,
      handed registration release true next)

def invokeCallback (release : Bool) (registration : RegisteredCallback) (world : ManagedWorld) :
    InvokeOutcome × ManagedWorld :=
  if (world.gates registration.marker).disabled then
    ({ InvokeOutcome.default with disabled := true }, world)
  else
    match registration.callback with
    | .onlyAsync =>
      if release then (.default, world) else dispatchAsync platform registration false world
    | .releaseAsync => dispatchAsync platform registration release world
    | .release => dispatchNow platform registration release world

def invoke (identifier : String) (release : Bool) (world : ManagedWorld) :
    InvokeOutcome × ManagedWorld :=
  match callbackOf world.toManagedInputBinds identifier with
  | some registration =>
    let (outcome, next) := invokeCallback platform release registration world
    (outcome, { next with transitions := world.transitions })
  | none => (.default, world)

def selected (state : ManagedInputBinds) (binding : InputBind) : Option (String × Mapping) :=
  state.registry.toList.find? fun item => item.2.binding = binding

def press (binding : InputBind) (world : ManagedWorld) : RouteOutcome × ManagedWorld :=
  match selected world.toManagedInputBinds binding with
  | none => (.default, world)
  | some (identifier, mapping) =>
    if (world.held.get? identifier).isSome then (.default, world)
    else
      let world := world.modify fun state => { state with held := state.held.put identifier binding }
      match mapping.callback with
      | none => (.default, world)
      | some registration =>
        let (outcome, next) := invokeCallback platform false registration world
        (⟨outcome.consumed && !mapping.passthrough, outcome.dispatched.toNat,
          outcome.panicked.toNat⟩, next)

def invokeReleases : List (Option RegisteredCallback) → RouteOutcome → ManagedWorld →
    RouteOutcome × ManagedWorld
  | [], result, world => (result, world)
  | none :: rest, result, world => invokeReleases rest result world
  | some registration :: rest, result, world =>
    let (outcome, next) := invokeCallback platform true registration world
    invokeReleases rest (result.mergeInvoke outcome) next

def releaseIdentifiers (identifiers : List String) (world : ManagedWorld) :
    RouteOutcome × ManagedWorld :=
  invokeReleases platform (identifiers.map (callbackOf world.toManagedInputBinds)) .default
    (world.modify fun state => { state with held := identifiers.foldl SortedMap.erase state.held })

def releaseMatching (predicate : InputBind → Bool) (world : ManagedWorld) :
    RouteOutcome × ManagedWorld :=
  releaseIdentifiers platform
    ((world.held.toList.filter fun item => predicate item.2).map Prod.fst) world

def releaseAll (world : ManagedWorld) : RouteOutcome × ManagedWorld :=
  releaseIdentifiers platform (world.held.toList.map Prod.fst) world

def isKey (scanCode : Fin (2 ^ 16)) (binding : InputBind) : Bool :=
  binding.device = .keyboard ∧ binding.code = scanCode

def isButton (button : MouseButton) (binding : InputBind) : Bool :=
  binding.device = .mouse ∧ binding.code = button.code

def route (message : InputMessage) (world : ManagedWorld) : RouteOutcome × ManagedWorld :=
  let (capture, next) := world.capture.process message
  let world := world.modify fun state => { state with capture := next }
  if capture.consumed then ({ RouteOutcome.default with consumed := true }, world)
  else
    match message with
    | .activateApp => releaseAll platform world
    | .keyDown .. | .mouseDown _ =>
      if capture.pressCandidate && capture.binding.isBound then
        press platform capture.binding world
      else (.default, world)
    | .keyUp (some modifier) scanCode =>
      let (outcome, world) := releaseMatching platform (·.requires modifier) world
      let (byKey, world) := releaseMatching platform (isKey scanCode) world
      (outcome.merge byKey, world)
    | .keyUp none scanCode =>
      let (byKey, world) := releaseMatching platform (isKey scanCode) world
      (RouteOutcome.default.merge byKey, world)
    | .mouseUp button => releaseMatching platform (isButton button) world

end Platform

/-- Applies one parsed entry. The seen identifiers keep a name from taking two slots. -/
def applyParsed (state : ManagedInputBinds) (seen : List String) :
    JsonParsed → ManagedInputBinds × List String
  | .known identifier binding passthrough extras =>
    let slots := if identifier ∈ seen then state.jsonSlots
      else state.jsonSlots ++ [.known identifier]
    let mapping := (state.registry.get? identifier).getD .default
    ({ state with
        jsonSlots := slots
        registry := state.registry.put identifier
          { mapping with binding, passthrough, extraJson := extras } },
      if identifier ∈ seen then seen else seen ++ [identifier])
  | .opaqueValue value =>
    ({ state with jsonSlots := state.jsonSlots ++ [.opaqueValue value] }, seen)

def applyEntries : List JsonParsed → List String → ManagedInputBinds → ManagedInputBinds
  | [], _, state => state
  | entry :: rest, seen, state =>
    let (state, seen) := applyParsed state seen entry
    applyEntries rest seen state

def reportOf (entries : List JsonParsed) : LoadReport :=
  ⟨entries.countP JsonParsed.isKnown, entries.countP fun entry => !entry.isKnown⟩

def parseDocument (json : JsonLibrary) (source : String) :
    Except PersistenceError (List JsonParsed) :=
  if maxDocumentBytes < source.utf8ByteSize then .error .limitExceeded
  else
    match json.parse source with
    | none => .error .invalidJson
    | some document =>
      match document.asArray with
      | none => .error .invalidJson
      | some entries =>
        if maxBindings < entries.length then .error .limitExceeded
        else .ok (entries.map parseEntry)

def loadJson (json : JsonLibrary) (source : String) (state : ManagedInputBinds) :
    Except PersistenceError (LoadReport × ManagedInputBinds) := do
  let entries ← parseDocument json source
  return (reportOf entries, applyEntries entries [] { state with jsonSlots := [] })

end ManagedWorld

inductive ManagedOp where
  | register (identifier : String) (owner : OwnerGeneration) (callback : Callback)
      (defaultBinding : InputBind)
  | registerDefault (identifier : String) (defaultBinding : InputBind)
  | set (identifier : String) (binding : InputBind)
  | setPassthrough (identifier : String) (passthrough : Bool)
  | deregister (identifier : String)
  | deregisterForOwner (identifier : String) (owner : OwnerGeneration)
  | removeRegistration (identifier : String) (token : ManagedRegistrationToken)
  | cleanupOwnerGeneration (owner : OwnerGeneration)
  | delete (identifier : String)
  | startCapture
  | stopCapture
  | invoke (identifier : String) (release : Bool)
  | route (message : InputMessage)
  | releaseAll
  | loadJson (source : String)
  | jobsPanicked (markers : List Nat)

namespace ManagedOp

open ManagedWorld

def step (platform : ManagedPlatform) (world : ManagedWorld) : ManagedOp → ManagedWorld
  | register identifier owner callback binding =>
    (ManagedWorld.register identifier owner callback binding world).2
  | registerDefault identifier binding =>
    match ManagedWorld.registerDefault identifier binding world.toManagedInputBinds with
    | .ok (_, state) => world.modify fun _ => state
    | .error _ => world
  | set identifier binding =>
    match ManagedWorld.set identifier binding world.toManagedInputBinds with
    | .ok state => world.modify fun _ => state
    | .error _ => world
  | setPassthrough identifier passthrough =>
    world.modify fun state => (ManagedWorld.setPassthrough identifier passthrough state).2
  | deregister identifier =>
    world.modify fun state => (ManagedWorld.deregister identifier state).2
  | deregisterForOwner identifier owner =>
    world.modify fun state => (ManagedWorld.deregisterForOwner identifier owner state).2
  | removeRegistration identifier token =>
    world.modify fun state => (ManagedWorld.removeRegistration identifier token state).2
  | cleanupOwnerGeneration owner =>
    world.modify fun state => (ManagedWorld.cleanupOwnerGeneration owner state).2
  | delete identifier => world.modify fun state => (ManagedWorld.delete identifier state).2
  | startCapture => world.modify fun state => { state with capture := state.capture.start }
  | stopCapture => world.modify fun state => { state with capture := state.capture.stop }
  | invoke identifier release => (ManagedWorld.invoke platform identifier release world).2
  | route message => (ManagedWorld.route platform message world).2
  | releaseAll => (ManagedWorld.releaseAll platform world).2
  | loadJson source =>
    match ManagedWorld.loadJson platform.json source world.toManagedInputBinds with
    | .ok (_, state) => world.modify fun _ => state
    | .error _ => world
  | jobsPanicked markers => { world with gates := recordPanics platform markers world.gates }

def run (platform : ManagedPlatform) (ops : List ManagedOp) : ManagedWorld :=
  ops.foldl (step platform) .new

@[simp] theorem run_append (platform : ManagedPlatform) (ops : List ManagedOp) (op : ManagedOp) :
    run platform (ops ++ [op]) = op.step platform (run platform ops) := by
  unfold run
  rw [List.foldl_append]
  rfl

end ManagedOp

end Nexus
