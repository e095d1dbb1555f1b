import Mathlib.Logic.Function.Basic
import Nexus.ManagedMapping
import Nexus.StepRuns

namespace Nexus.RawWndProc

/-! The registry of raw window procedures. A callback does what it likes: between its start and its
return its thread may take any steps. -/

inductive RawRoute where
  | continue
  | consume
  deriving DecidableEq

/-- The part of an entry that never changes. Tokens tell the entries apart. -/
structure Entry where
  token : Nat
  owner : OwnerGeneration
  callbackId : Option Nat
  maximumPanics : Nat
  deriving DecidableEq

structure EntryFlags where
  panics : Nat
  disabled : Bool

def EntryFlags.recordPanic (maximumPanics : Nat) (flags : EntryFlags) : EntryFlags :=
  let count := min (flags.panics + 1) (2 ^ 32 - 1)
  ⟨count, flags.disabled || decide (maximumPanics ≤ count)⟩

inductive RawEvent where
  | registered (entry : Entry)
  | removed (gone : List Entry)
  | disabled (token : Nat)
  deriving DecidableEq

inductive TurnOutcome where
  | disabled
  | continued
  | consumed
  | panicked
  deriving DecidableEq

/-- One turn of a route. `log` is what had happened when it came, newest first. -/
structure Turn where
  entry : Entry
  log : List RawEvent
  outcome : TurnOutcome

structure RawRouteReport where
  route : RawRoute
  invoked : Nat
  panics : Nat
  disabled : Nat
  deriving DecidableEq

/-- A call of `route`. `log` is what had happened when the snapshot was taken, `turns` are those taken
so far. -/
structure Route where
  rest : List Entry
  report : RawRouteReport
  running : Option (Entry × List RawEvent)
  log : List RawEvent
  turns : List Turn

/-- `routes` are the routes of each thread, innermost first, `log` is what happened to entries, newest
first, and `finished` are the routes that returned. -/
structure RawWndProcRegistry where
  maximumPanics : Nat
  nextToken : Nat
  entries : SortedMap Nat Entry
  flags : Nat → EntryFlags
  routes : Nat → List Route
  log : List RawEvent
  finished : List Route

namespace RawWndProcRegistry

def new (maximumPanics : Nat) : RawWndProcRegistry where
  maximumPanics
  nextToken := 0
  entries := .empty
  flags _ := ⟨0, false⟩
  routes _ := []
  log := []
  finished := []

/-- A thread calls the registry outside of any route or from a callback. -/
def mayCall (registry : RawWndProcRegistry) (thread : Nat) : Bool :=
  match registry.routes thread with
  | [] => true
  | route :: _ => route.running.isSome

def setRoutes (thread : Nat) (routes : List Route) (registry : RawWndProcRegistry) :
    RawWndProcRegistry :=
  { registry with routes := Function.update registry.routes thread routes }

def register (owner : OwnerGeneration) (callbackId : Option Nat) (registry : RawWndProcRegistry) :
    RawWndProcRegistry :=
  let token := registry.nextToken + 1
  let entry : Entry := ⟨token, owner, callbackId, max registry.maximumPanics 1⟩
  { registry with
    nextToken := token
    entries := registry.entries.put token entry
    log := .registered entry :: registry.log }

def remove (gone : List Entry) (entries : SortedMap Nat Entry) (registry : RawWndProcRegistry) :
    RawWndProcRegistry :=
  { registry with
    entries
    log := .removed gone :: registry.log }

def deregister (token : Nat) (registry : RawWndProcRegistry) : RawWndProcRegistry :=
  registry.remove (registry.entries.get? token).toList (registry.entries.erase token)

def removeMatching (gone : Entry → Bool) (registry : RawWndProcRegistry) : RawWndProcRegistry :=
  let removed := registry.entries.values.filter gone
  registry.remove removed
    ((removed.map Entry.token).foldl (fun entries token => entries.erase token) registry.entries)

def deregisterCallback (owner : OwnerGeneration) (callbackId : Nat) :
    RawWndProcRegistry → RawWndProcRegistry :=
  removeMatching fun entry => entry.owner = owner ∧ entry.callbackId = some callbackId

def cleanupOwnerGeneration (owner : OwnerGeneration) : RawWndProcRegistry → RawWndProcRegistry :=
  removeMatching fun entry => entry.owner = owner

/-- `route`, up to its first turn. -/
def route (thread : Nat) (registry : RawWndProcRegistry) : RawWndProcRegistry :=
  registry.setRoutes thread
    ({ rest := registry.entries.values
       report := ⟨.continue, 0, 0, 0⟩
       running := none
       log := registry.log
       turns := [] } :: registry.routes thread)

def turn (thread : Nat) (route : Route) (outer : List Route) (registry : RawWndProcRegistry) :
    RawWndProcRegistry :=
  match route.rest with
  | [] => { registry.setRoutes thread outer with finished := route :: registry.finished }
  | entry :: rest =>
    if (registry.flags entry.token).disabled then
      registry.setRoutes thread ({ route with
        rest
        report := { route.report with disabled := route.report.disabled + 1 }
        turns := route.turns ++ [⟨entry, registry.log, .disabled⟩] } :: outer)
    else
      registry.setRoutes thread ({ route with
        rest
        report := { route.report with invoked := route.report.invoked + 1 }
        running := some (entry, registry.log) } :: outer)

def returned (thread : Nat) (route : Route) (entry : Entry) (log : List RawEvent)
    (result : RawRoute) (outer : List Route) (registry : RawWndProcRegistry) :
    RawWndProcRegistry :=
  match result with
  | .continue => registry.setRoutes thread ({ route with
      running := none
      turns := route.turns ++ [⟨entry, log, .continued⟩] } :: outer)
  | .consume => { registry.setRoutes thread outer with
      finished := { route with
        report := { route.report with route := .consume }
        running := none
        turns := route.turns ++ [⟨entry, log, .consumed⟩] } :: registry.finished }

/-- A callback that panics; too many panics disable it. -/
def panicked (thread : Nat) (route : Route) (entry : Entry) (log : List RawEvent)
    (outer : List Route) (registry : RawWndProcRegistry) : RawWndProcRegistry :=
  let flags := (registry.flags entry.token).recordPanic entry.maximumPanics
  { registry.setRoutes thread ({ route with
      report := { route.report with panics := route.report.panics + 1 }
      running := none
      turns := route.turns ++ [⟨entry, log, .panicked⟩] } :: outer) with
    flags := Function.update registry.flags entry.token flags
    log := if flags.disabled then .disabled entry.token :: registry.log else registry.log }

end RawWndProcRegistry

inductive RawAction where
  | register (thread : Nat) (owner : OwnerGeneration)
  | registerIdentified (thread : Nat) (owner : OwnerGeneration) (callbackId : Nat)
  | deregister (thread token : Nat)
  | deregisterCallback (thread : Nat) (owner : OwnerGeneration) (callbackId : Nat)
  | cleanupOwnerGeneration (thread : Nat) (owner : OwnerGeneration)
  | route (thread : Nat)
  | proceed (thread : Nat)
  | returns (thread : Nat) (result : RawRoute)
  | panics (thread : Nat)

namespace RawWndProcRegistry

def call (thread : Nat) (operation : RawWndProcRegistry → RawWndProcRegistry)
    (registry : RawWndProcRegistry) : Option RawWndProcRegistry :=
  if registry.mayCall thread then some (operation registry) else none

def fromCallback (thread : Nat)
    (operation : Route → Entry → List RawEvent → List Route → RawWndProcRegistry)
    (registry : RawWndProcRegistry) : Option RawWndProcRegistry :=
  match registry.routes thread with
  | [] => none
  | route :: outer => route.running.map fun (entry, log) => operation route entry log outer

def step (registry : RawWndProcRegistry) : RawAction → Option RawWndProcRegistry
  | .register thread owner => registry.call thread (register owner none)
  | .registerIdentified thread owner callbackId =>
    registry.call thread (register owner (some callbackId))
  | .deregister thread token => registry.call thread (deregister token)
  | .deregisterCallback thread owner callbackId =>
    registry.call thread (deregisterCallback owner callbackId)
  | .cleanupOwnerGeneration thread owner => registry.call thread (cleanupOwnerGeneration owner)
  | .route thread => registry.call thread (route thread)
  | .proceed thread =>
    match registry.routes thread with
    | [] => none
    | route :: outer =>
      if route.running.isNone then some (registry.turn thread route outer) else none
  | .returns thread result => registry.fromCallback thread fun route entry log outer =>
      registry.returned thread route entry log result outer
  | .panics thread => registry.fromCallback thread fun route entry log outer =>
      registry.panicked thread route entry log outer

end RawWndProcRegistry

end Nexus.RawWndProc
