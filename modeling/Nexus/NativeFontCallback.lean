import Nexus.CallbackGate
import Nexus.FontManager
import Nexus.StepRuns

namespace Nexus.FontNotifications

/-- `sequence` numbers the notifications; a null font is 0. -/
structure PendingFontCallback where
  identifier : String
  font : Nat
  sequence : Nat
  deriving DecidableEq

structure NativeCallbackQueue where
  published : Bool
  aborted : Bool
  dispatching : Bool
  pending : List PendingFontCallback
  deriving DecidableEq

def maxPendingFontCallbacks : Nat := 64

namespace NativeCallbackQueue

def default : NativeCallbackQueue := ⟨false, false, false, []⟩

/-- The first component says whether the caller has to drain. -/
def publish (queue : NativeCallbackQueue) : Bool × NativeCallbackQueue :=
  if queue.aborted then (false, queue)
  else if queue.dispatching || queue.pending.isEmpty then (false, { queue with published := true })
  else (true, { queue with published := true, dispatching := true })

def abort (queue : NativeCallbackQueue) : NativeCallbackQueue :=
  { queue with aborted := true, pending := [] }

def overflows (queue : NativeCallbackQueue) : Bool :=
  maxPendingFontCallbacks ≤ queue.pending.length

def kept (queue : NativeCallbackQueue) : List PendingFontCallback :=
  if queue.overflows then queue.pending.tail else queue.pending

def enqueue (pending : PendingFontCallback) (queue : NativeCallbackQueue) :
    Bool × NativeCallbackQueue :=
  if queue.aborted then (false, queue)
  else if queue.published && !queue.dispatching then
    (true, { queue with dispatching := true, pending := queue.kept ++ [pending] })
  else (false, { queue with pending := queue.kept ++ [pending] })

def take (queue : NativeCallbackQueue) : Option PendingFontCallback × NativeCallbackQueue :=
  if queue.aborted then (none, { queue with pending := [], dispatching := false })
  else match queue.pending with
    | [] => (none, { queue with dispatching := false })
    | pending :: rest => (some pending, { queue with pending := rest })

end NativeCallbackQueue

/-- A thread in the drain loop. `invalidates` is the null notification it came to enqueue, if any. -/
inductive Dispatcher where
  | draining (invalidates : Option Nat)
  | holding (invalidates : Option Nat) (pending : PendingFontCallback)
  | calling (invalidates : Option Nat) (pending : PendingFontCallback)
  deriving DecidableEq

namespace Dispatcher

def held : Dispatcher → Option PendingFontCallback
  | .holding _ pending => some pending
  | _ => none

def invalidates : Dispatcher → Option Nat
  | .draining invalidates => invalidates
  | .holding invalidates _ => invalidates
  | .calling invalidates _ => invalidates

end Dispatcher

/-- What happened to the notifications. `invalidated` is the return of a call that enqueued null. -/
inductive FontEvent where
  | started (pending : PendingFontCallback)
  | overflowed (oldest : PendingFontCallback) (pending : List PendingFontCallback)
  | aborted (sequence : Nat)
  | refused (sequence : Nat)
  | invalidated (sequence : Nat)
  | stopped
  deriving DecidableEq

namespace FontEvent

def started? : FontEvent → Option PendingFontCallback
  | .started pending => some pending
  | _ => none

def settles : FontEvent → Option Nat
  | .started pending => some pending.sequence
  | .overflowed oldest _ => some oldest.sequence
  | .aborted sequence => some sequence
  | .refused sequence => some sequence
  | .invalidated _ => none
  | .stopped => none

end FontEvent

structure NativeFontCallback where
  queue : NativeCallbackQueue
  gate : CallbackGate
  dispatchers : List Dispatcher
  count : Nat
  events : List FontEvent
  deriving DecidableEq

inductive FontStep where
  | enqueue (identifier : String) (font : Option FontHandle)
  | publish
  | abort
  | take (dispatcher : Nat)
  | enter (dispatcher : Nat)
  | finish (dispatcher : Nat)
  | closeGate
  deriving DecidableEq

namespace FontStep

def drains : FontStep → Bool
  | .take _ => true
  | .enter _ => true
  | .finish _ => true
  | _ => false

end FontStep

namespace NativeFontCallback

def new : NativeFontCallback := ⟨.default, .opened, [], 0, []⟩

def overflow (queue : NativeCallbackQueue) : List FontEvent :=
  match queue.pending with
  | [] => []
  | oldest :: _ => if queue.overflows then [.overflowed oldest queue.pending] else []

def enqueue (identifier : String) (font : Option FontHandle) (callback : NativeFontCallback) :
    NativeFontCallback :=
  let pending : PendingFontCallback := ⟨identifier, font.elim 0 (·.address), callback.count⟩
  let invalidates := if font.isNone then some callback.count else none
  let returned := invalidates.toList.map FontEvent.invalidated
  let (shouldDrain, queue) := callback.queue.enqueue pending
  if callback.queue.aborted then { callback with
    count := callback.count + 1
    events := callback.events ++ .aborted callback.count :: returned }
  else if shouldDrain then { callback with
    queue := queue
    dispatchers := callback.dispatchers ++ [.draining invalidates]
    count := callback.count + 1
    events := callback.events ++ overflow callback.queue }
  else { callback with
    queue := queue
    count := callback.count + 1
    events := callback.events ++ (overflow callback.queue ++ returned) }

def publish (callback : NativeFontCallback) : NativeFontCallback :=
  let (shouldDrain, queue) := callback.queue.publish
  { callback with
    queue := queue
    dispatchers := if shouldDrain then callback.dispatchers ++ [.draining none]
      else callback.dispatchers }

def abort (callback : NativeFontCallback) : NativeFontCallback := { callback with
  queue := callback.queue.abort
  events := callback.events ++ callback.queue.pending.map fun pending => .aborted pending.sequence }

def take (dispatcher : Nat) (invalidates : Option Nat) (callback : NativeFontCallback) :
    NativeFontCallback :=
  match callback.queue.take with
  | (some pending, queue) => { callback with
    queue := queue
    dispatchers := callback.dispatchers.set dispatcher (.holding invalidates pending) }
  | (none, queue) => { callback with
    queue := queue
    dispatchers := callback.dispatchers.eraseIdx dispatcher
    events := callback.events ++ ((if callback.queue.aborted then [.stopped] else []) ++
      invalidates.toList.map .invalidated) }

def enter (dispatcher : Nat) (invalidates : Option Nat) (pending : PendingFontCallback)
    (callback : NativeFontCallback) : NativeFontCallback :=
  match callback.gate.tryEnter with
  | some gate => { callback with
    gate := gate
    dispatchers := callback.dispatchers.set dispatcher (.calling invalidates pending)
    events := callback.events ++ [.started pending] }
  | none => { callback with
    dispatchers := callback.dispatchers.set dispatcher (.draining invalidates)
    events := callback.events ++ [.refused pending.sequence] }

def finish (dispatcher : Nat) (invalidates : Option Nat) (callback : NativeFontCallback) :
    NativeFontCallback := { callback with
  gate := callback.gate.leave 1
  dispatchers := callback.dispatchers.set dispatcher (.draining invalidates) }

def step (callback : NativeFontCallback) : FontStep → Option NativeFontCallback
  | .enqueue identifier font => some (callback.enqueue identifier font)
  | .publish => some callback.publish
  | .abort => some callback.abort
  | .take dispatcher => match callback.dispatchers[dispatcher]? with
    | some (.draining invalidates) => some (callback.take dispatcher invalidates)
    | _ => none
  | .enter dispatcher => match callback.dispatchers[dispatcher]? with
    | some (.holding invalidates pending) => some (callback.enter dispatcher invalidates pending)
    | _ => none
  | .finish dispatcher => match callback.dispatchers[dispatcher]? with
    | some (.calling invalidates _) => some (callback.finish dispatcher invalidates)
    | _ => none
  | .closeGate => some { callback with gate := callback.gate.close }

end NativeFontCallback

end Nexus.FontNotifications
