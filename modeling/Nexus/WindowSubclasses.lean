import Nexus.GuardedStages
import Nexus.WindowRouting

namespace Nexus.WindowInput

/-- What a window calls with its messages: ours, or the procedure at an address. -/
inductive WindowProcedure where
  | overlay
  | other (address : BitVec 64)
  deriving DecidableEq

inductive SubclassError where
  | invalidWindow
  | inactiveTarget
  | foreignProcess
  | hookConflict
  | win32 (code : BitVec 32)
  deriving DecidableEq

/-- An entry is known by its number. The leases are counted beside it. -/
structure SubclassEntry where
  id : Nat
  hwnd : BitVec 64
  adapterId : BitVec 64
  original : WindowProcedure
  target : Nat
  deriving DecidableEq

inductive SubclassEvent where
  /-- Somebody else changed the procedures of windows. -/
  | others (windows : BitVec 64 → Option WindowProcedure)
  | installed (entry : SubclassEntry)
  /-- The predecessor was written back, and the entry removed when that went well. -/
  | restored (entry : SubclassEntry) (done : Bool)
  /-- The window was destroyed. -/
  | destroyed (entry : SubclassEntry)

/-- A handle is known by the entry it holds. A window without a procedure does not exist. -/
structure SubclassWorld where
  registry : BitVec 64 → Option SubclassEntry
  leases : SubclassEntry → Nat
  handles : List SubclassEntry
  nextId : Nat
  windows : BitVec 64 → Option WindowProcedure
  targets : Nat → TargetFlags
  alive : Nat → Bool
  log : List SubclassEvent

structure InstallAnswers where
  ownProcess : Bool
  readError : BitVec 32
  replaceError : BitVec 32

namespace SubclassWorld

def new : SubclassWorld :=
  ⟨fun _ => none, fun _ => 0, [], 0, fun _ => none, fun _ => ⟨false, false, false, false, 0⟩,
    fun _ => false, []⟩

def others (windows : BitVec 64 → Option WindowProcedure) (targets : Nat → TargetFlags)
    (alive : Nat → Bool) (world : SubclassWorld) : SubclassWorld :=
  { world with windows, targets, alive, log := .others windows :: world.log }

def isRegistered (entry : SubclassEntry) (world : SubclassWorld) : Bool :=
  world.registry entry.hwnd = some entry

def addLease (entry : SubclassEntry) (leases : Nat) (world : SubclassWorld) : SubclassWorld :=
  { world with
    leases := Function.update world.leases entry leases
    handles := entry :: world.handles }

/-- The procedure found is the one that is replaced, as nobody comes in between. -/
def insertEntry (hwnd adapterId : BitVec 64) (target : Nat) (original : WindowProcedure)
    (world : SubclassWorld) : SubclassEntry × SubclassWorld :=
  let entry : SubclassEntry := ⟨world.nextId, hwnd, adapterId, original, target⟩
  (entry, { world.addLease entry 1 with
    registry := Function.update world.registry hwnd (some entry)
    nextId := world.nextId + 1
    windows := Function.update world.windows hwnd (some .overlay)
    log := .installed entry :: world.log })

def register (hwnd adapterId : BitVec 64) (target : Nat) (answers : InstallAnswers)
    (world : SubclassWorld) : Except SubclassError SubclassEntry × SubclassWorld :=
  if !(world.targets target).active then (.error .inactiveTarget, world)
  else match world.registry hwnd with
    | some entry =>
      let sharesTarget := entry.adapterId = adapterId && world.alive entry.target &&
        entry.target = target
      if !sharesTarget then (.error .hookConflict, world)
      else if world.leases entry + 1 < 2 ^ 64 then
        (.ok entry, world.addLease entry (world.leases entry + 1))
      else (.error .hookConflict, world)
    | none =>
      if answers.readError ≠ 0 then (.error (.win32 answers.readError), world)
      else match world.windows hwnd with
        | none => (.error .invalidWindow, world)
        | some original =>
          -- an entry whose procedure cannot be set is taken out again
          if answers.replaceError ≠ 0 then (.error (.win32 answers.replaceError), world)
          else
            let (entry, world) := world.insertEntry hwnd adapterId target original
            (.ok entry, world)

/-- `waiting` is what happens until the registry is locked. -/
def install (hwnd adapterId : BitVec 64) (target : Nat) (answers : InstallAnswers)
    (waiting : SubclassWorld → SubclassWorld) (world : SubclassWorld) :
    Except SubclassError SubclassEntry × SubclassWorld :=
  if !(world.targets target).active then (.error .inactiveTarget, world)
  else if hwnd = 0 || (world.windows hwnd).isNone then (.error .invalidWindow, world)
  else if !answers.ownProcess then (.error .foreignProcess, world)
  else (waiting world).register hwnd adapterId target answers

/-- The end of a handle. A message asks the window to look at its leases when none is left. -/
def releaseSubclass (entry : SubclassEntry) (world : SubclassWorld) : SubclassWorld :=
  let world := { world with handles := world.handles.erase entry }
  if !world.isRegistered entry || world.leases entry = 0 then world
  else { world with leases := Function.update world.leases entry (world.leases entry - 1) }

def dropHandle (entry : SubclassEntry) (world : SubclassWorld) : SubclassWorld :=
  if entry ∈ world.handles then world.releaseSubclass entry else world

def removeRegisteredEntry (entry : SubclassEntry) (world : SubclassWorld) : SubclassWorld :=
  if world.isRegistered entry then
    { world with
      registry := Function.update world.registry entry.hwnd none
      log := .destroyed entry :: world.log }
  else world

/-- `done` tells whether the procedure can be set. -/
def restoreIfTopmost (entry : SubclassEntry) (done : Bool) (world : SubclassWorld) :
    SubclassWorld :=
  if world.windows entry.hwnd ≠ some .overlay then world
  else
    let world := { world with log := .restored entry done :: world.log }
    if done then
      { world with
        windows := Function.update world.windows entry.hwnd (some entry.original)
        registry := Function.update world.registry entry.hwnd none }
    else world

def restoreIfUnleasedAndTopmost (entry : SubclassEntry) (done : Bool) (world : SubclassWorld) :
    Bool × SubclassWorld :=
  if !world.isRegistered entry then (true, world)
  else if world.leases entry ≠ 0 then (false, world)
  else (true, world.restoreIfTopmost entry done)

def restoreInactiveTargetIfTopmost (entry : SubclassEntry) (done : Bool) (world : SubclassWorld) :
    SubclassWorld :=
  if world.isRegistered entry then world.restoreIfTopmost entry done else world

def resetTarget (target : Nat) (world : SubclassWorld) : SubclassWorld :=
  let flags := { world.targets target with captureMouse := false, captureKeyboard := false }
  { world with targets := Function.update world.targets target flags }

def routes (target : Nat) (hwnd : BitVec 64) (world : SubclassWorld) : Bool :=
  (world.targets target).active && (world.targets target).isBoundWindow hwnd

end SubclassWorld

inductive WindowMessageRoute where
  | continue (message : WindowMessage)
  | consume

/-- A router that panics does not change the message. -/
def routeSafely (answer : Option WindowMessageRoute) (message : WindowMessage) :
    Option WindowMessage :=
  match answer.getD (.continue message) with
  | .continue message => some message
  | .consume => none

/-- What the router, the predecessor and the system answer for one message. A router without an
answer panics. -/
structure MessageAnswers where
  beforeUi : WindowMessage → Option WindowMessageRoute
  afterUi : WindowMessage → Option WindowMessageRoute
  redirectGameOnly : WindowMessage → Option WindowMessage
  predecessor : BitVec 64
  systemDefault : BitVec 64
  restores : Bool

/-- What happens while one message is handled: from other threads, from the router and the
predecessor, and from the messages that these send. -/
structure Meanwhile (α : Type) where
  /-- Between the entry and its target. -/
  found : α
  /-- While the state of the adapter is dropped on this thread. -/
  retired : α
  /-- Before the leases are looked at a second time. -/
  unleased : α
  beforeUi : α
  enqueued : α
  captured : α
  afterUi : α
  shutDown : α
  redirected : α
  predecessor : α

inductive Callee where
  | systemDefault
  | predecessor (procedure : WindowProcedure)
  deriving DecidableEq

/-- The procedures that were called with a message, and what ours returned. -/
structure Reply where
  calls : List (Callee × WindowMessage)
  result : BitVec 64
  world : SubclassWorld

section Procedure

variable (answers : MessageAnswers) (during : Meanwhile (SubclassWorld → SubclassWorld))

def callOriginal (entry : SubclassEntry) (message : WindowMessage) (world : SubclassWorld) :
    Reply :=
  ⟨[(.predecessor entry.original, message)], answers.predecessor, during.predecessor world⟩

def passThrough (entry : SubclassEntry) (target : Nat) (original : WindowMessage)
    (world : SubclassWorld) : Reply :=
  if (world.targets target).active then callOriginal answers during entry original world
  else
    let world := during.retired (world.resetTarget target)
    let world := world.restoreInactiveTargetIfTopmost entry answers.restores
    callOriginal answers during entry original world

def route (entry : SubclassEntry) (target : Nat) (original : WindowMessage)
    (world : SubclassWorld) : Reply :=
  let beforeUi := routeSafely (answers.beforeUi original) original
  let world := during.beforeUi world
  if !world.routes target original.window then
    passThrough answers during entry target original world
  else match beforeUi with
  | none => ⟨[], 0, world⟩
  | some routed =>
    let world := during.enqueued world
    let consume := (world.targets target).shouldConsume routed.message
    let world := during.captured world
    if !world.routes target original.window then
      passThrough answers during entry target original world
    else if consume then ⟨[], 0, world⟩
    else
      let afterUi := routeSafely (answers.afterUi routed) routed
      let world := during.afterUi world
      if !world.routes target original.window then
        passThrough answers during entry target original world
      else match afterUi with
      | none => ⟨[], 0, world⟩
      | some routed =>
        let world := during.shutDown world
        if !world.routes target original.window then
          passThrough answers during entry target original world
        else
          let redirected := (answers.redirectGameOnly routed).getD routed
          let world := during.redirected world
          if !world.routes target original.window then
            passThrough answers during entry target original world
          else callOriginal answers during entry redirected world

def isUnleased (entry : SubclassEntry) (world : SubclassWorld) : Bool × SubclassWorld :=
  if world.leases entry = 0 then
    (during.unleased world).restoreIfUnleasedAndTopmost entry answers.restores
  else (false, world)

def overlayWndProc (message : WindowMessage) (world : SubclassWorld) : Reply :=
  match world.registry message.window with
  | none => ⟨[(.systemDefault, message)], answers.systemDefault, world⟩
  | some entry =>
    let world := during.found world
    if message.message = WM_NCDESTROY then
      let reply := callOriginal answers during entry message (during.retired world)
      { reply with world := reply.world.removeRegisteredEntry entry }
    else if !(world.alive entry.target && (world.targets entry.target).active) then
      let world := during.retired world
      let world := world.restoreInactiveTargetIfTopmost entry answers.restores
      callOriginal answers during entry message world
    else
      let (unleased, world) := isUnleased answers during entry world
      if unleased then callOriginal answers during entry message world
      else if world.routes entry.target message.window then
        route answers during entry entry.target message world
      else callOriginal answers during entry message world

end Procedure

inductive SubclassCall where
  | others (windows : BitVec 64 → Option WindowProcedure) (targets : Nat → TargetFlags)
    (alive : Nat → Bool)
  | install (hwnd adapterId : BitVec 64) (target : Nat) (answers : InstallAnswers)
    (waiting : List SubclassCall)
  | drop (entry : SubclassEntry)
  | message (message : WindowMessage) (answers : MessageAnswers)
    (during : Meanwhile (List SubclassCall))

mutual

def SubclassCall.run : SubclassCall → SubclassWorld → SubclassWorld
  | .others windows targets alive, world => world.others windows targets alive
  | .install hwnd adapterId target answers waiting, world =>
    (world.install hwnd adapterId target answers (runCalls waiting)).2
  | .drop entry, world => world.dropHandle entry
  | .message message answers
      ⟨found, retired, unleased, beforeUi, enqueued, captured, afterUi, shutDown, redirected,
        predecessor⟩, world =>
    (overlayWndProc answers ⟨runCalls found, runCalls retired, runCalls unleased,
      runCalls beforeUi, runCalls enqueued, runCalls captured, runCalls afterUi,
      runCalls shutDown, runCalls redirected, runCalls predecessor⟩ message world).world

def runCalls : List SubclassCall → SubclassWorld → SubclassWorld
  | [], world => world
  | call :: calls, world => runCalls calls (call.run world)

end

end Nexus.WindowInput
