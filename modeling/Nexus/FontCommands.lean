import Mathlib.Logic.Function.Basic
import Nexus.Fallible
import Nexus.StepRuns

namespace Nexus.RuntimeFonts

inductive FontTicketState where
  | queued
  | canceled
  | completed
  deriving DecidableEq

inductive RuntimeFontBridgeError where
  | noActiveSession
  | staleAttachment
  | attachmentFailed
  | queueFull
  | timeout
  deriving DecidableEq

structure FontQueueLimits where
  commands : Nat
  bytes : Nat

structure PendingFontCommand where
  attachmentId : Nat
  retainedBytes : Nat
  ticket : Nat
  deriving DecidableEq

structure ActiveFontSession where
  attachmentId : Nat
  renderThread : Nat
  deriving DecidableEq

/-- Sizes are `usize`. -/
def saturatingAdd (a b : Nat) : Nat := min (a + b) (2 ^ 64 - 1)

structure FontCoordinatorState where
  nextAttachmentId : Nat
  active : Option ActiveFontSession
  stopped : Bool
  queue : List PendingFontCommand
  queuedBytes : Nat
  deriving DecidableEq

namespace FontCoordinatorState

def default : FontCoordinatorState := ⟨0, none, false, [], 0⟩

def activeAttachmentOn (thread : Nat) (state : FontCoordinatorState) : Option Nat :=
  if state.stopped then none
  else state.active.bind fun active =>
    if active.renderThread = thread then some active.attachmentId else none

/-- The locked section of `enqueue_for_render_thread`. -/
def accept (retainedBytes : Nat) (limits : FontQueueLimits) (ticket : Nat) :
    Fallible FontCoordinatorState RuntimeFontBridgeError Nat := fun state =>
  if state.stopped then (.error .noActiveSession, state)
  else
    match state.active with
    | none => (.error .noActiveSession, state)
    | some active =>
      if limits.commands ≤ state.queue.length ∨
          limits.bytes < saturatingAdd state.queuedBytes retainedBytes then
        (.error .queueFull, state)
      else
        (.ok active.attachmentId,
          { state with
            queuedBytes := saturatingAdd state.queuedBytes retainedBytes
            queue := state.queue ++ [⟨active.attachmentId, retainedBytes, ticket⟩] })

/-- `cancel_queued`, with the command that it removed. -/
def cancelQueued (ticket : Nat) (state : FontCoordinatorState) :
    Option PendingFontCommand × FontCoordinatorState :=
  match state.queue.find? (·.ticket = ticket) with
  | none => (none, state)
  | some command =>
    (some command,
      { state with
        queue := state.queue.eraseP (·.ticket = ticket)
        queuedBytes := state.queuedBytes - command.retainedBytes })

def popFront (state : FontCoordinatorState) : Option (PendingFontCommand × FontCoordinatorState) :=
  match state.queue with
  | [] => none
  | command :: queue =>
    some (command,
      { state with queue, queuedBytes := state.queuedBytes - command.retainedBytes })

def cancelAllQueued (state : FontCoordinatorState) : FontCoordinatorState :=
  { state with queue := [], queuedBytes := 0 }

def detach (attachmentId : Nat) (state : FontCoordinatorState) : FontCoordinatorState :=
  if state.active.map ActiveFontSession.attachmentId = some attachmentId then
    { state with active := none }
  else state

end FontCoordinatorState

structure FontSession where
  attachmentId : Nat
  context : Nat
  failed : Bool
  deriving DecidableEq

inductive FontPhase where
  | entering (inline : Bool)
  | popping
  | holding (command : PendingFontCommand)
  | running (command : PendingFontCommand)
  | settling (command : PendingFontCommand) (state : FontTicketState)
  | advancing
  | inline
  | failing
  | left
  deriving DecidableEq

structure SessionUse where
  thread : Nat
  attachmentId : Nat
  context : Nat
  phase : FontPhase
  deriving DecidableEq

inductive CallPhase where
  | waiting
  | gaveUp
  | returned
  deriving DecidableEq

structure FontCall (V : Type) where
  phase : CallPhase
  ticket : FontTicketState
  slot : Option V
  deriving DecidableEq

structure FontSessionLease where
  thread : Nat
  attachmentId : Nat
  deriving DecidableEq

inductive RetirementPhase where
  | emptying
  | canceling (commands : List PendingFontCommand)
  | retired
  deriving DecidableEq

/-- A `detach` or a `shutdown` after its first locked section, with the session that it takes at its
end. -/
structure Retirement where
  thread : Nat
  session : Option Nat
  phase : RetirementPhase
  deriving DecidableEq

inductive FontEvent (V : Type) where
  | attached (attachmentId : Nat)
  | detached (attachmentId : Nat)
  | stopped
  | accepted (command : PendingFontCommand)
  | gaveUp (ticket : Nat)
  | taken (command : PendingFontCommand)
  | started (command : PendingFontCommand)
  | completed (ticket : Nat) (value : V)
  | panicked (ticket : Nat)
  | canceled (commands : List PendingFontCommand)
  | returned (ticket : Nat) (result : Except RuntimeFontBridgeError V)

structure FontWorld (V : Type) where
  state : FontCoordinatorState
  sessions : Nat → Option FontSession
  uses : List SessionUse
  calls : List (FontCall V)
  leases : List FontSessionLease
  retirements : List Retirement
  log : List (FontEvent V)

inductive FontAction (V : Type) where
  | attach (thread context : Nat)
  | dropLease (lease : Nat)
  | shutdown (thread : Nat)
  | retire (retirement : Nat)
  | advance (thread context : Nat)
  | withActiveManager (thread context : Nat)
  | borrow (use : Nat)
  | pop (use : Nat)
  | run (use : Nat)
  | finish (use : Nat) (value : V)
  | panic (use : Nat)
  | settle (use : Nat)
  | advanced (use : Nat) (failed : Bool)
  | markFailed (use : Nat)
  | enqueue (retainedBytes : Nat) (limits : FontQueueLimits)
  | wake (call : Nat)
  | expire (call : Nat)
  | withdraw (call : Nat)

namespace FontWorld

variable {V : Type}

def start : FontWorld V := ⟨.default, fun _ => none, [], [], [], [], []⟩

def busy (world : FontWorld V) (thread : Nat) : Bool :=
  world.uses.any fun use => use.thread = thread ∧ use.phase ≠ .left

def attach (thread context : Nat) (world : FontWorld V) : FontWorld V :=
  let attachmentId := world.state.nextAttachmentId + 1
  if world.state.stopped ∨ 2 ^ 64 ≤ attachmentId ∨ world.busy thread then world
  else
    { world with
      state := { world.state with
        nextAttachmentId := attachmentId
        active := some ⟨attachmentId, thread⟩ }
      sessions := Function.update world.sessions thread (some ⟨attachmentId, context, false⟩)
      leases := world.leases ++ [⟨thread, attachmentId⟩]
      log := .attached attachmentId :: world.log }

def dropLease (lease : Nat) (world : FontWorld V) : Option (FontWorld V) :=
  match world.leases[lease]? with
  | none => none
  | some dropped =>
    some { world with
      state := world.state.detach dropped.attachmentId
      leases := world.leases.eraseIdx lease
      retirements :=
        world.retirements ++ [⟨dropped.thread, some dropped.attachmentId, .emptying⟩]
      log := .detached dropped.attachmentId :: world.log }

def shutdown (thread : Nat) (world : FontWorld V) : FontWorld V :=
  let session := world.state.active.bind fun active =>
    if active.renderThread = thread then some active.attachmentId else none
  { world with
    state := { world.state with stopped := true, active := none }
    retirements := world.retirements ++ [⟨thread, session, .emptying⟩]
    log := .stopped :: world.log }

def settleTicket (ticket : Nat) (state : FontTicketState) (world : FontWorld V) : FontWorld V :=
  { world with calls := world.calls.modify ticket fun call => { call with ticket := state } }

def takeSession (thread : Nat) (session : Option Nat) (world : FontWorld V) : FontWorld V :=
  if session.isSome ∧ world.busy thread = false ∧
      (world.sessions thread).map FontSession.attachmentId = session then
    { world with sessions := Function.update world.sessions thread none }
  else world

def retire (index : Nat) (world : FontWorld V) : Option (FontWorld V) :=
  match world.retirements[index]? with
  | none => none
  | some retirement =>
    match retirement.phase with
    | .emptying =>
      some { world with
        state := world.state.cancelAllQueued
        retirements :=
          world.retirements.set index { retirement with phase := .canceling world.state.queue }
        log := .canceled world.state.queue :: world.log }
    | .canceling (command :: rest) =>
      some { world.settleTicket command.ticket .canceled with
        retirements := world.retirements.set index { retirement with phase := .canceling rest } }
    | .canceling [] =>
      some { world.takeSession retirement.thread retirement.session with
        retirements := world.retirements.set index { retirement with phase := .retired } }
    | .retired => none

/-- The first checks of `advance` and `with_active_manager`. A call from inside one of them finds the
local storage borrowed. -/
def enter (inline : Bool) (thread context : Nat) (world : FontWorld V) : FontWorld V :=
  if world.busy thread then world
  else
    match world.state.activeAttachmentOn thread with
    | none => world
    | some attachmentId =>
      { world with uses := world.uses ++ [⟨thread, attachmentId, context, .entering inline⟩] }

def moved (index : Nat) (use : SessionUse) (phase : FontPhase) (world : FontWorld V) :
    FontWorld V :=
  { world with uses := world.uses.set index { use with phase } }

def borrowed (inline : Bool) (use : SessionUse) (session : Option FontSession) : FontPhase :=
  match session with
  | none => .left
  | some session =>
    if session.attachmentId ≠ use.attachmentId ∨ session.context ≠ use.context then .left
    else if inline then if session.failed then .left else .inline
    else .popping

def borrow (index : Nat) (world : FontWorld V) : Option (FontWorld V) :=
  match world.uses[index]? with
  | some use =>
    match use.phase with
    | .entering inline =>
      some (world.moved index use (borrowed inline use (world.sessions use.thread)))
    | _ => none
  | none => none

def pop (index : Nat) (world : FontWorld V) : Option (FontWorld V) :=
  match world.uses[index]? with
  | some use =>
    match use.phase with
    | .popping =>
      match world.state.popFront with
      | none => some (world.moved index use .advancing)
      | some (command, state) =>
        if command.attachmentId = use.attachmentId then
          some { world.moved index use (.holding command) with
            state
            log := .taken command :: world.log }
        else
          some { world.moved index use (.settling command .canceled) with
            state
            log := .canceled [command] :: world.log }
    | _ => none
  | none => none

def run (index : Nat) (world : FontWorld V) : Option (FontWorld V) :=
  match world.uses[index]? with
  | some use =>
    match use.phase with
    | .holding command =>
      some { world.moved index use (.running command) with log := .started command :: world.log }
    | _ => none
  | none => none

def finish (index : Nat) (value : V) (world : FontWorld V) : Option (FontWorld V) :=
  match world.uses[index]? with
  | some use =>
    match use.phase with
    | .running command =>
      some { world.moved index use (.settling command .completed) with
        calls := world.calls.modify command.ticket fun call => { call with slot := some value }
        log := .completed command.ticket value :: world.log }
    | .inline => some (world.moved index use .left)
    | _ => none
  | none => none

def panic (index : Nat) (world : FontWorld V) : Option (FontWorld V) :=
  match world.uses[index]? with
  | some use =>
    match use.phase with
    | .running command =>
      some { world.moved index use .failing with log := .panicked command.ticket :: world.log }
    | .inline => some (world.moved index use .failing)
    | .advancing =>
      if (world.sessions use.thread).any FontSession.failed then none
      else some (world.moved index use .failing)
    | _ => none
  | none => none

def settle (index : Nat) (world : FontWorld V) : Option (FontWorld V) :=
  match world.uses[index]? with
  | some use =>
    match use.phase with
    | .settling command state =>
      some { world.settleTicket command.ticket state with
        uses := world.uses.set index { use with phase := .popping } }
    | _ => none
  | none => none

def advanced (index : Nat) (failed : Bool) (world : FontWorld V) : Option (FontWorld V) :=
  match world.uses[index]? with
  | some use =>
    match use.phase with
    | .advancing =>
      let session := (world.sessions use.thread).map fun session =>
        { session with failed := session.failed || failed }
      some { world.moved index use .left with
        sessions := Function.update world.sessions use.thread session }
    | _ => none
  | none => none

def markFailed (index : Nat) (world : FontWorld V) : Option (FontWorld V) :=
  match world.uses[index]? with
  | some use =>
    match use.phase with
    | .failing =>
      let session := (world.sessions use.thread).map fun session =>
        if session.attachmentId = use.attachmentId ∧ session.context = use.context then
          { session with failed := true }
        else session
      some { world.moved index use .left with
        sessions := Function.update world.sessions use.thread session }
    | _ => none
  | none => none

def returning (ticket : Nat) (call : FontCall V) (result : Except RuntimeFontBridgeError V)
    (world : FontWorld V) : FontWorld V :=
  { world with
    calls := world.calls.set ticket { call with phase := .returned }
    log := .returned ticket result :: world.log }

def enqueue (retainedBytes : Nat) (limits : FontQueueLimits) (world : FontWorld V) : FontWorld V :=
  let ticket := world.calls.length
  match world.state.accept retainedBytes limits ticket with
  | (.error error, state) =>
    { world with
      state
      calls := world.calls ++ [⟨.returned, .queued, none⟩]
      log := .returned ticket (.error error) :: world.log }
  | (.ok attachmentId, state) =>
    { world with
      state
      calls := world.calls ++ [⟨.waiting, .queued, none⟩]
      log := .accepted ⟨attachmentId, retainedBytes, ticket⟩ :: world.log }

def wake (ticket : Nat) (world : FontWorld V) : Option (FontWorld V) :=
  match world.calls[ticket]? with
  | some ⟨.waiting, .completed, some value⟩ =>
    some (world.returning ticket ⟨.waiting, .completed, none⟩ (.ok value))
  | some ⟨.waiting, .completed, none⟩ =>
    some (world.returning ticket ⟨.waiting, .completed, none⟩ (.error .attachmentFailed))
  | some ⟨.waiting, .canceled, slot⟩ =>
    some (world.returning ticket ⟨.waiting, .canceled, slot⟩ (.error .staleAttachment))
  | _ => none

def expire (ticket : Nat) (world : FontWorld V) : Option (FontWorld V) :=
  match world.calls[ticket]? with
  | some ⟨.waiting, .queued, slot⟩ =>
    some { world with
      calls := world.calls.set ticket ⟨.gaveUp, .queued, slot⟩
      log := .gaveUp ticket :: world.log }
  | _ => none

def withdraw (ticket : Nat) (world : FontWorld V) : Option (FontWorld V) :=
  match world.calls[ticket]? with
  | some ⟨.gaveUp, settled, slot⟩ =>
    match world.state.cancelQueued ticket with
    | (none, _) => some (world.returning ticket ⟨.gaveUp, settled, slot⟩ (.error .timeout))
    | (some command, state) =>
      let canceled := { world with state, log := .canceled [command] :: world.log }
      some (canceled.returning ticket ⟨.gaveUp, .canceled, slot⟩ (.error .timeout))
  | _ => none

def step (world : FontWorld V) : FontAction V → Option (FontWorld V)
  | .attach thread context => some (world.attach thread context)
  | .dropLease lease => world.dropLease lease
  | .shutdown thread => some (world.shutdown thread)
  | .retire retirement => world.retire retirement
  | .advance thread context => some (world.enter false thread context)
  | .withActiveManager thread context => some (world.enter true thread context)
  | .borrow use => world.borrow use
  | .pop use => world.pop use
  | .run use => world.run use
  | .finish use value => world.finish use value
  | .panic use => world.panic use
  | .settle use => world.settle use
  | .advanced use failed => world.advanced use failed
  | .markFailed use => world.markFailed use
  | .enqueue retainedBytes limits => some (world.enqueue retainedBytes limits)
  | .wake call => world.wake call
  | .expire call => world.expire call
  | .withdraw call => world.withdraw call

end FontWorld

end Nexus.RuntimeFonts
