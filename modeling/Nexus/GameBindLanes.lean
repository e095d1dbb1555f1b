import Mathlib.Logic.Function.Basic
import Nexus.GameInvoker
import Nexus.TaskScheduler

namespace Nexus.GameBinds

open Scheduler (TaskOutcome)

/-! The command lanes of the game binds: one queue and one runner on the scheduler for each bind. -/

def asyncQueueCapacity : Nat := 4096

inductive GameBindCommand where
  | press (bind : GameBindId)
  | release (bind : GameBindId)
  | invoke (bind : GameBindId) (duration : Int)
  deriving DecidableEq

namespace GameBindCommand

def bind : GameBindCommand → GameBindId
  | press bind => bind
  | release bind => bind
  | invoke bind _ => bind

end GameBindCommand

structure BindCommandLane where
  queue : List GameBindCommand
  runner : Option Nat
  deriving DecidableEq

/-- Where a runner stands: in the queue of the scheduler, in `run_commands`, in `execute` with a
command, or past its task. -/
inductive RunnerPhase where
  | submitted
  | looping
  | popped (command : GameBindCommand)
  | operating (command : GameBindCommand)
  | waiting (bind : GameBindId) (press : GamePressToken)
  | releasing (bind : GameBindId) (press : GamePressToken)
  | unwinding
  | returned
  | finished (outcome : TaskOutcome)
  deriving DecidableEq

structure RunnerTask where
  bind : GameBindId
  cancelled : Bool
  phase : RunnerPhase
  deriving DecidableEq

/-- Where a thread stands in `shutdown_and_drain`. A worker of the scheduler does not wait. -/
inductive ShutdownCall where
  | idle
  | cancelling (worker : Bool) (rest handles : List Nat)
  | waiting (handles : List Nat)
  | releasing (worker : Bool)
  deriving DecidableEq

/-- `accepted` and `performed` are the commands in order, `owing` the runners whose timed invocation
pressed its bind and has not attempted a release; `drained` tells that a shutdown that waits has
returned. -/
structure GameBindLanes where
  scheduler : Bool
  accepting : Bool
  pending : Nat
  binds : SortedMap GameBindId BindCommandLane
  invoker : Option GameWorld
  tasks : Nat → RunnerTask
  taskCount : Nat
  calls : Nat → ShutdownCall
  accepted : List GameBindCommand
  performed : List GameBindCommand
  owing : List Nat
  drained : Bool

namespace GameBindLanes

def new (scheduler : Bool) (invoker : Option GameWorld) : GameBindLanes where
  scheduler
  accepting := true
  pending := 0
  binds := .empty
  invoker
  tasks _ := ⟨0, false, .finished .completed⟩
  taskCount := 0
  calls _ := .idle
  accepted := []
  performed := []
  owing := []
  drained := false

def clear (world : GameBindLanes) : GameBindLanes :=
  { world with accepting := false, pending := 0, binds := .empty }

def setTask (task : Nat) (runner : RunnerTask) (world : GameBindLanes) : GameBindLanes :=
  { world with tasks := Function.update world.tasks task runner }

def setPhase (task : Nat) (phase : RunnerPhase) (world : GameBindLanes) : GameBindLanes :=
  world.setTask task { world.tasks task with phase }

def setCall (thread : Nat) (call : ShutdownCall) (world : GameBindLanes) : GameBindLanes :=
  { world with calls := Function.update world.calls thread call }

def setLane (bind : GameBindId) (lane : BindCommandLane) (world : GameBindLanes) : GameBindLanes :=
  { world with binds := world.binds.put bind lane }

def finished (world : GameBindLanes) (task : Nat) : Bool :=
  match (world.tasks task).phase with
  | .finished _ => true
  | _ => false

def retireFinishedRunner (bind : GameBindId) (world : GameBindLanes) : GameBindLanes :=
  match world.binds.get? bind with
  | none => world
  | some lane =>
    if lane.runner.any world.finished then
      if 0 < lane.queue.length then world.clear
      else { world with binds := world.binds.erase bind }
    else world

/-- `accepts` is the answer of the scheduler to the submission of a runner. -/
def enqueue (command : GameBindCommand) (accepts : Bool) (world : GameBindLanes) :
    Bool × GameBindLanes :=
  if world.scheduler then
    let world := world.retireFinishedRunner command.bind
    if world.accepting = false ∨ asyncQueueCapacity ≤ world.pending ∨ world.invoker.isNone then
      (false, world)
    else
      let lane := (world.binds.get? command.bind).getD ⟨[], none⟩
      let queued := { world.setLane command.bind { lane with queue := lane.queue ++ [command] } with
        pending := world.pending + 1
        accepted := world.accepted ++ [command] }
      if lane.runner.isSome then (true, queued)
      else if accepts then
        let started := { queued.setTask world.taskCount ⟨command.bind, false, .submitted⟩ with
          taskCount := world.taskCount + 1 }
        (true, started.setLane command.bind ⟨lane.queue ++ [command], some world.taskCount⟩)
      else (false, world.clear)
  else (false, world)

def operate (platform : GamePlatform) (command : GameBindCommand) (game : GameWorld) :
    Option GamePressToken × GameWorld :=
  match command with
  | .press bind => (none, (GameInvoker.pressRepeated platform bind game).2)
  | .release bind => (none, (GameInvoker.release platform bind game).2)
  | .invoke bind duration =>
    match GameInvoker.pressRepeated platform bind game with
    | (.error _, game) => (none, game)
    | (.ok (_, press), game) =>
      if duration ≤ 0 then (none, (GameInvoker.releaseTracked platform bind press game).2)
      else (some press, game)

def perform (platform : GamePlatform) (task : Nat) (command : GameBindCommand) (unwinds : Bool)
    (world : GameBindLanes) : GameBindLanes :=
  let world := { world with performed := world.performed ++ [command] }
  if unwinds then world.setPhase task .unwinding
  else
    match world.invoker with
    | none => world.setPhase task .looping
    | some game =>
      let (press, game) := operate platform command game
      match press with
      | none => { world.setPhase task .looping with invoker := some game }
      | some press => { world.setPhase task (.waiting command.bind press) with
          invoker := some game
          owing := task :: world.owing }

/-- `release_tracked` of a timed invocation. -/
def releaseTimed (platform : GamePlatform) (task : Nat) (bind : GameBindId) (press : GamePressToken)
    (unwinds : Bool) (world : GameBindLanes) : GameBindLanes :=
  let world := { world with owing := world.owing.filter (· ≠ task) }
  if unwinds then world.setPhase task .unwinding
  else
    { world.setPhase task .looping with
      invoker := world.invoker.map fun game =>
        (GameInvoker.releaseTracked platform bind press game).2 }

/-- The top of the loop of `run_commands`. -/
def nextCommand (task : Nat) (world : GameBindLanes) : GameBindLanes :=
  let bind := (world.tasks task).bind
  if (world.tasks task).cancelled ∨ world.accepting = false then
    world.clear.setPhase task .returned
  else
    match world.binds.get? bind with
    | some ⟨command :: queue, runner⟩ =>
      ({ world with pending := world.pending - 1 }.setLane bind ⟨queue, runner⟩).setPhase task
        (.popped command)
    | _ => { world with binds := world.binds.erase bind }.setPhase task .returned

def runnerStep (platform : GamePlatform) (task : Nat) (unwinds : Bool) (world : GameBindLanes) :
    Option GameBindLanes :=
  let cancelled := (world.tasks task).cancelled
  match (world.tasks task).phase with
  | .submitted =>
    some (world.setPhase task (if cancelled then .finished .cancelled else .looping))
  | .looping => some (world.nextCommand task)
  | .popped command =>
    some (world.setPhase task (if cancelled then .looping else .operating command))
  | .operating command =>
    some (if world.accepting = false ∨ cancelled then world.setPhase task .looping
      else world.perform platform task command unwinds)
  | .waiting bind press => some (world.setPhase task (.releasing bind press))
  | .releasing bind press => some (world.releaseTimed platform task bind press unwinds)
  | .unwinding => some (world.clear.setPhase task .returned)
  | .returned =>
    some (world.setPhase task (.finished (if cancelled then .cancelled else .completed)))
  | .finished _ => none

def cancelTask (task : Nat) (world : GameBindLanes) : GameBindLanes :=
  world.setTask task { world.tasks task with cancelled := true }

def requestShutdown (thread : Nat) (worker : Bool) (world : GameBindLanes) : GameBindLanes :=
  let runners := world.binds.values.filterMap BindCommandLane.runner
  world.clear.setCall thread (.cancelling worker runners runners)

/-- The next step of a thread in `shutdown_and_drain`; it waits for the outcome of each handle. -/
def shutdownStep (platform : GamePlatform) (thread : Nat) (world : GameBindLanes) :
    Option GameBindLanes :=
  match world.calls thread with
  | .idle => none
  | .cancelling worker (task :: rest) handles =>
    some ((world.cancelTask task).setCall thread (.cancelling worker rest handles))
  | .cancelling worker [] handles =>
    some (world.setCall thread (if worker then .releasing true else .waiting handles))
  | .waiting (task :: rest) =>
    if world.finished task then some (world.setCall thread (.waiting rest)) else none
  | .waiting [] => some (world.setCall thread (.releasing false))
  | .releasing worker =>
    let released := match world.invoker with
      | none => world
      | some game => { world with
          invoker := some (GameInvoker.releaseAll platform game).2
          owing := [] }
    some { released.setCall thread .idle with drained := world.drained || !worker }

end GameBindLanes

/-- `bind` is what the caller passes; the lanes know canonical binds only. -/
inductive GameBindAction where
  | pressAsync (bind : GameBindId) (accepts : Bool)
  | releaseAsync (bind : GameBindId) (accepts : Bool)
  | invokeAsync (bind : GameBindId) (duration : Int) (accepts : Bool)
  | press (bind : GameBindId)
  | release (bind : GameBindId)
  | setInvoker (invoker : Option GameWorld)
  | cancelTask (task : Nat)
  | runner (task : Nat) (unwinds : Bool)
  | requestShutdown (thread : Nat) (worker : Bool)
  | shutdown (thread : Nat)

namespace GameBindLanes

variable (platform : GamePlatform)

def syncOperation {α : Type} (operation : GameMethod α) (world : GameBindLanes) : GameBindLanes :=
  if world.accepting then
    { world with invoker := world.invoker.map fun game => (operation game).2 }
  else world

def step (world : GameBindLanes) : GameBindAction → Option GameBindLanes
  | .pressAsync bind accepts => some (world.enqueue (.press bind.canonical) accepts).2
  | .releaseAsync bind accepts => some (world.enqueue (.release bind.canonical) accepts).2
  | .invokeAsync bind duration accepts =>
    some (world.enqueue (.invoke bind.canonical duration) accepts).2
  | .press bind =>
    some (world.syncOperation (GameInvoker.pressRepeated platform bind.canonical))
  | .release bind => some (world.syncOperation (GameInvoker.release platform bind.canonical))
  | .setInvoker invoker => some { world with invoker }
  | .cancelTask task => some (world.cancelTask task)
  | .runner task unwinds => world.runnerStep platform task unwinds
  | .requestShutdown thread worker =>
    if world.calls thread = .idle then some (world.requestShutdown thread worker) else none
  | .shutdown thread => world.shutdownStep platform thread

end GameBindLanes

open Relation Scheduler StepRuns

namespace RunnerPhase

def live : RunnerPhase → Bool
  | returned => false
  | finished _ => false
  | _ => true

/-- Inside `execute`. -/
def executing : RunnerPhase → Bool
  | popped _ => true
  | operating _ => true
  | waiting _ _ => true
  | releasing _ _ => true
  | _ => false

def inHand : RunnerPhase → List GameBindCommand
  | popped command => [command]
  | operating command => [command]
  | _ => []

/-- Between the press and the attempt to release of a timed invocation. -/
def holds : RunnerPhase → Bool
  | waiting _ _ => true
  | releasing _ _ => true
  | _ => false

theorem live_of_executing {phase : RunnerPhase} (h : phase.executing = true) :
    phase.live = true := by
  cases phase <;> first | rfl | cases h

theorem executing_of_holds {phase : RunnerPhase} (h : phase.holds = true) :
    phase.executing = true := by
  cases phase <;> first | rfl | cases h

theorem inHand_of_holds {phase : RunnerPhase} (h : phase.holds = true) : phase.inHand = [] := by
  cases phase <;> first | rfl | cases h

end RunnerPhase

def ShutdownCall.handles : ShutdownCall → Option (List Nat)
  | cancelling false _ handles => some handles
  | waiting handles => some handles
  | releasing false => some []
  | _ => none

namespace GameBindLanes

def live (world : GameBindLanes) (task : Nat) : Bool := (world.tasks task).phase.live

def executing (world : GameBindLanes) (task : Nat) : Bool := (world.tasks task).phase.executing

def runners (world : GameBindLanes) : List Nat :=
  world.binds.values.filterMap BindCommandLane.runner

def joined (command : GameBindCommand) (lane : BindCommandLane) (world : GameBindLanes) :
    GameBindLanes :=
  { world.setLane command.bind { lane with queue := lane.queue ++ [command] } with
    pending := world.pending + 1
    accepted := world.accepted ++ [command] }

def launched (command : GameBindCommand) (world : GameBindLanes) : GameBindLanes :=
  { world with
    binds := world.binds.put command.bind ⟨[command], some world.taskCount⟩
    tasks := Function.update world.tasks world.taskCount ⟨command.bind, false, .submitted⟩
    taskCount := world.taskCount + 1
    pending := world.pending + 1
    accepted := world.accepted ++ [command] }

def took (task : Nat) (command : GameBindCommand) (queue : List GameBindCommand)
    (runner : Option Nat) (world : GameBindLanes) : GameBindLanes :=
  ({ world with pending := world.pending - 1 }.setLane (world.tasks task).bind
    ⟨queue, runner⟩).setPhase task (.popped command)

def left (task : Nat) (world : GameBindLanes) : GameBindLanes :=
  { world with binds := world.binds.erase (world.tasks task).bind }.setPhase task .returned

end GameBindLanes

/-- Changes of a runner's phase that touch nothing else. -/
inductive Shift (accepting cancelled : Bool) : RunnerPhase → RunnerPhase → Prop
  | begun : Shift accepting cancelled .submitted .looping
  | left : accepting = false → Shift accepting cancelled .submitted (.finished .cancelled)
  | entered (command : GameBindCommand) : cancelled = false →
      Shift accepting cancelled (.popped command) (.operating command)
  | dropped (command : GameBindCommand) : cancelled = true →
      Shift accepting cancelled (.popped command) .looping
  | barred (command : GameBindCommand) : accepting = false ∨ cancelled = true →
      Shift accepting cancelled (.operating command) .looping
  | woken (bind : GameBindId) (press : GamePressToken) :
      Shift accepting cancelled (.waiting bind press) (.releasing bind press)
  | settled (outcome : TaskOutcome) : Shift accepting cancelled .returned (.finished outcome)

inductive Outcome (task : Nat) (owing : List Nat) : RunnerPhase → List Nat → Prop
  | done : Outcome task owing .looping owing
  | unwound : Outcome task owing .unwinding owing
  | pressed (bind : GameBindId) (press : GamePressToken) :
      Outcome task owing (.waiting bind press) (task :: owing)

inductive Move : GameBindLanes → GameBindLanes → Prop
  | invoked {world : GameBindLanes} (invoker : Option GameWorld) : Move world { world with invoker }
  | closed {world : GameBindLanes} : Move world world.clear
  | queued {world : GameBindLanes} {command : GameBindCommand} {lane : BindCommandLane} :
      world.accepting = true → world.pending < asyncQueueCapacity →
      world.binds.get? command.bind = some lane → Move world (world.joined command lane)
  | started {world : GameBindLanes} {command : GameBindCommand} :
      world.accepting = true → world.pending < asyncQueueCapacity →
      world.binds.get? command.bind = none → Move world (world.launched command)
  | shifted {world : GameBindLanes} {task : Nat} {phase : RunnerPhase} :
      Shift world.accepting (world.tasks task).cancelled (world.tasks task).phase phase →
      Move world (world.setPhase task phase)
  | stopped {world : GameBindLanes} {task : Nat} : world.live task = true →
      world.executing task = false → Move world (world.clear.setPhase task .returned)
  | popped {world : GameBindLanes} {task : Nat} {command : GameBindCommand}
      {queue : List GameBindCommand} {runner : Option Nat} :
      (world.tasks task).phase = .looping → world.accepting = true →
      (world.tasks task).cancelled = false →
      world.binds.get? (world.tasks task).bind = some ⟨command :: queue, runner⟩ →
      Move world (world.took task command queue runner)
  | retired {world : GameBindLanes} {task : Nat} :
      (world.tasks task).phase = .looping → world.accepting = true →
      (world.tasks task).cancelled = false →
      (∀ lane, world.binds.get? (world.tasks task).bind = some lane → lane.queue = []) →
      Move world (world.left task)
  | performed {world : GameBindLanes} {task : Nat} {command : GameBindCommand}
      {phase : RunnerPhase} {owing : List Nat} (invoker : Option GameWorld) :
      (world.tasks task).phase = .operating command → world.accepting = true →
      (world.tasks task).cancelled = false → Outcome task world.owing phase owing →
      Move world { world.setPhase task phase with
        performed := world.performed ++ [command]
        invoker
        owing }
  | released {world : GameBindLanes} {task : Nat} {phase : RunnerPhase}
      (invoker : Option GameWorld) : (world.tasks task).phase.holds = true →
      phase = .looping ∨ phase = .unwinding → Move world { world.setPhase task phase with
        invoker
        owing := world.owing.filter (· ≠ task) }
  | cancelled {world : GameBindLanes} (task : Nat) : Move world (world.cancelTask task)
  | requested {world : GameBindLanes} {thread : Nat} {worker : Bool} :
      (worker = false → ∀ task, world.executing task = true → task ∈ world.runners) →
      Move world (world.requestShutdown thread worker)
  | advanced {world : GameBindLanes} {thread : Nat} {call : ShutdownCall} :
      (∀ after, call.handles = some after → ∃ before, (world.calls thread).handles = some before ∧
        ∀ task ∈ before, world.executing task = true → task ∈ after) →
      Move world (world.setCall thread call)
  | ended {world : GameBindLanes} {thread : Nat} {worker : Bool} {owing : List Nat}
      (invoker : Option GameWorld) : world.calls thread = .releasing worker →
      (∀ task ∈ owing, task ∈ world.owing) → Move world { world.setCall thread .idle with
        invoker
        owing
        drained := world.drained || !worker }

abbrev Moves := ReflTransGen Move

end Nexus.GameBinds
