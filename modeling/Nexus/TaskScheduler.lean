import Nexus.Fallible
import Nexus.SortedMap
import Nexus.StepRuns

namespace Nexus.Scheduler

inductive TaskPriority where
  | low
  | normal
  | high
  deriving DecidableEq

def TaskPriority.rank : TaskPriority → Nat
  | .low => 0
  | .normal => 1
  | .high => 2

inductive TaskOutcome where
  | completed
  | cancelled
  | panicked
  deriving DecidableEq

inductive MinimalSchedulerError where
  | zeroWorkers
  | zeroInterval
  | closed
  | workerPanicked
  deriving DecidableEq

inductive Job where
  | once
  | every (interval : Nat)
  deriving DecidableEq

structure TaskControl where
  cancelled : Bool
  outcome : Option TaskOutcome
  handles : Nat
  deriving DecidableEq

namespace TaskControl

def cancel (task : TaskControl) : TaskControl := { task with cancelled := true }

def settle (outcome : TaskOutcome) (task : TaskControl) : TaskControl :=
  { task with outcome := some outcome }

def withHandles (change : Nat → Nat) (task : TaskControl) : TaskControl :=
  { task with handles := change task.handles }

theorem cancel_outcome (task : TaskControl) : task.cancel.outcome = task.outcome := rfl

theorem withHandles_outcome (change : Nat → Nat) (task : TaskControl) :
    (task.withHandles change).outcome = task.outcome := rfl

theorem cancel_cancelled (task : TaskControl) (_ : task.cancelled = true) :
    task.cancel.cancelled = true := rfl

theorem settle_cancelled (outcome : TaskOutcome) (task : TaskControl) (h : task.cancelled = true) :
    (task.settle outcome).cancelled = true := h

theorem withHandles_cancelled (change : Nat → Nat) (task : TaskControl) (h : task.cancelled = true) :
    (task.withHandles change).cancelled = true := h

end TaskControl

/-- `control` is the place of the task's control among those of all accepted tasks. -/
structure QueuedTask where
  id : Nat
  priority : TaskPriority
  sequence : Nat
  control : Nat
  job : Option Job
  deriving DecidableEq

def QueuedTask.cmp (task other : QueuedTask) : Ordering :=
  (compare task.priority.rank other.priority.rank).then (compare other.sequence task.sequence)

/-- Identifiers and sequences are `u64`. -/
def saturatingAdd (count : Nat) : Nat := min (count + 1) (2 ^ 64 - 1)

structure SchedulerState where
  accepting : Bool
  nextId : Nat
  nextSequence : Nat
  queue : List QueuedTask
  controls : SortedMap Nat Nat

namespace SchedulerState

def start : SchedulerState := ⟨true, 1, 1, [], .empty⟩

def submit (priority : TaskPriority) (control : Nat) (job : Job) :
    Fallible SchedulerState MinimalSchedulerError QueuedTask := fun state =>
  if state.accepting then
    let task : QueuedTask := ⟨state.nextId, priority, state.nextSequence, control, some job⟩
    (.ok task,
      { state with
        nextId := saturatingAdd state.nextId
        nextSequence := saturatingAdd state.nextSequence
        controls := state.controls.put state.nextId control
        queue := state.queue ++ [task] })
  else (.error .closed, state)

def scheduleEvery (interval : Nat) (priority : TaskPriority) (control : Nat) :
    Fallible SchedulerState MinimalSchedulerError QueuedTask := fun state =>
  if interval = 0 then (.error .zeroInterval, state)
  else submit priority control (.every interval) state

def pop (index : Nat) (state : SchedulerState) : Option (QueuedTask × SchedulerState) :=
  match state.queue[index]? with
  | none => none
  | some task =>
    if ∀ other ∈ state.queue, other.cmp task ≠ .gt then
      some (task, { state with queue := state.queue.eraseIdx index })
    else none

end SchedulerState

inductive Worker where
  | looping
  | took (task : QueuedTask)
  | running (task : QueuedTask) (job : Job)
  | calling (task : QueuedTask) (interval : Nat)
  | returned (task : QueuedTask)
  | unwound (task : QueuedTask)
  | settling (task : QueuedTask) (outcome : TaskOutcome)
  | stored (task : QueuedTask)
  | leaving (task : QueuedTask)
  | finished
  | panicked (lost : Option QueuedTask)
  deriving DecidableEq

namespace Worker

def unsettled : Worker → Option QueuedTask
  | .took task | .running task _ | .calling task _ | .returned task | .unwound task
  | .settling task _ => some task
  | .panicked lost => lost
  | .looping | .stored _ | .leaving _ | .finished => none

def task? : Worker → Option QueuedTask
  | .stored task | .leaving task => some task
  | .panicked _ => none
  | worker => worker.unsettled

/-- The thread has ended; a join says whether it panicked. -/
def ended : Worker → Option Bool
  | .finished => some false
  | .panicked _ => some true
  | _ => none

end Worker

/-- A call of `shutdown` or `shutdown_and_drain` after its locked section. -/
inductive ShutdownCall where
  | cancelling (drains : Bool) (controls : List Nat)
  | joining (taken : List Nat) (workers : List Nat) (panicked : Bool)
  | returned
  deriving DecidableEq

inductive SchedulerEvent where
  | accepted (task : QueuedTask)
  | closed
  | cancelled (control : Nat)
  | taken (task : QueuedTask)
  | started (control : Nat)
  | settled (control : Nat) (outcome : TaskOutcome)
  | drained (taken : List Nat) (result : Except MinimalSchedulerError Unit)

/-- One scheduler, its worker threads, the calls in progress, and what happened, newest first. -/
structure SchedulerWorld where
  state : SchedulerState
  tasks : List TaskControl
  workers : List Worker
  joinHandles : List Nat
  calls : List ShutdownCall
  log : List SchedulerEvent

inductive SchedulerAction where
  | submit (priority : TaskPriority)
  | scheduleEvery (interval : Nat) (priority : TaskPriority)
  | cancel (control : Nat)
  | cloneHandle (control : Nat)
  | dropHandle (control : Nat)
  | shutdown (drains : Bool)
  | proceed (call : Nat)
  | take (worker index : Nat)
  | finish (worker : Nat)
  | enter (worker : Nat)
  | waited (worker : Nat)
  | ran (worker : Nat) (panics : Bool)
  | judge (worker : Nat) (dropPanics : Bool)
  | store (worker : Nat)
  | forget (worker : Nat)
  | leave (worker : Nat) (dropPanics : Bool)

namespace SchedulerWorld

def withWorkerCount (count : Nat) : Except MinimalSchedulerError SchedulerWorld :=
  if count = 0 then .error .zeroWorkers
  else .ok ⟨.start, [], List.replicate count .looping, List.range count, [], []⟩

def isCancelled (world : SchedulerWorld) (control : Nat) : Bool :=
  world.tasks[control]?.elim false TaskControl.cancelled

def outcome (world : SchedulerWorld) (control : Nat) : Option TaskOutcome :=
  world.tasks[control]?.bind TaskControl.outcome

def alive (world : SchedulerWorld) (control : Nat) : Bool :=
  world.tasks[control]?.elim false (0 < ·.handles) ||
    world.state.queue.any (·.control = control) ||
    world.workers.any fun worker => worker.task?.any (·.control = control)

/-- What `submit` and `schedule_every` do with the locked section's result. -/
def admitted (result : Except MinimalSchedulerError QueuedTask × SchedulerState)
    (world : SchedulerWorld) : SchedulerWorld :=
  match result with
  | (.error _, state) => { world with state }
  | (.ok task, state) =>
    { world with
      state
      tasks := world.tasks ++ [⟨false, none, 1⟩]
      log := .accepted task :: world.log }

def cancelToken (control : Nat) (world : SchedulerWorld) : SchedulerWorld :=
  { world with
    tasks := world.tasks.modify control .cancel
    log := .cancelled control :: world.log }

/-- The locked section of `shutdown`. -/
def closing (drains : Bool) (world : SchedulerWorld) : SchedulerWorld :=
  { world with
    state := { world.state with accepting := false }
    calls := world.calls ++ [.cancelling drains (world.state.controls.values.filter world.alive)]
    log := .closed :: world.log }

def drainResult (panicked : Bool) : Except MinimalSchedulerError Unit :=
  if panicked then .error .workerPanicked else .ok ()

def proceed (call : Nat) (world : SchedulerWorld) : Option SchedulerWorld :=
  match world.calls[call]? with
  | some (.cancelling drains (control :: rest)) =>
    some { world.cancelToken control with calls := world.calls.set call (.cancelling drains rest) }
  | some (.cancelling false []) => some { world with calls := world.calls.set call .returned }
  | some (.cancelling true []) =>
    some { world with
      joinHandles := []
      calls := world.calls.set call (.joining world.joinHandles world.joinHandles false) }
  | some (.joining taken (worker :: rest) panicked) =>
    match world.workers[worker]?.bind Worker.ended with
    | some failed =>
      some { world with calls := world.calls.set call (.joining taken rest (panicked || failed)) }
    | none => none
  | some (.joining taken [] panicked) =>
    some { world with
      calls := world.calls.set call .returned
      log := .drained taken (drainResult panicked) :: world.log }
  | some .returned | none => none

def moved (index : Nat) (worker : Worker) (world : SchedulerWorld) : SchedulerWorld :=
  { world with workers := world.workers.set index worker }

def take (index place : Nat) (world : SchedulerWorld) : Option SchedulerWorld :=
  match world.workers[index]? with
  | some .looping =>
    match world.state.pop place with
    | some (task, state) =>
      some { world.moved index (.took task) with state, log := .taken task :: world.log }
    | none => none
  | _ => none

def finish (index : Nat) (world : SchedulerWorld) : Option SchedulerWorld :=
  match world.workers[index]? with
  | some .looping =>
    if world.state.queue = [] ∧ world.state.accepting = false then
      some (world.moved index .finished)
    else none
  | _ => none

def enter (index : Nat) (world : SchedulerWorld) : Option SchedulerWorld :=
  match world.workers[index]? with
  | some (.took task) =>
    if world.isCancelled task.control then some (world.moved index (.settling task .cancelled))
    else
      match task.job with
      | none => some (world.moved index (.panicked (some task)))
      | some job =>
        some { world.moved index (.running { task with job := none } job) with
          log := .started task.control :: world.log }
  | _ => none

def waited (index : Nat) (world : SchedulerWorld) : Option SchedulerWorld :=
  match world.workers[index]? with
  | some (.running task (.every interval)) =>
    some (world.moved index
      (if world.isCancelled task.control then .returned task else .calling task interval))
  | _ => none

def ran (index : Nat) (panics : Bool) (world : SchedulerWorld) : Option SchedulerWorld :=
  match world.workers[index]? with
  | some (.running task .once) =>
    some (world.moved index (if panics then .unwound task else .returned task))
  | some (.calling task interval) =>
    some (world.moved index
      (if panics then .unwound task
      else if world.isCancelled task.control then .returned task
      else .running task (.every interval)))
  | _ => none

/-- The outcome of the job. The payload of a panic is dropped outside `catch_unwind`. -/
def judge (index : Nat) (dropPanics : Bool) (world : SchedulerWorld) : Option SchedulerWorld :=
  match world.workers[index]? with
  | some (.returned task) =>
    some (world.moved index
      (.settling task (if world.isCancelled task.control then .cancelled else .completed)))
  | some (.unwound task) =>
    some (world.moved index
      (if dropPanics then .panicked (some task) else .settling task .panicked))
  | _ => none

def store (index : Nat) (world : SchedulerWorld) : Option SchedulerWorld :=
  match world.workers[index]? with
  | some (.settling task outcome) =>
    some { world.moved index (.stored task) with
      tasks := world.tasks.modify task.control (.settle outcome)
      log := .settled task.control outcome :: world.log }
  | _ => none

def forget (index : Nat) (world : SchedulerWorld) : Option SchedulerWorld :=
  match world.workers[index]? with
  | some (.stored task) =>
    some { world.moved index (.leaving task) with
      state := { world.state with controls := world.state.controls.erase task.id } }
  | _ => none

/-- The end of `run_task` drops the task, with its job where that never ran. -/
def leave (index : Nat) (dropPanics : Bool) (world : SchedulerWorld) : Option SchedulerWorld :=
  match world.workers[index]? with
  | some (.leaving task) =>
    some (world.moved index
      (if dropPanics && task.job.isSome then .panicked none else .looping))
  | _ => none

def withHandles (control : Nat) (change : Nat → Nat) (world : SchedulerWorld) :
    Option SchedulerWorld :=
  if world.tasks[control]?.any (0 < ·.handles) then
    some { world with tasks := world.tasks.modify control (.withHandles change) }
  else none

def step (world : SchedulerWorld) : SchedulerAction → Option SchedulerWorld
  | .submit priority =>
    some (world.admitted (world.state.submit priority world.tasks.length .once))
  | .scheduleEvery interval priority =>
    some (world.admitted (world.state.scheduleEvery interval priority world.tasks.length))
  | .cancel control =>
    if world.tasks[control]?.any (0 < ·.handles) then some (world.cancelToken control) else none
  | .cloneHandle control => world.withHandles control (· + 1)
  | .dropHandle control => world.withHandles control (· - 1)
  | .shutdown drains => some (world.closing drains)
  | .proceed call => world.proceed call
  | .take worker index => world.take worker index
  | .finish worker => world.finish worker
  | .enter worker => world.enter worker
  | .waited worker => world.waited worker
  | .ran worker panics => world.ran worker panics
  | .judge worker dropPanics => world.judge worker dropPanics
  | .store worker => world.store worker
  | .forget worker => world.forget worker
  | .leave worker dropPanics => world.leave worker dropPanics

end SchedulerWorld

end Nexus.Scheduler
