import Nexus.TaskScheduler

namespace Nexus.Scheduler

namespace Worker

def waits (control : Nat) : Worker → Nat
  | .took task => if task.control = control then 1 else 0
  | _ => 0

def holds (control : Nat) (worker : Worker) : Nat :=
  match worker.unsettled with
  | some task => if task.control = control then 1 else 0
  | none => 0

/-- The job of the worker's task did not run and will not, if the token is set. -/
def unrun : Worker → Bool
  | .took _ | .settling _ .cancelled => true
  | _ => false

variable {worker : Worker}

theorem holds_self {task : QueuedTask} (h : worker.unsettled = some task) :
    worker.holds task.control = 1 := by
  unfold holds
  rw [h]
  exact if_pos rfl

theorem waits_eq_zero (h : ∀ task, worker ≠ .took task) (control : Nat) :
    worker.waits control = 0 := by
  cases worker with
  | took task => exact absurd rfl (h task)
  | looping | running | calling | returned | unwound | settling | stored | leaving | finished
  | panicked => rfl

end Worker

namespace SchedulerWorld

/-- What a worker does on its own, between the steps that the other threads can see. -/
structure Continues (world : SchedulerWorld) (old new : Worker) : Prop where
  live : old.ended = none
  same : new.unsettled.map QueuedTask.control = old.unsettled.map QueuedTask.control
  begun : ∀ task, new ≠ .took task
  unrun : ∀ task, old.unsettled = some task → world.isCancelled task.control = true →
    old.unrun = true → new.unrun = true
  finished : new = .finished → world.state.queue = [] ∧ world.state.accepting = false

def newTask (priority : TaskPriority) (job : Job) (world : SchedulerWorld) : QueuedTask :=
  ⟨world.state.nextId, priority, world.state.nextSequence, world.tasks.length, some job⟩

def accept (task : QueuedTask) (world : SchedulerWorld) : SchedulerWorld :=
  { world with
    state := { world.state with
      nextId := saturatingAdd world.state.nextId
      nextSequence := saturatingAdd world.state.nextSequence
      controls := world.state.controls.put world.state.nextId task.control
      queue := world.state.queue ++ [task] }
    tasks := world.tasks ++ [⟨false, none, 1⟩]
    log := .accepted task :: world.log }

theorem admitted_submit (priority : TaskPriority) (job : Job) (world : SchedulerWorld) :
    world.admitted (world.state.submit priority world.tasks.length job) =
      if world.state.accepting then world.accept (world.newTask priority job) else world := by
  unfold SchedulerState.submit
  split <;> rfl

inductive Move (world : SchedulerWorld) : SchedulerWorld → Prop where
  | refused : Move world world
  | accepted (priority : TaskPriority) (job : Job) (hopen : world.state.accepting = true) :
      Move world (world.accept (world.newTask priority job))
  | handled (control : Nat) (change : Nat → Nat) :
      Move world { world with tasks := world.tasks.modify control (.withHandles change) }
  | cancelled (control : Nat) (hknown : control < world.tasks.length) :
      Move world (world.cancelToken control)
  | closed (drains : Bool) : Move world (world.closing drains)
  | cancelledNext (call : Nat) (drains : Bool) (control : Nat) (rest : List Nat)
      (hcall : world.calls[call]? = some (.cancelling drains (control :: rest))) :
      Move world { world.cancelToken control with
        calls := world.calls.set call (.cancelling drains rest) }
  | shut (call : Nat) : Move world { world with calls := world.calls.set call .returned }
  | tookHandles (call : Nat) :
      Move world { world with
        joinHandles := []
        calls := world.calls.set call (.joining world.joinHandles world.joinHandles false) }
  | joined (call : Nat) (taken : List Nat) (index : Nat) (rest : List Nat) (panicked : Bool)
      (worker : Worker) (failed : Bool)
      (hcall : world.calls[call]? = some (.joining taken (index :: rest) panicked))
      (hworker : world.workers[index]? = some worker) (hended : worker.ended = some failed) :
      Move world { world with
        calls := world.calls.set call (.joining taken rest (panicked || failed)) }
  | drained (call : Nat) (taken : List Nat) (panicked : Bool)
      (hcall : world.calls[call]? = some (.joining taken [] panicked)) :
      Move world { world with
        calls := world.calls.set call .returned
        log := .drained taken (drainResult panicked) :: world.log }
  | taken (index place : Nat) (task : QueuedTask) (hworker : world.workers[index]? = some .looping)
      (htask : world.state.queue[place]? = some task)
      (hgreatest : ∀ other ∈ world.state.queue, other.cmp task ≠ .gt) :
      Move world { world.moved index (.took task) with
        state := { world.state with queue := world.state.queue.eraseIdx place }
        log := .taken task :: world.log }
  | started (index : Nat) (task : QueuedTask) (job : Job)
      (hworker : world.workers[index]? = some (.took task))
      (hlive : world.isCancelled task.control = false) (hjob : task.job = some job) :
      Move world { world.moved index (.running { task with job := none } job) with
        log := .started task.control :: world.log }
  | stored (index : Nat) (task : QueuedTask) (outcome : TaskOutcome)
      (hworker : world.workers[index]? = some (.settling task outcome)) :
      Move world { world.moved index (.stored task) with
        tasks := world.tasks.modify task.control (.settle outcome)
        log := .settled task.control outcome :: world.log }
  | forgot (index : Nat) (task : QueuedTask) (hworker : world.workers[index]? = some (.stored task)) :
      Move world { world.moved index (.leaving task) with
        state := { world.state with controls := world.state.controls.erase task.id } }
  | worked (index : Nat) (old new : Worker) (hworker : world.workers[index]? = some old)
      (h : Continues world old new) : Move world (world.moved index new)

section Moves

variable {world next : SchedulerWorld}

theorem Continues.of_task {old new : Worker} {task other : QueuedTask}
    (hold : old.unsettled = some task) (hnew : new.unsettled = some other)
    (hsame : other.control = task.control) (hlive : old.ended = none)
    (hbegun : ∀ task, new ≠ .took task) (hunrun : old.unrun = true →
      world.isCancelled task.control = true → new.unrun = true) : Continues world old new where
  live := hlive
  same := by rw [hold, hnew, Option.map_some, Option.map_some, hsame]
  begun := hbegun
  unrun _ htask hcancelled h := by
    rw [hold] at htask
    cases htask
    exact hunrun h hcancelled
  finished h := by
    rw [h] at hnew
    cases hnew

theorem proceed_move {call : Nat} (h : world.proceed call = some next) : Move world next := by
  unfold proceed at h
  split at h
  next drains control rest hcall =>
    cases h
    exact .cancelledNext call drains control rest hcall
  next hcall =>
    cases h
    exact .shut call
  next hcall =>
    cases h
    exact .tookHandles call
  next taken index rest panicked hcall =>
    split at h
    next failed hended =>
      cases h
      obtain ⟨worker, hworker, hended⟩ := Option.bind_eq_some_iff.mp hended
      exact .joined call taken index rest panicked worker failed hcall hworker hended
    next => cases h
  next taken panicked hcall =>
    cases h
    exact .drained call taken panicked hcall
  next => cases h
  next => cases h

variable {index : Nat}

theorem take_move {place : Nat} (h : world.take index place = some next) : Move world next := by
  unfold take SchedulerState.pop at h
  split at h
  next hworker =>
    split at h
    next hpop =>
      split at hpop
      next => cases hpop
      next htask =>
        obtain ⟨hgreatest, heq⟩ := Option.ite_none_right_eq_some.mp hpop
        cases heq
        cases h
        exact .taken index place _ hworker htask hgreatest
    next => cases h
  next => cases h

theorem finish_move (h : world.finish index = some next) : Move world next := by
  unfold finish at h
  split at h
  next hworker =>
    obtain ⟨hdone, heq⟩ := Option.ite_none_right_eq_some.mp h
    cases heq
    exact .worked index _ _ hworker ⟨rfl, rfl, nofun, nofun, fun _ => hdone⟩
  next => cases h

theorem enter_move (h : world.enter index = some next) : Move world next := by
  unfold enter at h
  split at h
  next task hworker =>
    split at h
    next hcancelled =>
      cases h
      exact .worked index _ _ hworker
        (.of_task rfl rfl rfl rfl nofun fun _ _ => rfl)
    next hlive =>
      split at h
      next hjob =>
        cases h
        refine .worked index _ _ hworker (.of_task rfl rfl rfl rfl nofun ?_)
        exact fun _ hcancelled => absurd hcancelled hlive
      next job hjob =>
        cases h
        exact .started index task job hworker (Bool.eq_false_iff.mpr hlive) hjob
  next => cases h

theorem waited_move (h : world.waited index = some next) : Move world next := by
  unfold waited at h
  split at h
  next hworker =>
    cases h
    refine .worked index _ _ hworker ?_
    split
    · exact .of_task rfl rfl rfl rfl nofun nofun
    · exact .of_task rfl rfl rfl rfl nofun nofun
  next => cases h

theorem ran_move {panics : Bool} (h : world.ran index panics = some next) : Move world next := by
  unfold ran at h
  split at h
  next task hworker =>
    cases h
    refine .worked index _ _ hworker ?_
    split
    · exact .of_task rfl rfl rfl rfl nofun nofun
    · exact .of_task rfl rfl rfl rfl nofun nofun
  next hworker =>
    cases h
    refine .worked index _ _ hworker ?_
    split
    · exact .of_task rfl rfl rfl rfl nofun nofun
    · split
      · exact .of_task rfl rfl rfl rfl nofun nofun
      · exact .of_task rfl rfl rfl rfl nofun nofun
  next => cases h

variable {dropPanics : Bool}

theorem judge_move (h : world.judge index dropPanics = some next) : Move world next := by
  unfold judge at h
  split at h
  next task hworker =>
    cases h
    exact .worked index _ _ hworker
      (.of_task rfl rfl rfl rfl nofun nofun)
  next hworker =>
    cases h
    refine .worked index _ _ hworker ?_
    split
    · exact .of_task rfl rfl rfl rfl nofun nofun
    · exact .of_task rfl rfl rfl rfl nofun nofun
  next => cases h

theorem store_move (h : world.store index = some next) : Move world next := by
  unfold store at h
  split at h
  next task outcome hworker =>
    cases h
    exact .stored index task outcome hworker
  next => cases h

theorem forget_move (h : world.forget index = some next) : Move world next := by
  unfold forget at h
  split at h
  next task hworker =>
    cases h
    exact .forgot index task hworker
  next => cases h

theorem leave_move (h : world.leave index dropPanics = some next) : Move world next := by
  unfold leave at h
  split at h
  next hworker =>
    cases h
    refine .worked index _ _ hworker ?_
    split
    · exact ⟨rfl, rfl, nofun, nofun, nofun⟩
    · exact ⟨rfl, rfl, nofun, nofun, nofun⟩
  next => cases h

theorem withHandles_move {control : Nat} {change : Nat → Nat}
    (h : world.withHandles control change = some next) : Move world next := by
  obtain ⟨_, heq⟩ := Option.ite_none_right_eq_some.mp h
  cases heq
  exact .handled control change

theorem submit_move (priority : TaskPriority) (job : Job) :
    Move world (world.admitted (world.state.submit priority world.tasks.length job)) := by
  rw [admitted_submit]
  split
  next hopen => exact .accepted priority job hopen
  next => exact .refused

theorem step_move {action : SchedulerAction} (h : world.step action = some next) :
    Move world next := by
  cases action with
  | submit priority =>
    rw [← Option.some.inj h]
    exact submit_move priority .once
  | scheduleEvery interval priority =>
    rw [← Option.some.inj h]
    unfold SchedulerState.scheduleEvery
    split
    next => exact .refused
    next => exact submit_move priority (.every interval)
  | cancel control =>
    obtain ⟨hany, heq⟩ := Option.ite_none_right_eq_some.mp h
    cases heq
    obtain ⟨hsome, _⟩ := (Option.any_eq_true_iff_get ..).mp hany
    exact .cancelled control (by simpa using hsome)
  | cloneHandle => exact withHandles_move h
  | dropHandle control =>
    have hdropped : world.withHandles control (· - 1) = some next := h
    exact withHandles_move hdropped
  | shutdown drains =>
    cases h
    exact .closed drains
  | proceed => exact proceed_move h
  | take => exact take_move h
  | finish => exact finish_move h
  | enter => exact enter_move h
  | waited => exact waited_move h
  | ran => exact ran_move h
  | judge => exact judge_move h
  | store => exact store_move h
  | forget => exact forget_move h
  | leave => exact leave_move h

end Moves

end SchedulerWorld

end Nexus.Scheduler
