import Nexus.SchedulerDrains
import Nexus.SchedulerPlaces

namespace Nexus.Scheduler

namespace SchedulerWorld

structure Sound (world : SchedulerWorld) : Prop where
  placed : Placed world.state.queue world.workers world.log world.tasks.length
  numbered : Numbered world.state world.calls world.tasks.length
  told : Told world.tasks world.log
  unrun : Unrun world.workers world.log
  closed : Closed world.state world.workers world.log
  joined : Joined world.joinHandles world.workers world.calls world.log

section Runs

variable {world next : SchedulerWorld}

theorem Sound.move (h : Sound world) (hmove : Move world next) : Sound next where
  placed := h.placed.move hmove
  numbered := h.numbered.move hmove
  told := h.told.move h.placed h.numbered hmove
  unrun := h.unrun.move h.placed h.told hmove
  closed := h.closed.move hmove
  joined := h.joined.move hmove

theorem sound_start {count : Nat} {start : SchedulerWorld}
    (h : withWorkerCount count = .ok start) : Sound start := by
  unfold withWorkerCount at h
  split at h
  · cases h
  cases h
  have hlooping (f : Worker → Nat) (hzero : f .looping = 0) :
      tally f (List.replicate count .looping) = 0 :=
    tally_eq_zero fun worker hmem => by rw [List.eq_of_mem_replicate hmem, hzero]
  refine ⟨⟨fun control => ?_, fun control => ?_⟩, ⟨rfl, nofun, nofun, nofun⟩, ⟨?_, nofun⟩,
    ⟨nofun, nofun, ?_⟩, ⟨nofun, trivial, ?_⟩, ⟨Or.inr ?_, nofun, nofun⟩⟩
  · rw [hlooping (Worker.holds control) rfl]
    rfl
  · rw [hlooping (Worker.waits control) rfl]
    rfl
  · exact fun control outcome => ⟨nofun, nofun⟩
  · exact fun worker hmem task htask => by rw [List.eq_of_mem_replicate hmem] at htask; cases htask
  · exact fun hmem => by cases List.eq_of_mem_replicate hmem
  · rw [List.length_replicate]

theorem sound_run {count : Nat} {start : SchedulerWorld} (hstart : withWorkerCount count = .ok start)
    {actions : List SchedulerAction} (h : StepRuns.runSteps step start actions = some world) :
    Sound world :=
  StepRuns.runSteps_invariant (fun _ _ _ hstep hsound => hsound.move (step_move hstep)) h
    (sound_start hstart)

theorem taken_move (hmove : Move world next) {task : QueuedTask}
    (hlog : next.log = .taken task :: world.log) :
    task ∈ world.state.queue ∧ ∀ other ∈ world.state.queue, other.cmp task ≠ .gt := by
  cases hmove with
  | taken _ _ _ _ htask hgreatest =>
    cases hlog
    exact ⟨List.mem_of_getElem? htask, hgreatest⟩
  | accepted | cancelled | closed | cancelledNext | drained | started | stored => cases hlog
  | refused | handled | shut | tookHandles | joined | forgot | worked =>
    exact absurd hlog.symm (List.cons_ne_self _ _)

end Runs

section Cases

def work (place : Nat) : List SchedulerAction :=
  [.take 0 place, .enter 0, .ran 0 false, .judge 0 false, .store 0, .forget 0, .leave 0 false]

/-- A task is cancelled while it waits behind another, and a drain joins the worker. -/
def drainedRun : List SchedulerAction :=
  [.submit .normal, .submit .high, .cancel 0] ++ work 1 ++
    [.shutdown true, .take 0 0, .enter 0, .store 0, .forget 0, .leave 0 false, .finish 0] ++
    [.proceed 0, .proceed 0, .proceed 0, .proceed 0]

structure Idle (world : SchedulerWorld) (count : Nat) : Prop where
  accepting : world.state.accepting = true
  sequence : world.state.nextSequence = min (count + 1) (2 ^ 64 - 1)
  queue : world.state.queue = []
  workers : world.workers = [.looping]
  tasks : world.tasks.length = count

theorem cmp_self (task : QueuedTask) : task.cmp task = .eq := by
  unfold QueuedTask.cmp
  rw [compare_eq_iff_eq.mpr rfl, compare_eq_iff_eq.mpr rfl]
  rfl

theorem Idle.worked {world : SchedulerWorld} {count : Nat} (h : Idle world count) :
    ∃ next, StepRuns.runSteps step world (.submit .normal :: work 0) = some next ∧
      Idle next (count + 1) := by
  obtain ⟨⟨_, _, _, _, _⟩, _, _, _, _, _⟩ := world
  obtain ⟨haccepting, hsequence, hqueue, hworkers, htasks⟩ := h
  dsimp only at haccepting hsequence hqueue hworkers htasks
  subst haccepting hqueue hworkers htasks
  simp [StepRuns.runSteps, work, step, admitted, SchedulerState.submit, take, SchedulerState.pop,
    cmp_self, moved, enter, isCancelled, ran, judge, store, forget, leave]
  refine ⟨rfl, ?_, rfl, rfl, ?_⟩
  · exact hsequence ▸ saturatingAdd_eq _
  · simp

end Cases

end SchedulerWorld

end Nexus.Scheduler
