import Nexus.SchedulerMoves
import Nexus.Tally

namespace Nexus.Scheduler

namespace SchedulerWorld

/-- The log shows that the token was set before a worker took the task. -/
def CancelledFirst (control : Nat) : List SchedulerEvent → Prop
  | [] => False
  | event :: earlier =>
    (∃ task, event = .taken task ∧ task.control = control ∧
      SchedulerEvent.cancelled control ∈ earlier) ∨ CancelledFirst control earlier

def queued (control : Nat) (task : QueuedTask) : Nat := if task.control = control then 1 else 0

def starts (control : Nat) : SchedulerEvent → Nat
  | .started other => if other = control then 1 else 0
  | _ => 0

def settles (control : Nat) : SchedulerEvent → Nat
  | .settled other _ => if other = control then 1 else 0
  | _ => 0

theorem queued_self (task : QueuedTask) : queued task.control task = 1 := if_pos rfl

theorem starts_self (control : Nat) : starts control (.started control) = 1 := if_pos rfl

theorem settles_self (control : Nat) (outcome : TaskOutcome) :
    settles control (.settled control outcome) = 1 := if_pos rfl

/-- Every accepted task is in the queue, with a worker, or settled, and starts at most once. -/
structure Placed (queue : List QueuedTask) (workers : List Worker) (log : List SchedulerEvent)
    (count : Nat) : Prop where
  once : ∀ control, tally (queued control) queue + tally (Worker.holds control) workers +
    tally (settles control) log = if control < count then 1 else 0
  fresh : ∀ control, tally (starts control) log + tally (queued control) queue +
    tally (Worker.waits control) workers ≤ if control < count then 1 else 0

structure Numbered (state : SchedulerState) (calls : List ShutdownCall) (count : Nat) : Prop where
  next : state.nextSequence = min (count + 1) (2 ^ 64 - 1)
  queue : ∀ task ∈ state.queue, task.sequence = min (task.control + 1) (2 ^ 64 - 1)
  known : ∀ control ∈ state.controls.values, control < count
  calls : ∀ drains rest, ShutdownCall.cancelling drains rest ∈ calls →
    ∀ control ∈ rest, control < count

structure Told (tasks : List TaskControl) (log : List SchedulerEvent) : Prop where
  outcomes : ∀ control outcome, SchedulerEvent.settled control outcome ∈ log ↔
    tasks[control]?.bind TaskControl.outcome = some outcome
  tokens : ∀ control, SchedulerEvent.cancelled control ∈ log →
    tasks[control]?.elim false TaskControl.cancelled = true

structure Unrun (workers : List Worker) (log : List SchedulerEvent) : Prop where
  unstarted : ∀ control, CancelledFirst control log → SchedulerEvent.started control ∉ log
  settled : ∀ control outcome, CancelledFirst control log →
    SchedulerEvent.settled control outcome ∈ log → outcome = .cancelled
  workers : ∀ worker ∈ workers, ∀ task, worker.unsettled = some task →
    CancelledFirst task.control log → worker.unrun = true

section Placed

variable {queue : List QueuedTask} {workers : List Worker} {log : List SchedulerEvent} {count : Nat}
  {task : QueuedTask}

theorem Placed.queued_eq (h : Placed queue workers log count) (hmem : task ∈ queue) :
    task.control < count ∧
      tally (Worker.holds task.control) workers = 0 ∧
      tally (settles task.control) log = 0 ∧ tally (starts task.control) log = 0 := by
  have hle := le_tally (f := queued task.control) hmem
  rw [queued_self] at hle
  have honce := h.once task.control
  have hfresh := h.fresh task.control
  by_cases hknown : task.control < count
  · rw [if_pos hknown] at honce hfresh
    omega
  · rw [if_neg hknown] at honce
    omega

variable {index : Nat}

theorem Placed.held_eq (h : Placed queue workers log count) {worker : Worker}
    (hworker : workers[index]? = some worker) (htask : worker.unsettled = some task) :
    task.control < count ∧ tally (settles task.control) log = 0 := by
  have hle := le_tally (f := Worker.holds task.control) (List.mem_of_getElem? hworker)
  rw [Worker.holds_self htask] at hle
  have honce := h.once task.control
  split at honce <;> omega

theorem tally_starts_eq_zero {control : Nat} (h : tally (starts control) log = 0) :
    SchedulerEvent.started control ∉ log := by
  intro hmem
  have hle := le_tally (f := starts control) hmem
  rw [starts_self] at hle
  omega

variable {outcome : TaskOutcome}

theorem tally_settles_eq_zero {control : Nat} (h : tally (settles control) log = 0) :
    SchedulerEvent.settled control outcome ∉ log := by
  intro hmem
  have hle := le_tally (f := settles control) hmem
  rw [settles_self] at hle
  omega

theorem Placed.logged (h : Placed queue workers log count) {event : SchedulerEvent}
    (hstarts : ∀ control, starts control event = 0)
    (hsettles : ∀ control, settles control event = 0) :
    Placed queue workers (event :: log) count := by
  refine ⟨fun control => ?_, fun control => ?_⟩
  · rw [tally_cons, hsettles, Nat.zero_add]
    exact h.once control
  · rw [tally_cons, hstarts, Nat.zero_add]
    exact h.fresh control

theorem Placed.accepted (h : Placed queue workers log count) (hcontrol : task.control = count) :
    Placed (queue ++ [task]) workers log (count + 1) := by
  refine ⟨fun control => ?_, fun control => ?_⟩
  · have honce := h.once control
    rw [tally_append, tally_cons, tally_nil]
    by_cases hsame : control = count
    · subst hsame
      rw [if_neg (Nat.lt_irrefl _)] at honce
      rw [← hcontrol, queued_self, hcontrol, if_pos (Nat.lt_succ_self _)]
      omega
    · have hqueued : queued control task = 0 := if_neg fun heq => hsame (heq.symm.trans hcontrol)
      rw [hqueued]
      split at honce <;> split <;> omega
  · have hfresh := h.fresh control
    rw [tally_append, tally_cons, tally_nil]
    by_cases hsame : control = count
    · subst hsame
      rw [if_neg (Nat.lt_irrefl _)] at hfresh
      rw [← hcontrol, queued_self, hcontrol, if_pos (Nat.lt_succ_self _)]
      omega
    · have hqueued : queued control task = 0 := if_neg fun heq => hsame (heq.symm.trans hcontrol)
      rw [hqueued]
      split at hfresh <;> split <;> omega

theorem Placed.taken (h : Placed queue workers log count) {index place : Nat} {task : QueuedTask}
    (hworker : workers[index]? = some .looping) (htask : queue[place]? = some task) :
    Placed (queue.eraseIdx place) (workers.set index (.took task)) log count := by
  refine ⟨fun control => ?_, fun control => ?_⟩
  · have honce := h.once control
    have hqueue := tally_eraseIdx (queued control) htask
    have hset := tally_set (Worker.holds control) hworker (.took task)
    have hnone : Worker.holds control .looping = 0 := rfl
    have hone : Worker.holds control (.took task) = queued control task := rfl
    omega
  · have hfresh := h.fresh control
    have hqueue := tally_eraseIdx (queued control) htask
    have hset := tally_set (Worker.waits control) hworker (.took task)
    have hnone : Worker.waits control .looping = 0 := rfl
    have hone : Worker.waits control (.took task) = queued control task := rfl
    omega

variable {old new : Worker}

theorem holds_congr
    (hsame : new.unsettled.map QueuedTask.control = old.unsettled.map QueuedTask.control)
    (control : Nat) : new.holds control = old.holds control := by
  unfold Worker.holds
  cases hnew : new.unsettled with
  | none =>
    rw [hnew, Option.map_none] at hsame
    rw [Option.map_eq_none_iff.mp hsame.symm]
  | some =>
    rw [hnew, Option.map_some] at hsame
    obtain ⟨_, hold, hcontrol⟩ := Option.map_eq_some_iff.mp hsame.symm
    rw [hold]
    dsimp only
    rw [hcontrol]

theorem Placed.worked (h : Placed queue workers log count) (hworker : workers[index]? = some old)
    (hsame : new.unsettled.map QueuedTask.control = old.unsettled.map QueuedTask.control)
    (hbegun : ∀ task, new ≠ .took task) : Placed queue (workers.set index new) log count := by
  refine ⟨fun control => ?_, fun control => ?_⟩
  · have honce := h.once control
    have hset := tally_set (Worker.holds control) hworker new
    rw [holds_congr hsame] at hset
    omega
  · have hfresh := h.fresh control
    have hset := tally_set (Worker.waits control) hworker new
    rw [Worker.waits_eq_zero hbegun] at hset
    omega

theorem Placed.started (h : Placed queue workers log count) {index : Nat} {task : QueuedTask}
    {job : Job} (hworker : workers[index]? = some (.took task)) :
    Placed queue (workers.set index (.running { task with job := none } job))
      (.started task.control :: log) count := by
  refine ⟨fun control => ?_, fun control => ?_⟩
  · have hworked : Placed queue (workers.set index (.running { task with job := none } job)) log
        count := h.worked hworker rfl nofun
    have honce := hworked.once control
    rw [tally_cons]
    have hnone : settles control (.started task.control) = 0 := rfl
    omega
  · have hfresh := h.fresh control
    have hset := tally_set (Worker.waits control) hworker (.running { task with job := none } job)
    have hnone : Worker.waits control (.running { task with job := none } job) = 0 := rfl
    have hone : Worker.waits control (.took task) = starts control (.started task.control) := rfl
    rw [tally_cons]
    omega

theorem Placed.stored (h : Placed queue workers log count)
    (hworker : workers[index]? = some (.settling task outcome)) :
    Placed queue (workers.set index (.stored task)) (.settled task.control outcome :: log)
      count := by
  refine ⟨fun control => ?_, fun control => ?_⟩
  · have honce := h.once control
    have hset := tally_set (Worker.holds control) hworker (.stored task)
    have hnone : Worker.holds control (.stored task) = 0 := rfl
    have hone : Worker.holds control (.settling task outcome) =
        settles control (.settled task.control outcome) := rfl
    rw [tally_cons]
    omega
  · have hfresh := h.fresh control
    have hset := tally_set (Worker.waits control) hworker (.stored task)
    have hnone : Worker.waits control (.stored task) = 0 := rfl
    have hnostart : starts control (.settled task.control outcome) = 0 := rfl
    rw [tally_cons]
    omega

variable {world next : SchedulerWorld}

theorem Placed.move (h : Placed world.state.queue world.workers world.log world.tasks.length)
    (hmove : Move world next) :
    Placed next.state.queue next.workers next.log next.tasks.length := by
  cases hmove with
  | refused | shut | tookHandles | joined => exact h
  | accepted priority job =>
    have hcontrol : (world.newTask priority job).control = world.tasks.length := rfl
    unfold accept
    rw [List.length_append]
    exact (h.accepted hcontrol).logged (fun _ => rfl) fun _ => rfl
  | handled =>
    rw [List.length_modify]
    exact h
  | cancelled | cancelledNext =>
    unfold cancelToken
    rw [List.length_modify]
    exact h.logged (fun _ => rfl) fun _ => rfl
  | closed | drained => exact h.logged (fun _ => rfl) fun _ => rfl
  | taken _ _ _ hworker htask =>
    exact (h.taken hworker htask).logged (fun _ => rfl) fun _ => rfl
  | started _ _ _ hworker => exact h.started hworker
  | stored _ _ _ hworker =>
    rw [List.length_modify]
    exact h.stored hworker
  | forgot _ _ hworker => exact h.worked hworker rfl nofun
  | worked _ _ _ hworker hcontinues =>
    exact h.worked hworker hcontinues.same hcontinues.begun

end Placed

section Numbered

variable {world next : SchedulerWorld}

theorem saturatingAdd_eq (count : Nat) :
    saturatingAdd (min (count + 1) (2 ^ 64 - 1)) = min (count + 1 + 1) (2 ^ 64 - 1) := by
  unfold saturatingAdd
  omega

variable {map : SortedMap Nat Nat} {key other : Nat}

theorem mem_values_put {value : Nat} (h : other ∈ (map.put key value).values) :
    other = value ∨ other ∈ map.values := by
  obtain ⟨found, hfound⟩ := SortedMap.mem_values_iff.mp h
  rw [SortedMap.get?_put] at hfound
  split at hfound
  next => exact Or.inl (Option.some.inj hfound).symm
  next => exact Or.inr (SortedMap.mem_values_iff.mpr ⟨found, hfound⟩)

theorem mem_values_erase (h : other ∈ (map.erase key).values) : other ∈ map.values := by
  obtain ⟨found, hfound⟩ := SortedMap.mem_values_iff.mp h
  rw [SortedMap.get?_erase] at hfound
  split at hfound
  next => cases hfound
  next => exact SortedMap.mem_values_iff.mpr ⟨found, hfound⟩

theorem Numbered.move (h : Numbered world.state world.calls world.tasks.length)
    (hmove : Move world next) : Numbered next.state next.calls next.tasks.length := by
  -- a call that goes on with controls that it had
  have hcalls {call : Nat} {new : ShutdownCall} (hnew : ∀ drains rest,
      new = .cancelling drains rest → ∀ control ∈ rest, control < world.tasks.length) :
      ∀ drains rest, ShutdownCall.cancelling drains rest ∈ world.calls.set call new →
        ∀ control ∈ rest, control < world.tasks.length := by
    intro drains rest hmem
    rcases List.mem_or_eq_of_mem_set hmem with hold | heq
    · exact h.calls drains rest hold
    · exact hnew drains rest heq.symm
  cases hmove with
  | refused | started | worked =>
    exact h
  | accepted =>
    unfold accept
    rw [List.length_append]
    refine ⟨?_, fun task hmem => ?_, fun control hmem => ?_, fun drains rest hmem control hrest => ?_⟩
    · dsimp only
      rw [h.next, saturatingAdd_eq]
      rfl
    · rcases List.mem_append.mp hmem with hold | hnew
      · exact h.queue task hold
      · cases List.mem_singleton.mp hnew
        exact h.next
    · rcases mem_values_put hmem with rfl | hold
      · exact Nat.lt_succ_self _
      · exact Nat.lt_succ_of_lt (h.known control hold)
    · exact Nat.lt_succ_of_lt (h.calls drains rest hmem control hrest)
  | handled | stored =>
    rw [List.length_modify]
    exact h
  | cancelled =>
    unfold cancelToken
    rw [List.length_modify]
    exact h
  | closed drains =>
    refine ⟨h.next, h.queue, h.known, fun drains rest hmem => ?_⟩
    rcases List.mem_append.mp hmem with hold | hnew
    · exact h.calls drains rest hold
    · cases List.mem_singleton.mp hnew
      exact fun control hrest => h.known control (List.mem_of_mem_filter hrest)
  | cancelledNext _ drains _ _ hcall =>
    unfold cancelToken
    rw [List.length_modify]
    refine ⟨h.next, h.queue, h.known, hcalls fun _ _ heq other hother => ?_⟩
    cases heq
    exact h.calls drains _ (List.mem_of_getElem? hcall) other (List.mem_cons_of_mem _ hother)
  | shut | tookHandles | drained | joined =>
    exact ⟨h.next, h.queue, h.known, hcalls nofun⟩
  | taken =>
    exact ⟨h.next, fun other hother => h.queue other (List.mem_of_mem_eraseIdx hother), h.known,
      h.calls⟩
  | forgot =>
    exact ⟨h.next, h.queue, fun control hmem => h.known control (mem_values_erase hmem), h.calls⟩

end Numbered

section Told

variable {tasks : List TaskControl} {log : List SchedulerEvent} {α : Type}
  {read : TaskControl → Option α} {change : TaskControl → TaskControl}

theorem bind_modify (hsame : ∀ task, read (change task) = read task) (tasks : List TaskControl)
    (control other : Nat) :
    (tasks.modify control change)[other]?.bind read = tasks[other]?.bind read := by
  rw [List.getElem?_modify]
  cases tasks[other]? with
  | none => rfl
  | some task =>
    dsimp only [Option.map_eq_map, Option.map_some, Option.bind_some]
    split
    · exact hsame task
    · rfl

theorem bind_append {new : TaskControl} (hnone : read new = none) (tasks : List TaskControl)
    (control : Nat) : (tasks ++ [new])[control]?.bind read = tasks[control]?.bind read := by
  rw [List.getElem?_append]
  split
  next => rfl
  next hlength =>
    rw [List.getElem?_eq_none (Nat.le_of_not_lt hlength), List.getElem?_singleton]
    split
    · exact hnone
    · rfl

theorem Told.logged (h : Told tasks log) {event : SchedulerEvent}
    (hsettled : ∀ control outcome, event ≠ .settled control outcome)
    (hcancelled : ∀ control, event ≠ .cancelled control) : Told tasks (event :: log) := by
  refine ⟨fun control outcome => ?_, fun control hmem => ?_⟩
  · rw [List.mem_cons, ← h.outcomes]
    exact or_iff_right fun heq => hsettled control outcome heq.symm
  · rcases List.mem_cons.mp hmem with heq | hold
    · exact absurd heq.symm (hcancelled control)
    · exact h.tokens control hold

variable {control : Nat}

theorem isCancelled_iff : tasks[control]?.elim false TaskControl.cancelled = true ↔
    ∃ task, tasks[control]? = some task ∧ task.cancelled = true := by
  cases tasks[control]? with
  | none => exact ⟨nofun, nofun⟩
  | some task => exact ⟨fun h => ⟨task, rfl, h⟩, fun ⟨_, hsome, h⟩ => Option.some.inj hsome ▸ h⟩

theorem isCancelled_modify
    (hkeeps : ∀ task, task.cancelled = true → (change task).cancelled = true) {other : Nat}
    (h : tasks[other]?.elim false TaskControl.cancelled = true) :
    (tasks.modify control change)[other]?.elim false TaskControl.cancelled = true := by
  obtain ⟨task, htask, hcancelled⟩ := isCancelled_iff.mp h
  refine isCancelled_iff.mpr ⟨if control = other then change task else task, ?_, ?_⟩
  · rw [List.getElem?_modify, htask]
    rfl
  · split
    · exact hkeeps task hcancelled
    · exact hcancelled

theorem Told.cancelled (h : Told tasks log) (hknown : control < tasks.length) :
    Told (tasks.modify control .cancel)
      (.cancelled control :: log) := by
  refine ⟨fun other outcome => ?_, fun other hmem => ?_⟩
  · rw [List.mem_cons, or_iff_right nofun, bind_modify TaskControl.cancel_outcome]
    exact h.outcomes other outcome
  · rcases List.mem_cons.mp hmem with heq | hold
    · cases heq
      refine isCancelled_iff.mpr ⟨tasks[control].cancel, ?_, rfl⟩
      rw [List.getElem?_modify_eq, List.getElem?_eq_getElem hknown]
      rfl
    · exact isCancelled_modify TaskControl.cancel_cancelled (h.tokens other hold)

variable {outcome : TaskOutcome}

theorem Told.stored (h : Told tasks log) (hknown : control < tasks.length)
    (hnew : ∀ other, .settled control other ∉ log) :
    Told (tasks.modify control (.settle outcome))
      (.settled control outcome :: log) := by
  refine ⟨fun other found => ?_, fun other hmem => ?_⟩
  · by_cases hsame : control = other
    · subst hsame
      rw [List.getElem?_modify_eq, List.getElem?_eq_getElem hknown, List.mem_cons,
        or_iff_left (hnew found)]
      exact ⟨fun heq => by cases heq; rfl, fun heq => by cases heq; rfl⟩
    · rw [List.getElem?_modify_ne _ _ hsame, ← h.outcomes, List.mem_cons]
      exact or_iff_right fun heq => hsame (by cases heq; rfl)
  · rcases List.mem_cons.mp hmem with heq | hold
    · cases heq
    · exact isCancelled_modify (TaskControl.settle_cancelled outcome) (h.tokens other hold)

theorem Told.accepted (h : Told tasks log) : Told (tasks ++ [⟨false, none, 1⟩]) log := by
  refine ⟨fun control outcome => ?_, fun control hmem => ?_⟩
  · rw [bind_append rfl]
    exact h.outcomes control outcome
  · obtain ⟨task, htask, hcancelled⟩ := isCancelled_iff.mp (h.tokens control hmem)
    have hknown := (List.getElem?_eq_some_iff.mp htask).1
    exact isCancelled_iff.mpr ⟨task, (List.getElem?_append_left hknown).trans htask, hcancelled⟩

variable {world next : SchedulerWorld}

theorem Told.move (h : Told world.tasks world.log)
    (hplaced : Placed world.state.queue world.workers world.log world.tasks.length)
    (hnumbered : Numbered world.state world.calls world.tasks.length) (hmove : Move world next) :
    Told next.tasks next.log := by
  cases hmove with
  | refused | shut | tookHandles | joined | forgot | worked => exact h
  | accepted => exact h.accepted.logged nofun nofun
  | handled _ change =>
    refine ⟨fun other outcome => ?_, fun other hmem => ?_⟩
    · rw [bind_modify (TaskControl.withHandles_outcome change)]
      exact h.outcomes other outcome
    · exact isCancelled_modify (TaskControl.withHandles_cancelled change) (h.tokens other hmem)
  | cancelled _ hknown => exact h.cancelled hknown
  | closed | drained | taken | started =>
    exact h.logged nofun nofun
  | cancelledNext _ drains control _ hcall =>
    exact h.cancelled (hnumbered.calls drains _ (List.mem_of_getElem? hcall) control
      List.mem_cons_self)
  | stored _ _ _ hworker =>
    obtain ⟨hknown, hnone⟩ := hplaced.held_eq hworker rfl
    exact h.stored hknown fun _ => tally_settles_eq_zero hnone

end Told

section Unrun

variable {workers : List Worker} {log : List SchedulerEvent} {control : Nat}
  {event : SchedulerEvent}

theorem cancelledFirst_cons (hevent : ∀ task, event ≠ .taken task) :
    CancelledFirst control (event :: log) ↔ CancelledFirst control log :=
  or_iff_right fun ⟨task, heq, _⟩ => hevent task heq

theorem CancelledFirst.cancelled (h : CancelledFirst control log) :
    SchedulerEvent.cancelled control ∈ log := by
  induction log with
  | nil => exact h.elim
  | cons _ _ ih =>
    rcases h with ⟨_, _, _, hmem⟩ | hearlier
    · exact List.mem_cons_of_mem _ hmem
    · exact List.mem_cons_of_mem _ (ih hearlier)

theorem Unrun.logged (h : Unrun workers log) (htaken : ∀ task, event ≠ .taken task)
    (hstarted : ∀ control, event ≠ .started control)
    (hsettled : ∀ control outcome, event ≠ .settled control outcome) :
    Unrun workers (event :: log) := by
  refine ⟨fun control hfirst hmem => ?_, fun control outcome hfirst hmem => ?_,
    fun worker hworker task htask hfirst => ?_⟩
  · rcases List.mem_cons.mp hmem with heq | hold
    · exact hstarted control heq.symm
    · exact h.unstarted control ((cancelledFirst_cons htaken).mp hfirst) hold
  · rcases List.mem_cons.mp hmem with heq | hold
    · exact absurd heq.symm (hsettled control outcome)
    · exact h.settled control outcome ((cancelledFirst_cons htaken).mp hfirst) hold
  · exact h.workers worker hworker task htask ((cancelledFirst_cons htaken).mp hfirst)

variable {index : Nat} {new : Worker}

theorem Unrun.set (h : Unrun workers log)
    (hnew : ∀ task, new.unsettled = some task → CancelledFirst task.control log →
      new.unrun = true) : Unrun (workers.set index new) log := by
  refine ⟨h.unstarted, h.settled, fun worker hmem task htask hfirst => ?_⟩
  rcases List.mem_or_eq_of_mem_set hmem with hold | rfl
  · exact h.workers worker hold task htask hfirst
  · exact hnew task htask hfirst

theorem Unrun.taken (h : Unrun workers log) {queue : List QueuedTask} {count : Nat}
    (hplaced : Placed queue workers log count) {index : Nat} {task : QueuedTask}
    (hmem : task ∈ queue) : Unrun (workers.set index (.took task)) (.taken task :: log) := by
  obtain ⟨_, _, hsettled, hstarted⟩ := hplaced.queued_eq hmem
  -- of a task in the queue nothing was logged but its acceptance
  have hother {control : Nat} (hfirst : CancelledFirst control (.taken task :: log))
      (hne : task.control ≠ control) : CancelledFirst control log :=
    hfirst.resolve_left fun ⟨_, heq, hcontrol, _⟩ => hne (by cases heq; exact hcontrol)
  refine ⟨fun control hfirst hmem => ?_, fun control outcome hfirst hmem => ?_,
    fun worker hworker other hother' hfirst => ?_⟩
  · rcases List.mem_cons.mp hmem with heq | hold
    · cases heq
    · by_cases hsame : task.control = control
      · subst hsame
        exact tally_starts_eq_zero hstarted hold
      · exact h.unstarted control (hother hfirst hsame) hold
  · rcases List.mem_cons.mp hmem with heq | hold
    · cases heq
    · by_cases hsame : task.control = control
      · subst hsame
        exact absurd hold (tally_settles_eq_zero hsettled)
      · exact h.settled control outcome (hother hfirst hsame) hold
  · rcases List.mem_or_eq_of_mem_set hworker with hold | rfl
    · by_cases hsame : task.control = other.control
      · have hle := le_tally (f := Worker.holds other.control) hold
        rw [Worker.holds_self hother', ← hsame] at hle
        omega
      · exact h.workers worker hold other hother' (hother hfirst hsame)
    · rfl

variable {world next : SchedulerWorld}

theorem CancelledFirst.token (htold : Told world.tasks world.log)
    (h : CancelledFirst control world.log) : world.isCancelled control = true :=
  htold.tokens control h.cancelled

theorem Unrun.started (h : Unrun world.workers world.log) (htold : Told world.tasks world.log)
    {index : Nat} {task : QueuedTask} {job : Job}
    (hlive : world.isCancelled task.control = false) :
    Unrun (world.workers.set index (.running { task with job := none } job))
      (.started task.control :: world.log) := by
  have hnot {control : Nat} (hfirst : CancelledFirst control world.log) :
      task.control ≠ control := by
    rintro rfl
    rw [hfirst.token htold] at hlive
    cases hlive
  refine ⟨fun control hfirst hmem => ?_, fun control outcome hfirst hmem => ?_,
    fun worker hmem other htask hfirst => ?_⟩
  · have hfirst := (cancelledFirst_cons (by simp)).mp hfirst
    rcases List.mem_cons.mp hmem with heq | hold
    · cases heq
      exact hnot hfirst rfl
    · exact h.unstarted control hfirst hold
  · rcases List.mem_cons.mp hmem with heq | hold
    · cases heq
    · exact h.settled control outcome ((cancelledFirst_cons (by simp)).mp hfirst) hold
  · have hfirst := (cancelledFirst_cons (by simp)).mp hfirst
    rcases List.mem_or_eq_of_mem_set hmem with hold | rfl
    · exact h.workers worker hold other htask hfirst
    · cases htask
      exact absurd rfl (hnot hfirst)

theorem Unrun.stored (h : Unrun workers log) {task : QueuedTask} {outcome : TaskOutcome}
    (hworker : workers[index]? = some (.settling task outcome)) :
    Unrun (workers.set index (.stored task)) (.settled task.control outcome :: log) := by
  refine ⟨fun control hfirst hmem => ?_, fun control found hfirst hmem => ?_,
    fun worker hmem other htask hfirst => ?_⟩
  · rcases List.mem_cons.mp hmem with heq | hold
    · cases heq
    · exact h.unstarted control ((cancelledFirst_cons (by simp)).mp hfirst) hold
  · have hfirst := (cancelledFirst_cons (by simp)).mp hfirst
    rcases List.mem_cons.mp hmem with heq | hold
    · cases heq
      have hunrun := h.workers _ (List.mem_of_getElem? hworker) task rfl hfirst
      cases outcome with
      | cancelled => rfl
      | completed | panicked => cases hunrun
    · exact h.settled control found hfirst hold
  · have hfirst := (cancelledFirst_cons (by simp)).mp hfirst
    rcases List.mem_or_eq_of_mem_set hmem with hold | rfl
    · exact h.workers worker hold other htask hfirst
    · cases htask

theorem Unrun.worked (h : Unrun world.workers world.log) (htold : Told world.tasks world.log)
    {old : Worker} (hworker : world.workers[index]? = some old)
    (hcontinues : Continues world old new) : Unrun (world.workers.set index new) world.log := by
  refine h.set fun task htask hfirst => ?_
  have hsame := hcontinues.same
  rw [htask, Option.map_some] at hsame
  obtain ⟨other, hother, hcontrol⟩ := Option.map_eq_some_iff.mp hsame.symm
  rw [← hcontrol] at hfirst
  have hold := h.workers old (List.mem_of_getElem? hworker) other hother hfirst
  exact hcontinues.unrun other hother (hfirst.token htold) hold

theorem Unrun.move (h : Unrun world.workers world.log)
    (hplaced : Placed world.state.queue world.workers world.log world.tasks.length)
    (htold : Told world.tasks world.log) (hmove : Move world next) :
    Unrun next.workers next.log := by
  cases hmove with
  | refused | handled | shut | tookHandles | joined => exact h
  | accepted | cancelled | closed | cancelledNext | drained =>
    exact h.logged nofun nofun nofun
  | taken _ _ _ _ htask =>
    exact h.taken hplaced (List.mem_of_getElem? htask)
  | started _ _ _ _ hlive => exact h.started htold hlive
  | stored _ _ _ hworker => exact h.stored hworker
  | forgot => exact h.set nofun
  | worked _ _ _ hworker hcontinues => exact h.worked htold hworker hcontinues

end Unrun

end SchedulerWorld

end Nexus.Scheduler
