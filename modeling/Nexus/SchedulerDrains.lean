import Nexus.EventLog
import Nexus.SchedulerMoves

namespace Nexus.Scheduler

namespace SchedulerWorld

def BeforeClosing (event : SchedulerEvent) (earlier : List SchedulerEvent) : Prop :=
  ∀ task, event = .accepted task → SchedulerEvent.closed ∉ earlier

/-- A worker ends of its own accord only when nothing is queued and nothing will be. -/
structure Closed (state : SchedulerState) (workers : List Worker) (log : List SchedulerEvent) :
    Prop where
  closed : SchedulerEvent.closed ∈ log → state.accepting = false
  order : EachEvent BeforeClosing log
  finished : Worker.finished ∈ workers → state.queue = [] ∧ state.accepting = false

structure Joins (workers : List Worker) (taken rest : List Nat) (panicked : Bool) : Prop where
  all : taken = [] ∨ taken = List.range workers.length
  ended : ∀ index ∈ taken, index ∈ rest ∨ ∃ worker failed, workers[index]? = some worker ∧
    worker.ended = some failed ∧ (failed = true → panicked = true)
  panicked : panicked = true → ∃ lost, Worker.panicked lost ∈ workers

def Drained (workers : List Worker) (taken : List Nat)
    (result : Except MinimalSchedulerError Unit) : Prop :=
  (result = .ok () ∧ (taken = [] ∨ .finished ∈ workers ∧ ∀ worker ∈ workers, worker = .finished)) ∨
    (result = .error .workerPanicked ∧ ∃ lost, Worker.panicked lost ∈ workers)

structure Joined (joinHandles : List Nat) (workers : List Worker) (calls : List ShutdownCall)
    (log : List SchedulerEvent) : Prop where
  handles : joinHandles = [] ∨ joinHandles = List.range workers.length
  calls : ∀ taken rest panicked, ShutdownCall.joining taken rest panicked ∈ calls →
    Joins workers taken rest panicked
  drained : ∀ taken result, SchedulerEvent.drained taken result ∈ log →
    Drained workers taken result

section Closed

variable {state : SchedulerState} {workers : List Worker} {log : List SchedulerEvent}

theorem Closed.logged (h : Closed state workers log) {event : SchedulerEvent}
    (haccepted : ∀ task, event ≠ .accepted task) (hclosed : event ≠ .closed) :
    Closed state workers (event :: log) := by
  refine ⟨fun hmem => ?_, ⟨fun task heq => absurd heq (haccepted task), h.order⟩, h.finished⟩
  rcases List.mem_cons.mp hmem with heq | hold
  · exact absurd heq.symm hclosed
  · exact h.closed hold

theorem Closed.set (h : Closed state workers log) {index : Nat} {new : Worker}
    (hnew : new = .finished → state.queue = [] ∧ state.accepting = false) :
    Closed state (workers.set index new) log := by
  refine ⟨h.closed, h.order, fun hmem => ?_⟩
  rcases List.mem_or_eq_of_mem_set hmem with hold | heq
  · exact h.finished hold
  · exact hnew heq.symm

variable {world next : SchedulerWorld}

theorem Closed.accepted (h : Closed world.state world.workers world.log)
    (hopen : world.state.accepting = true) (task : QueuedTask) :
    Closed (world.accept task).state (world.accept task).workers (world.accept task).log := by
  have hnever (hclosed : world.state.accepting = false) : False := by
    rw [hopen] at hclosed
    cases hclosed
  refine ⟨fun hmem => ?_, ⟨fun _ _ hmem => hnever (h.closed hmem), h.order⟩, fun hmem => ?_⟩
  · rcases List.mem_cons.mp hmem with heq | hold
    · cases heq
    · exact h.closed hold
  · exact (hnever (h.finished hmem).2).elim

theorem Closed.move (h : Closed world.state world.workers world.log) (hmove : Move world next) :
    Closed next.state next.workers next.log := by
  cases hmove with
  | refused | handled | shut | tookHandles | joined => exact h
  | accepted _ _ hopen => exact h.accepted hopen _
  | cancelled | cancelledNext | drained => exact h.logged nofun nofun
  | closed =>
    exact ⟨fun _ => rfl, ⟨nofun, h.order⟩, fun hmem => ⟨(h.finished hmem).1, rfl⟩⟩
  | taken index _ task _ htask =>
    have hset : Closed world.state (world.workers.set index (.took task)) (.taken task :: world.log) :=
      (h.set (by simp)).logged (by simp) (by simp)
    refine ⟨hset.closed, hset.order, fun hmem => ?_⟩
    obtain ⟨hempty, _⟩ := hset.finished hmem
    rw [hempty] at htask
    cases htask
  | started | stored =>
    exact (h.set (by simp)).logged (by simp) (by simp)
  | forgot index task =>
    have hset : Closed world.state (world.workers.set index (.leaving task)) world.log := h.set nofun
    exact ⟨hset.closed, hset.order, hset.finished⟩
  | worked _ _ _ _ hcontinues => exact h.set hcontinues.finished

end Closed

section Joined

variable {workers : List Worker} {index : Nat} {old : Worker} {worker : Worker} {failed : Bool}

theorem getElem?_set_of_ended (hworker : workers[index]? = some old) (hlive : old.ended = none)
    (new : Worker) {other : Nat} (hother : workers[other]? = some worker)
    (hended : worker.ended = some failed) : (workers.set index new)[other]? = some worker := by
  have hne : index ≠ other := by
    rintro rfl
    rw [hworker] at hother
    cases hother
    rw [hlive] at hended
    cases hended
  rw [List.getElem?_set_ne hne]
  exact hother

theorem mem_set_of_ended (hworker : workers[index]? = some old) (hlive : old.ended = none)
    (new : Worker) (hmem : worker ∈ workers) (hended : worker.ended = some failed) :
    worker ∈ workers.set index new := by
  obtain ⟨_, hother⟩ := List.mem_iff_getElem?.mp hmem
  exact List.mem_of_getElem? (getElem?_set_of_ended hworker hlive new hother hended)

variable {taken : List Nat} {panicked : Bool}

theorem Joins.set {rest : List Nat} (h : Joins workers taken rest panicked)
    (hworker : workers[index]? = some old) (hlive : old.ended = none) (new : Worker) :
    Joins (workers.set index new) taken rest panicked := by
  refine ⟨?_, fun other hmem => (h.ended other hmem).imp_right ?_, fun hpanicked => ?_⟩
  · rw [List.length_set]
    exact h.all
  · rintro ⟨worker, failed, hother, hended, hfailed⟩
    exact ⟨worker, failed, getElem?_set_of_ended hworker hlive new hother hended, hended, hfailed⟩
  · obtain ⟨lost, hmem⟩ := h.panicked hpanicked
    exact ⟨lost, mem_set_of_ended hworker hlive new hmem rfl⟩

theorem Drained.set {result : Except MinimalSchedulerError Unit}
    (h : Drained workers taken result) (hworker : workers[index]? = some old)
    (hlive : old.ended = none) (new : Worker) : Drained (workers.set index new) taken result := by
  rcases h with ⟨hok, hnone | ⟨_, hall⟩⟩ | ⟨herror, lost, hmem⟩
  · exact Or.inl ⟨hok, Or.inl hnone⟩
  · have hfinished := hall old (List.mem_of_getElem? hworker)
    rw [hfinished] at hlive
    cases hlive
  · exact Or.inr ⟨herror, lost, mem_set_of_ended hworker hlive new hmem rfl⟩

variable {joinHandles : List Nat} {calls : List ShutdownCall} {log : List SchedulerEvent}

theorem Joined.set (h : Joined joinHandles workers calls log) (hworker : workers[index]? = some old)
    (hlive : old.ended = none) (new : Worker) :
    Joined joinHandles (workers.set index new) calls log := by
  refine ⟨?_, fun taken rest panicked hmem => ?_, fun taken result hmem => ?_⟩
  · rw [List.length_set]
    exact h.handles
  · exact (h.calls taken rest panicked hmem).set hworker hlive new
  · exact (h.drained taken result hmem).set hworker hlive new

theorem Joined.logged (h : Joined joinHandles workers calls log) {event : SchedulerEvent}
    (hdrained : ∀ taken result, event = .drained taken result → Drained workers taken result) :
    Joined joinHandles workers calls (event :: log) := by
  refine ⟨h.handles, h.calls, fun taken result hmem => ?_⟩
  rcases List.mem_cons.mp hmem with heq | hold
  · exact hdrained taken result heq.symm
  · exact h.drained taken result hold

theorem Joined.called (h : Joined joinHandles workers calls log) {call : Nat} {new : ShutdownCall}
    (hnew : ∀ taken rest panicked, new = .joining taken rest panicked →
      Joins workers taken rest panicked) : Joined joinHandles workers (calls.set call new) log := by
  refine ⟨h.handles, fun taken rest panicked hmem => ?_, h.drained⟩
  rcases List.mem_or_eq_of_mem_set hmem with hold | heq
  · exact h.calls taken rest panicked hold
  · exact hnew taken rest panicked heq.symm

theorem Joins.joined {taken rest : List Nat} {panicked failed : Bool} {worker : Worker}
    (h : Joins workers taken (index :: rest) panicked) (hworker : workers[index]? = some worker)
    (hended : worker.ended = some failed) : Joins workers taken rest (panicked || failed) := by
  refine ⟨h.all, fun other hmem => ?_, fun hpanicked => ?_⟩
  · rcases h.ended other hmem with hrest | ⟨found, flag, hfound, hflag, hpanicked⟩
    · rcases List.mem_cons.mp hrest with rfl | hrest
      · exact Or.inr ⟨worker, failed, hworker, hended, fun h => by rw [h, Bool.or_true]⟩
      · exact Or.inl hrest
    · exact Or.inr ⟨found, flag, hfound, hflag, fun h => by rw [hpanicked h, Bool.true_or]⟩
  · rcases Bool.or_eq_true_iff.mp hpanicked with hold | hfailed
    · exact h.panicked hold
    · cases worker with
      | panicked lost => exact ⟨lost, List.mem_of_getElem? hworker⟩
      | finished =>
        cases hended
        cases hfailed
      | looping | took | running | calling | returned | unwound | settling | stored | leaving =>
        cases hended

theorem Joins.drained (h : Joins workers taken [] panicked) :
    Drained workers taken (drainResult panicked) := by
  cases panicked with
  | true => exact Or.inr ⟨rfl, h.panicked rfl⟩
  | false =>
    refine Or.inl ⟨rfl, Or.imp_right (fun hall => ?_) (Decidable.or_iff_not_imp_left.mpr fun hne =>
      And.intro hne (h.all.resolve_left hne))⟩
    obtain ⟨hne, hall⟩ := hall
    have hfinished : ∀ worker ∈ workers, worker = .finished := by
      intro worker hmem
      obtain ⟨place, hplace⟩ := List.mem_iff_getElem?.mp hmem
      have htaken : place ∈ taken := by
        rw [hall]
        exact List.mem_range.mpr (List.getElem?_eq_some_iff.mp hplace).1
      rcases h.ended place htaken with hnil | ⟨_, _, hfound, hended, hfailed⟩
      · cases hnil
      · rw [hplace] at hfound
        cases hfound
        cases worker with
        | finished => rfl
        | panicked =>
          cases hended
          cases hfailed rfl
        | looping | took | running | calling | returned | unwound | settling | stored | leaving =>
          cases hended
    refine ⟨?_, hfinished⟩
    cases workers with
    | nil => exact absurd hall hne
    | cons worker =>
      have hfirst := hfinished worker List.mem_cons_self
      rw [hfirst]
      exact List.mem_cons_self

variable {world next : SchedulerWorld}

theorem Joined.move (h : Joined world.joinHandles world.workers world.calls world.log)
    (hmove : Move world next) : Joined next.joinHandles next.workers next.calls next.log := by
  cases hmove with
  | refused | handled => exact h
  | accepted | cancelled => exact h.logged nofun
  | closed =>
    refine Joined.logged ⟨h.handles, fun taken rest panicked hmem => ?_, h.drained⟩ nofun
    rcases List.mem_append.mp hmem with hold | hnew
    · exact h.calls taken rest panicked hold
    · cases List.mem_singleton.mp hnew
  | cancelledNext => exact (h.called (by simp)).logged (by simp)
  | shut => exact h.called nofun
  | tookHandles call =>
    have hcalled : Joined world.joinHandles world.workers
        (world.calls.set call (.joining world.joinHandles world.joinHandles false)) world.log :=
      h.called fun taken rest panicked heq => by
        cases heq
        exact ⟨h.handles, fun _ hmem => Or.inl hmem, nofun⟩
    exact ⟨Or.inl rfl, hcalled.calls, hcalled.drained⟩
  | joined _ taken _ _ panicked _ _ hcall hworker hended =>
    refine h.called fun _ _ _ heq => ?_
    cases heq
    exact (h.calls taken _ panicked (List.mem_of_getElem? hcall)).joined hworker hended
  | drained _ taken panicked hcall =>
    refine (h.called (by simp)).logged fun _ _ heq => ?_
    cases heq
    exact (h.calls taken _ panicked (List.mem_of_getElem? hcall)).drained
  | taken _ _ _ hworker | started _ _ _ hworker | stored _ _ _ hworker =>
    exact (h.set hworker rfl _).logged nofun
  | forgot _ _ hworker => exact h.set hworker rfl _
  | worked _ _ new hworker hcontinues => exact h.set hworker hcontinues.live new

end Joined

end SchedulerWorld

end Nexus.Scheduler
