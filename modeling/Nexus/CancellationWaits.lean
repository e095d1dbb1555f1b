import Mathlib.Data.Fintype.Basic
import Mathlib.Logic.Function.Basic
import Nexus.StepRuns
import Nexus.Words

namespace Nexus.Cancellation

open StepRuns

inductive ThreadPhase where
  /-- In none of them, with what its last wait returned. -/
  | outside (answer : Option Bool)
  /-- It found the flag unset and asks for the lock. -/
  | entering
  /-- It has the lock and comes to the predicate. -/
  | checking
  /-- The predicate told it to wait, and it has the lock still. -/
  | parking
  | parked
  /-- It was taken off the condition variable and asks for the lock. -/
  | waking
  /-- The loop is over, and it has the lock. -/
  | leaving
  /-- It has stored the flag and comes to `notify_all`. -/
  | notifying
  deriving DecidableEq

/-- A token and the threads at it. `returned` says that some call of `cancel` has returned. -/
structure TokenState (τ : Type) where
  cancelled : Bool
  waitLock : Option τ
  phase : τ → ThreadPhase
  returned : Bool

/-- The atomic steps. `wake` is the end of the time or a wake-up without a notification, and a check
reads the clock. -/
inductive TokenStep (τ : Type) where
  | enter (thread : τ)
  | lock (thread : τ)
  | check (thread : τ) (elapsed : Bool)
  | park (thread : τ)
  | wake (thread : τ)
  | leave (thread : τ)
  | store (thread : τ)
  | notify (thread : τ)
  deriving DecidableEq

namespace TokenState

variable {τ : Type}

def initial : TokenState τ := ⟨false, none, fun _ => .outside none, false⟩

def notifyAll (state : TokenState τ) : TokenState τ :=
  { state with phase := fun thread =>
      if state.phase thread = .parked then .waking else state.phase thread }

/-- A thread is parked, nothing is on its way to it, and a call of `cancel` has returned. -/
def Lost (state : TokenState τ) : Prop :=
  state.returned = true ∧ ∃ thread, state.phase thread = .parked

/-- No thread stands between its predicate and the condition variable when all are notified. -/
def Timely (state : TokenState τ) : TokenStep τ → Prop
  | .notify _ => ∀ thread, state.phase thread ≠ .parking
  | _ => True

/-- Once a call of `cancel` has returned, the flag is set and no thread will sleep. -/
structure Settled (state : TokenState τ) : Prop where
  flag : ∀ thread, state.phase thread = .notifying → state.cancelled = true
  cancelled : state.returned = true → state.cancelled = true
  awake : state.returned = true → ∀ thread,
    state.phase thread ≠ .parking ∧ state.phase thread ≠ .parked

theorem settled_initial : (initial : TokenState τ).Settled := by
  refine ⟨fun thread h => ?_, fun h => ?_, fun h => ?_⟩
  · cases h
  · cases h
  · cases h

variable {state : TokenState τ}

theorem Settled.not_lost (h : state.Settled) : ¬ state.Lost := by
  rintro ⟨hreturned, thread, hparked⟩
  exact (h.awake hreturned thread).2 hparked

variable [DecidableEq τ]

def moved (thread : τ) (phase : ThreadPhase) (state : TokenState τ) : TokenState τ :=
  { state with phase := Function.update state.phase thread phase }

def step (state : TokenState τ) : TokenStep τ → Option (TokenState τ)
  | .enter thread =>
    match state.phase thread with
    | .outside _ =>
      if state.cancelled then some (state.moved thread (.outside (some true)))
      else some (state.moved thread .entering)
    | _ => none
  | .lock thread =>
    if state.waitLock = none ∧
        (state.phase thread = .entering ∨ state.phase thread = .waking) then
      some { state.moved thread .checking with waitLock := some thread }
    else none
  | .check thread elapsed =>
    if state.phase thread = .checking then
      if state.cancelled ∨ elapsed then some (state.moved thread .leaving)
      else some (state.moved thread .parking)
    else none
  | .park thread =>
    if state.phase thread = .parking then some { state.moved thread .parked with waitLock := none }
    else none
  | .wake thread =>
    if state.phase thread = .parked then some (state.moved thread .waking) else none
  | .leave thread =>
    if state.phase thread = .leaving then
      some { state.moved thread (.outside (some state.cancelled)) with waitLock := none }
    else none
  | .store thread =>
    match state.phase thread with
    | .outside _ => some { state.moved thread .notifying with cancelled := true }
    | _ => none
  | .notify thread =>
    match state.phase thread with
    | .notifying => some { state.notifyAll.moved thread (.outside none) with returned := true }
    | _ => none

/-- A thread goes from one phase to the next, and neither the flag nor the callers take part. -/
structure Goes (state next : TokenState τ) (thread : τ) (phase : ThreadPhase) : Prop where
  phase_eq : next.phase = Function.update state.phase thread phase
  cancelled_eq : next.cancelled = state.cancelled
  returned_eq : next.returned = state.returned
  not_notifying : phase ≠ .notifying
  parking : phase = .parking → state.cancelled = false
  parked : phase = .parked → state.phase thread = .parking

variable {next : TokenState τ}

theorem step_notify {caller : τ} (hstep : state.step (.notify caller) = some next) :
    state.phase caller = .notifying ∧
      next = { state.notifyAll.moved caller (.outside none) with returned := true } := by
  dsimp only [step] at hstep
  split at hstep
  next hnotifying =>
    cases hstep
    exact ⟨hnotifying, rfl⟩
  next => cases hstep

variable {action : TokenStep τ}

theorem step_cases (hstep : state.step action = some next) :
    (∃ thread phase, state.Goes next thread phase ∧
      (state.phase thread = .parked → action = .wake thread)) ∨
    (∃ thread answer, action = .store thread ∧ state.phase thread = .outside answer ∧
      next = { state.moved thread .notifying with cancelled := true }) ∨
    (∃ thread, action = .notify thread ∧ state.phase thread = .notifying ∧
      next = { state.notifyAll.moved thread (.outside none) with returned := true }) := by
  cases action with
  | enter thread =>
    dsimp only [step] at hstep
    split at hstep
    next houtside =>
      split at hstep
      · cases hstep
        exact Or.inl ⟨thread, _, ⟨rfl, rfl, rfl, by simp, by simp, by simp⟩, by simp [houtside]⟩
      · cases hstep
        exact Or.inl ⟨thread, _, ⟨rfl, rfl, rfl, by simp, by simp, by simp⟩, by simp [houtside]⟩
    next => cases hstep
  | lock thread =>
    dsimp only [step] at hstep
    split at hstep
    next hasks =>
      cases hstep
      refine Or.inl ⟨thread, _, ⟨rfl, rfl, rfl, by simp, by simp, by simp⟩, fun hparked => ?_⟩
      rcases hasks.2 with h | h
      · simp [h] at hparked
      · simp [h] at hparked
    next => cases hstep
  | check thread =>
    dsimp only [step] at hstep
    split at hstep
    next hchecking =>
      split at hstep
      · cases hstep
        exact Or.inl ⟨thread, _, ⟨rfl, rfl, rfl, by simp, by simp, by simp⟩, by simp [hchecking]⟩
      next hwaits =>
        cases hstep
        have hflag : state.cancelled = false := by
          cases hcancelled : state.cancelled
          · rfl
          · exact absurd (Or.inl hcancelled) hwaits
        exact Or.inl ⟨thread, _, ⟨rfl, rfl, rfl, by simp, fun _ => hflag, by simp⟩,
          by simp [hchecking]⟩
    next => cases hstep
  | park thread =>
    dsimp only [step] at hstep
    split at hstep
    next hparking =>
      cases hstep
      exact Or.inl ⟨thread, _, ⟨rfl, rfl, rfl, by simp, by simp, fun _ => hparking⟩,
        by simp [hparking]⟩
    next => cases hstep
  | wake thread =>
    dsimp only [step] at hstep
    split at hstep
    · cases hstep
      exact Or.inl ⟨thread, _, ⟨rfl, rfl, rfl, by simp, by simp, by simp⟩, fun _ => rfl⟩
    · cases hstep
  | leave thread =>
    dsimp only [step] at hstep
    split at hstep
    next hleaving =>
      cases hstep
      exact Or.inl ⟨thread, _, ⟨rfl, rfl, rfl, by simp, by simp, by simp⟩, by simp [hleaving]⟩
    next => cases hstep
  | store thread =>
    dsimp only [step] at hstep
    split at hstep
    next answer houtside =>
      cases hstep
      exact Or.inr (Or.inl ⟨thread, answer, rfl, houtside, rfl⟩)
    next => cases hstep
  | notify thread =>
    obtain ⟨hnotifying, hnext⟩ := step_notify hstep
    exact Or.inr (Or.inr ⟨thread, rfl, hnotifying, hnext⟩)

theorem settled_step (hstep : state.step action = some next) (htimely : state.Timely action)
    (h : state.Settled) : next.Settled := by
  rcases step_cases hstep with ⟨thread, _, hgoes, _⟩ | ⟨thread, _, _, _, rfl⟩ |
    ⟨thread, rfl, hnotifying, rfl⟩
  · obtain ⟨hphase, hcancelled, hreturned, hnotifying, hparking, hparked⟩ := hgoes
    refine ⟨fun other hother => ?_, fun hback => ?_, fun hback other => ?_⟩
    · rw [hphase] at hother
      rw [hcancelled]
      by_cases heq : other = thread
      · rw [heq, Function.update_self] at hother
        exact absurd hother hnotifying
      · rw [Function.update_of_ne heq] at hother
        exact h.flag other hother
    · rw [hreturned] at hback
      rw [hcancelled]
      exact h.cancelled hback
    · rw [hreturned] at hback
      rw [hphase]
      by_cases heq : other = thread
      · rw [heq, Function.update_self]
        refine ⟨fun hsleep => ?_, fun hsleep => (h.awake hback thread).1 (hparked hsleep)⟩
        have hflag := h.cancelled hback
        rw [hparking hsleep] at hflag
        cases hflag
      · rw [Function.update_of_ne heq]
        exact h.awake hback other
  · refine ⟨fun _ _ => rfl, fun _ => rfl, fun hreturned other => ?_⟩
    dsimp only [moved]
    by_cases heq : other = thread
    · rw [heq, Function.update_self]
      simp
    · rw [Function.update_of_ne heq]
      exact h.awake hreturned other
  · have hflag := h.flag thread hnotifying
    refine ⟨fun _ _ => hflag, fun _ => hflag, fun _ other => ?_⟩
    dsimp only [moved, notifyAll]
    by_cases heq : other = thread
    · rw [heq, Function.update_self]
      simp
    · rw [Function.update_of_ne heq]
      split
      · simp
      next hnot => exact ⟨htimely other, hnot⟩

variable {final : TokenState τ}

theorem settled_run {actions : List (TokenStep τ)}
    (hevery : EveryStep step Timely initial actions)
    (hrun : runSteps step initial actions = some final) : final.Settled :=
  hevery.invariant (fun _ _ _ hstep htimely h => settled_step hstep htimely h) hrun settled_initial

variable {thread : τ}

theorem lost_of_untimely {caller : τ} (hnotify : state.step (.notify caller) = some next)
    (hparking : state.phase thread = .parking) :
    ∃ final, next.step (.park thread) = some final ∧ final.Lost := by
  obtain ⟨hnotifying, rfl⟩ := step_notify hnotify
  have hne : thread ≠ caller := fun heq => by
    rw [heq, hnotifying] at hparking
    cases hparking
  refine ⟨_, if_pos ?_, rfl, thread, Function.update_self ..⟩
  dsimp only [moved, notifyAll]
  rw [Function.update_of_ne hne, if_neg (by rw [hparking]; exact ThreadPhase.noConfusion)]
  exact hparking

theorem parked_step (hstep : state.step action = some next)
    (hparked : state.phase thread = .parked) :
    next.phase thread = .parked ∨ action = .wake thread ∨ ∃ caller, action = .notify caller := by
  rcases step_cases hstep with ⟨mover, phase, hgoes, hwake⟩ | ⟨mover, _, _, houtside, rfl⟩ |
    ⟨mover, haction, _⟩
  · by_cases heq : thread = mover
    · subst heq
      exact Or.inr (Or.inl (hwake hparked))
    · refine Or.inl ?_
      rw [hgoes.phase_eq, Function.update_of_ne heq]
      exact hparked
  · have hne : thread ≠ mover := fun heq => by
      rw [heq, houtside] at hparked
      cases hparked
    refine Or.inl ?_
    dsimp only [moved]
    rw [Function.update_of_ne hne]
    exact hparked
  · exact Or.inr (Or.inr ⟨mover, haction⟩)

theorem parked_run {actions : List (TokenStep τ)}
    (hrun : runSteps step state actions = some final)
    (hothers : ∀ action ∈ actions, action ≠ .wake thread ∧ ∀ caller, action ≠ .notify caller)
    (hparked : state.phase thread = .parked) : final.phase thread = .parked := by
  induction actions generalizing state with
  | nil => exact Option.some.inj hrun ▸ hparked
  | cons action _ ih =>
    obtain ⟨_, hstep, hrest⟩ := runSteps_cons.mp hrun
    obtain ⟨hwake, hnotify⟩ := hothers action List.mem_cons_self
    refine ih hrest (fun other hmem => hothers other (List.mem_cons_of_mem _ hmem)) ?_
    rcases parked_step hstep hparked with hstill | haction | ⟨caller, haction⟩
    · exact hstill
    · exact absurd haction hwake
    · exact absurd haction (hnotify caller)

/-- A run whose states lose no thread, also when those that are about to park have parked, has only
timely notifications. -/
theorem timely_of_never_lost (first rest : List (TokenStep τ)) {middle : TokenState τ}
    (hfirst : runSteps step initial first = some middle)
    (hrest : runSteps step middle rest = some final)
    (h : ∀ front back, first ++ rest = front ++ back → ∀ state,
      runSteps step initial front = some state →
      ∀ thread next, state.step (.park thread) = some next → ¬ next.Lost) :
    EveryStep step Timely middle rest := by
  induction rest generalizing first middle with
  | nil => trivial
  | cons action rest ih =>
    obtain ⟨next, hstep, hlater⟩ := runSteps_cons.mp hrest
    have hnext : runSteps step initial (first ++ [action]) = some next :=
      runSteps_append.mpr ⟨middle, hfirst, runSteps_cons.mpr ⟨next, hstep, rfl⟩⟩
    refine ⟨?_, fun other hother => ?_⟩
    · cases action with
      | notify caller =>
        intro thread hparking
        obtain ⟨lost, hpark, hlost⟩ := lost_of_untimely hstep hparking
        exact h (first ++ [.notify caller]) rest (by simp) next hnext thread lost hpark hlost
      | _ => trivial
    · have heq := Option.some.inj (hstep.symm.trans hother)
      subst heq
      refine ih (first ++ [action]) hnext hlater fun front back hsplit => h front back ?_
      rw [← hsplit, List.append_assoc, List.singleton_append]

/-- The wake-ups of a run reach every waiting thread exactly when each `notify_all` is timely. -/
theorem no_wakeup_lost_iff {actions : List (TokenStep τ)} {final : TokenState τ}
    (hrun : runSteps step initial actions = some final) :
    EveryStep step Timely initial actions ↔
      ∀ front back, actions = front ++ back → ∀ state,
        runSteps step initial front = some state →
          ¬ state.Lost ∧
            ∀ thread next, state.step (.park thread) = some next → ¬ next.Lost := by
  constructor
  · intro hevery front back hsplit state hfront
    rw [hsplit, everyStep_append] at hevery
    have hsettled := settled_run hevery.1 hfront
    refine ⟨hsettled.not_lost, fun thread next hpark => ?_⟩
    exact (settled_step hpark trivial hsettled).not_lost
  · intro h
    exact timely_of_never_lost [] actions rfl hrun
      fun front back hsplit state hfront => (h front back hsplit state hfront).2

instance [Fintype τ] (state : TokenState τ) (action : TokenStep τ) :
    Decidable (state.Timely action) := by
  cases action <;> unfold Timely <;> infer_instance

def shortWait : List (TokenStep (Fin 2)) :=
  [.enter 0, .lock 0, .check 0 false, .park 0, .store 1, .notify 1, .lock 0, .check 0 false,
    .leave 0]

theorem no_wakeup_lost_shortWait :
    ∃ final, runSteps step initial shortWait = some final ∧ ¬ final.Lost := by
  have hsome : (runSteps step initial shortWait).isSome = true := by decide
  obtain ⟨final, hrun⟩ := Option.isSome_iff_exists.mp hsome
  have hevery : EveryStep step Timely initial shortWait := by decide
  exact ⟨final, hrun, ((no_wakeup_lost_iff hrun).mp hevery shortWait [] (by simp) final hrun).1⟩

/-- The predicate is read before the flag is stored, and the thread parks after all were
notified. -/
def lateParking : List (TokenStep (Fin 2)) :=
  [.enter 0, .lock 0, .check 0 false, .store 1, .notify 1, .park 0]

/-- A wake-up is lost: the thread sleeps until its time is over, or until another cancellation. -/
theorem wakeup_lost_lateParking :
    ∃ final, runSteps step initial lateParking = some final ∧ final.Lost ∧
      ∀ later last, runSteps step final later = some last →
        (∀ action ∈ later, action ≠ .wake 0 ∧ ∀ caller, action ≠ .notify caller) →
          last.phase 0 = .parked := by
  have hany : (runSteps step initial lateParking).any
      (fun final => final.returned ∧ final.phase 0 = .parked) = true := by decide
  obtain ⟨final, hrun, hfinal⟩ := (Option.any_eq_true _ _).mp hany
  obtain ⟨hreturned, hparked⟩ := of_decide_eq_true hfinal
  refine ⟨final, hrun, ⟨hreturned, 0, hparked⟩, fun later last hlater hothers => ?_⟩
  exact parked_run hlater hothers hparked

end TokenState

end Nexus.Cancellation
