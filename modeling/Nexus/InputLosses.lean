import Mathlib.Data.Fintype.Basic
import Nexus.EventLog
import Nexus.StepRuns
import Nexus.WindowRouting

namespace Nexus.WindowInput

open StepRuns

abbrev Win32Message := BitVec 32 × BitVec 64 × BitVec 64

def killFocus : Win32Message := (WM_KILLFOCUS, 0, 0)

/-- Where a thread stands in the methods of one target. A reset is one of its own or the end of
`deactivate`. -/
inductive TargetPhase where
  | outside
  /-- `enqueue` takes the message and comes to `try_lock`. -/
  | offering (message : Win32Message)
  /-- Another thread has the queue. -/
  | contended
  /-- The target was active, and the loss is to be flagged. -/
  | losing
  | accepting (message : Win32Message)
  | overflowing (message : Win32Message)
  | pushing (message : Win32Message)
  /-- `drain` asks for the lock. -/
  | wanting
  | draining
  /-- The target was not active. -/
  | discarding
  | swapping
  /-- `deactivate` comes to the visibility. -/
  | concealing
  | resetting (deactivates : Bool)
  | clearing (deactivates : Bool)
  /-- The queue is unlocked, and the flag is to be cleared. -/
  | unsetting (deactivates : Bool)
  | uncapturing (deactivates : Bool)
  deriving DecidableEq

namespace TargetPhase

def Locks : TargetPhase → Prop
  | accepting _ | overflowing _ | pushing _ | draining | discarding | swapping | clearing _ => True
  | outside | offering _ | contended | losing | wanting | concealing | resetting _ | unsetting _
  | uncapturing _ => False

def SeesInactive : TargetPhase → Prop
  | discarding | concealing | resetting true | clearing true | unsetting true
  | uncapturing true => True
  | _ => False

def Cleared : TargetPhase → Prop
  | unsetting true | uncapturing true => True
  | _ => False

attribute [simp] Locks SeesInactive Cleared

end TargetPhase

/-- What happened to the queue. The last is the first in a log. -/
inductive QueueEvent where
  | kept (message : Win32Message)
  /-- An accepted message was dropped and the loss flagged. -/
  | dropped
  /-- A reset cleared the queue. -/
  | cleared
  | drained (result : List Win32Message)
  | deactivating
  /-- `deactivate` returned. -/
  | deactivated
  deriving DecidableEq

structure WindowTarget (τ : Type) where
  flags : TargetFlags
  queue : InputQueue
  lock : Option τ
  phase : τ → TargetPhase
  log : List QueueEvent

inductive TargetStep (τ : Type) where
  | enqueue (thread : τ) (message : Win32Message)
  | drain (thread : τ)
  | reset (thread : τ)
  | deactivate (thread : τ)
  | advance (thread : τ)
  deriving DecidableEq

/-- The optional pointer of a device broadcast is never retained. -/
def withoutPointer (message : Win32Message) : Win32Message :=
  if message.1 = WM_DEVICECHANGE then (message.1, message.2.1, 0) else message

namespace WindowTarget

variable {τ : Type}

def initial (visible : Bool) : WindowTarget τ :=
  ⟨⟨true, visible, false, false, 0⟩, ⟨[], false⟩, none, fun _ => .outside, []⟩

variable [DecidableEq τ]

def goes (thread : τ) (phase : TargetPhase) (target : WindowTarget τ) : WindowTarget τ :=
  { target with phase := Function.update target.phase thread phase }

def begin (target : WindowTarget τ) (thread : τ) (first : WindowTarget τ) :
    Option (WindowTarget τ) :=
  if target.phase thread = .outside then some first else none

/-- The next step of the call that the thread is in. What a thread does to the queue under the lock
is one step with its release of the lock; the flag can be changed without it. -/
def advance (thread : τ) (target : WindowTarget τ) : Option (WindowTarget τ) :=
  match target.phase thread with
  | .outside => none
  | .offering message =>
    if target.lock = none then
      some { target.goes thread (.accepting message) with lock := some thread }
    else some (target.goes thread .contended)
  | .contended =>
    if target.flags.active then some (target.goes thread .losing)
    else some (target.goes thread .outside)
  | .losing =>
    some { target.goes thread .outside with
      queue := { target.queue with inputLost := true }, log := .dropped :: target.log }
  | .accepting message =>
    if target.flags.active then
      if target.queue.messages.length = MESSAGE_CAPACITY then
        some (target.goes thread (.overflowing message))
      else some (target.goes thread (.pushing message))
    else some { target.goes thread .outside with lock := none }
  | .overflowing message =>
    some { target.goes thread (.pushing message) with
      queue := ⟨[], true⟩, log := .dropped :: target.log }
  | .pushing message =>
    some { target.goes thread .outside with
      lock := none
      queue := { target.queue with messages := target.queue.messages ++ [message] }
      log := .kept message :: target.log }
  | .wanting =>
    if target.lock = none then some { target.goes thread .draining with lock := some thread }
    else none
  | .draining =>
    if target.flags.active then some (target.goes thread .swapping)
    else
      some { target.goes thread .discarding with queue := { target.queue with messages := [] } }
  | .discarding =>
    some { target.goes thread .outside with
      lock := none
      queue := { target.queue with inputLost := false }
      log := .drained [] :: target.log }
  | .swapping =>
    some { target.goes thread .outside with
      lock := none
      queue := ⟨[], false⟩
      log := .drained (if target.queue.inputLost then [killFocus] else target.queue.messages) ::
        target.log }
  | .concealing =>
    some { target.goes thread (.resetting true) with
      flags := { target.flags with visible := false } }
  | .resetting deactivates =>
    if target.lock = none then
      some { target.goes thread (.clearing deactivates) with lock := some thread }
    else none
  | .clearing deactivates =>
    some { target.goes thread (.unsetting deactivates) with
      lock := none
      queue := { target.queue with messages := [] }
      log := .cleared :: target.log }
  | .unsetting deactivates =>
    some { target.goes thread (.uncapturing deactivates) with
      queue := { target.queue with inputLost := false } }
  | .uncapturing deactivates =>
    some { target.goes thread .outside with
      flags := { target.flags with captureMouse := false, captureKeyboard := false }
      log := if deactivates then .deactivated :: target.log else target.log }

def step (target : WindowTarget τ) : TargetStep τ → Option (WindowTarget τ)
  | .enqueue thread message =>
    target.begin thread
      (if target.flags.active && isPointerFreeMessage message.1 then
        target.goes thread (.offering (withoutPointer message))
      else target)
  | .drain thread => target.begin thread (target.goes thread .wanting)
  | .reset thread => target.begin thread (target.goes thread (.resetting false))
  | .deactivate thread =>
    target.begin thread
      { target.goes thread .concealing with
        flags := { target.flags with active := false }
        log := .deactivating :: target.log }
  | .advance thread => target.advance thread

end WindowTarget

def sinceEmptied : List QueueEvent → List QueueEvent
  | [] => []
  | .drained _ :: _ => []
  | .cleared :: _ => []
  | event :: earlier => event :: sinceEmptied earlier

def keptMessages (events : List QueueEvent) : List Win32Message :=
  events.reverse.filterMap fun
    | .kept message => some message
    | _ => none

/-- A drain returned what was accepted since the queue was last emptied, in order and whole, or one
`WM_KILLFOCUS`, and the latter where an accepted message was dropped. A target that is being
deactivated may return nothing, and one that has been returns nothing. -/
def AnswersDrain (event : QueueEvent) (earlier : List QueueEvent) : Prop :=
  ∀ result, event = .drained result →
    (.deactivated ∈ earlier → result = []) ∧
    (result = [] ∧ .deactivating ∈ earlier ∨ result = [killFocus] ∨
      .dropped ∉ sinceEmptied earlier ∧ result = keptMessages (sinceEmptied earlier))

namespace WindowTarget

variable {τ : Type}

def Delivers (target : WindowTarget τ) : Prop :=
  target.flags.active = true ∨ ∃ thread, target.phase thread = .swapping

/-- An accepted message that was dropped since the queue was last emptied is still flagged. -/
def Flagged (target : WindowTarget τ) : Prop :=
  target.Delivers → .dropped ∈ sinceEmptied target.log → target.queue.inputLost = true

/-- No reset clears the flag of a loss that came after it had cleared the queue. -/
def Timely (target : WindowTarget τ) : TargetStep τ → Prop
  | .advance thread =>
    (∃ deactivates, target.phase thread = .unsetting deactivates) →
      target.Delivers → .dropped ∉ sinceEmptied target.log
  | _ => True

structure Sound (target : WindowTarget τ) : Prop where
  locked : ∀ thread, (target.phase thread).Locks → target.lock = some thread
  inactive : ∀ thread, (target.phase thread).SeesInactive → target.flags.active = false
  announced : target.flags.active = false → .deactivating ∈ target.log
  cleared : ∀ thread, (target.phase thread).Cleared → ¬ target.Delivers
  ended : .deactivated ∈ target.log → ¬ target.Delivers
  kept : target.Delivers → .dropped ∉ sinceEmptied target.log →
    target.queue.messages = keptMessages (sinceEmptied target.log)

inductive Effect (target : WindowTarget τ) (thread : τ) : InputQueue → List QueueEvent → Prop where
  | quiet : target.Effect thread target.queue target.log
  | announced : target.Effect thread target.queue (.deactivating :: target.log)
  | lost : target.Effect thread { target.queue with inputLost := true } (.dropped :: target.log)
  | overflowed : target.Effect thread ⟨[], true⟩ (.dropped :: target.log)
  | pushed (message : Win32Message) :
    target.Effect thread { target.queue with messages := target.queue.messages ++ [message] }
      (.kept message :: target.log)
  | emptied (phase : target.phase thread = .draining) (active : target.flags.active = false) :
    target.Effect thread { target.queue with messages := [] } target.log
  | discarded (phase : target.phase thread = .discarding) :
    target.Effect thread { target.queue with inputLost := false } (.drained [] :: target.log)
  | swapped (phase : target.phase thread = .swapping) :
    target.Effect thread ⟨[], false⟩
      (.drained (if target.queue.inputLost then [killFocus] else target.queue.messages) ::
        target.log)
  | cleared : target.Effect thread { target.queue with messages := [] } (.cleared :: target.log)
  | unset (deactivates : Bool) (phase : target.phase thread = .unsetting deactivates) :
    target.Effect thread { target.queue with inputLost := false } target.log
  | ended (phase : target.phase thread = .uncapturing true) :
    target.Effect thread target.queue (.deactivated :: target.log)

variable [DecidableEq τ]

structure Moves (target next : WindowTarget τ) (thread : τ) (phase : TargetPhase) : Prop where
  phase_eq : next.phase = Function.update target.phase thread phase
  takes : phase.Locks → next.lock = some thread ∧ target.lock = none ∨
    next.lock = target.lock ∧ (target.phase thread).Locks
  frees : ¬ phase.Locks → next.lock = target.lock ∨ (target.phase thread).Locks
  active : next.flags.active = target.flags.active ∨
    next.flags.active = false ∧ .deactivating ∈ next.log
  inactive : phase.SeesInactive →
    next.flags.active = false ∨ (target.phase thread).SeesInactive
  cleared : phase.Cleared →
    (target.phase thread).Cleared ∨ target.phase thread = .clearing true
  swapping : phase = .swapping → target.flags.active = true
  effect : target.Effect thread next.queue next.log

omit [DecidableEq τ] in
theorem begin_eq_some {target first next : WindowTarget τ} {thread : τ} :
    target.begin thread first = some next ↔ target.phase thread = .outside ∧ first = next := by
  unfold begin
  split <;> simp [*]

theorem advance_cases {target next : WindowTarget τ} {thread : τ}
    (hstep : target.advance thread = some next) : ∃ phase, target.Moves next thread phase := by
  unfold advance at hstep
  split at hstep
  next => cases hstep
  next message hphase =>
    split at hstep
    · cases hstep
      refine ⟨_, rfl, ?_, ?_, ?_, ?_, ?_, ?_, .quiet⟩ <;> simp [goes, *]
    · cases hstep
      refine ⟨_, rfl, ?_, ?_, ?_, ?_, ?_, ?_, .quiet⟩ <;> simp [goes]
  next hphase =>
    split at hstep
    · cases hstep
      refine ⟨_, rfl, ?_, ?_, ?_, ?_, ?_, ?_, .quiet⟩ <;> simp [goes]
    · cases hstep
      refine ⟨_, rfl, ?_, ?_, ?_, ?_, ?_, ?_, .quiet⟩ <;> simp [goes]
  next hphase =>
    cases hstep
    refine ⟨_, rfl, ?_, ?_, ?_, ?_, ?_, ?_, .lost⟩ <;> simp [goes]
  next message hphase =>
    split at hstep
    · split at hstep
      · cases hstep
        refine ⟨_, rfl, ?_, ?_, ?_, ?_, ?_, ?_, .quiet⟩ <;> simp [goes, *]
      · cases hstep
        refine ⟨_, rfl, ?_, ?_, ?_, ?_, ?_, ?_, .quiet⟩ <;> simp [goes, *]
    · cases hstep
      refine ⟨_, rfl, ?_, ?_, ?_, ?_, ?_, ?_, .quiet⟩ <;> simp [goes, *]
  next message hphase =>
    cases hstep
    refine ⟨_, rfl, ?_, ?_, ?_, ?_, ?_, ?_, .overflowed⟩ <;> simp [goes, *]
  next message hphase =>
    cases hstep
    refine ⟨_, rfl, ?_, ?_, ?_, ?_, ?_, ?_, .pushed message⟩ <;> simp [goes, *]
  next hphase =>
    split at hstep
    · cases hstep
      refine ⟨_, rfl, ?_, ?_, ?_, ?_, ?_, ?_, .quiet⟩ <;> simp [goes, *]
    · cases hstep
  next hphase =>
    split at hstep
    · cases hstep
      refine ⟨_, rfl, ?_, ?_, ?_, ?_, ?_, ?_, .quiet⟩ <;> simp [goes, *]
    next hactive =>
      have hinactive := Bool.eq_false_of_not_eq_true hactive
      cases hstep
      refine ⟨_, rfl, ?_, ?_, ?_, ?_, ?_, ?_, .emptied hphase hinactive⟩ <;> simp [goes, *]
  next hphase =>
    cases hstep
    refine ⟨_, rfl, ?_, ?_, ?_, ?_, ?_, ?_, .discarded hphase⟩ <;> simp [goes, *]
  next hphase =>
    cases hstep
    refine ⟨_, rfl, ?_, ?_, ?_, ?_, ?_, ?_, .swapped hphase⟩ <;> simp [goes, *]
  next hphase =>
    cases hstep
    refine ⟨_, rfl, ?_, ?_, ?_, ?_, ?_, ?_, .quiet⟩ <;> simp [goes, *]
  next deactivates hphase =>
    split at hstep
    · cases hstep
      refine ⟨_, rfl, ?_, ?_, ?_, ?_, ?_, ?_, .quiet⟩ <;> cases deactivates <;> simp [goes, *]
    · cases hstep
  next deactivates hphase =>
    cases hstep
    refine ⟨_, rfl, ?_, ?_, ?_, ?_, ?_, ?_, .cleared⟩ <;> cases deactivates <;> simp [goes, *]
  next deactivates hphase =>
    cases hstep
    refine ⟨_, rfl, ?_, ?_, ?_, ?_, ?_, ?_, .unset deactivates hphase⟩ <;> cases deactivates <;>
      simp [goes, *]
  next deactivates hphase =>
    cases hstep
    cases deactivates
    · refine ⟨_, rfl, ?_, ?_, ?_, ?_, ?_, ?_, .quiet⟩ <;> simp [goes, *]
    · refine ⟨_, rfl, ?_, ?_, ?_, ?_, ?_, ?_, .ended hphase⟩ <;> simp [goes, *]

theorem step_cases {target next : WindowTarget τ} {action : TargetStep τ}
    (hstep : target.step action = some next) :
    ∃ thread phase, target.Moves next thread phase ∧
      ∀ deactivates, target.phase thread = .unsetting deactivates → action = .advance thread := by
  cases action with
  | enqueue thread =>
    obtain ⟨hphase, hnext⟩ := begin_eq_some.mp hstep
    split at hnext
    · cases hnext
      refine ⟨thread, _, ⟨rfl, ?_, ?_, ?_, ?_, ?_, ?_, .quiet⟩, ?_⟩ <;> simp [goes, *]
    · cases hnext
      refine ⟨thread, target.phase thread, ⟨(Function.update_eq_self _ _).symm, ?_, ?_, ?_, ?_, ?_,
        ?_, .quiet⟩, ?_⟩ <;> simp [hphase]
  | drain thread | reset thread =>
    obtain ⟨hphase, hnext⟩ := begin_eq_some.mp hstep
    cases hnext
    refine ⟨thread, _, ⟨rfl, ?_, ?_, ?_, ?_, ?_, ?_, .quiet⟩, ?_⟩ <;> simp [goes, *]
  | deactivate thread =>
    obtain ⟨hphase, hnext⟩ := begin_eq_some.mp hstep
    cases hnext
    refine ⟨thread, _, ⟨rfl, ?_, ?_, ?_, ?_, ?_, ?_, .announced⟩, ?_⟩ <;> simp [goes, *]
  | advance thread =>
    obtain ⟨phase, hmoves⟩ := advance_cases hstep
    exact ⟨thread, phase, hmoves, fun _ _ => rfl⟩

section Soundness

variable {target next : WindowTarget τ} {thread : τ} {phase : TargetPhase}

theorem Moves.delivers (hmoves : target.Moves next thread phase) (h : next.Delivers) :
    target.Delivers := by
  rcases h with hactive | ⟨other, hswapping⟩
  · rcases hmoves.active with heq | ⟨hinactive, _⟩
    · exact Or.inl (heq ▸ hactive)
    · rw [hactive] at hinactive
      cases hinactive
  · rw [hmoves.phase_eq] at hswapping
    by_cases heq : other = thread
    · rw [heq, Function.update_self] at hswapping
      exact Or.inl (hmoves.swapping hswapping)
    · rw [Function.update_of_ne heq] at hswapping
      exact Or.inr ⟨other, hswapping⟩

omit [DecidableEq τ] in
theorem Sound.not_delivers (h : target.Sound) (hlocks : (target.phase thread).Locks)
    (hinactive : target.flags.active = false) (hother : target.phase thread ≠ .swapping) :
    ¬ target.Delivers := by
  rintro (hactive | ⟨drainer, hswapping⟩)
  · rw [hinactive] at hactive
    cases hactive
  · have hheld := h.locked drainer (by rw [hswapping]; trivial)
    rw [h.locked thread hlocks] at hheld
    exact hother (Option.some.inj hheld ▸ hswapping)

omit [DecidableEq τ] in
theorem Effect.mem_log {queue : InputQueue} {log : List QueueEvent} {event : QueueEvent}
    (heffect : target.Effect thread queue log) (h : event ∈ target.log) : event ∈ log := by
  cases heffect with
  | quiet | emptied | unset => exact h
  | announced | lost | overflowed | pushed | discarded | swapped | cleared | ended =>
    exact List.mem_cons_of_mem _ h

omit [DecidableEq τ] in
theorem Effect.ended_of_mem {queue : InputQueue} {log : List QueueEvent}
    (heffect : target.Effect thread queue log) (h : .deactivated ∈ log) :
    .deactivated ∈ target.log ∨ target.phase thread = .uncapturing true := by
  cases heffect with
  | quiet | emptied | unset => exact Or.inl h
  | announced | lost | overflowed | pushed | discarded | swapped | cleared =>
    exact Or.inl (List.mem_of_ne_of_mem QueueEvent.noConfusion h)
  | ended hphase => exact Or.inr hphase

omit [DecidableEq τ] in
/-- While the target delivers, the queue has what was kept since it was last emptied, until a
message is dropped. -/
theorem Effect.kept {queue : InputQueue} {log : List QueueEvent}
    (heffect : target.Effect thread queue log) (h : target.Sound) (hdelivers : target.Delivers)
    (hkept : .dropped ∉ sinceEmptied log) : queue.messages = keptMessages (sinceEmptied log) := by
  cases heffect with
  | quiet | unset => exact h.kept hdelivers hkept
  | lost | overflowed => exact absurd List.mem_cons_self hkept
  | announced | ended | pushed =>
    have hbefore := h.kept hdelivers fun hmem => hkept (List.mem_cons_of_mem _ hmem)
    simpa [sinceEmptied, keptMessages] using hbefore
  | emptied hphase hinactive =>
    have hlocks : (target.phase thread).Locks := by simp [hphase]
    exact absurd hdelivers (h.not_delivers hlocks hinactive (by simp [hphase]))
  | discarded hphase =>
    have hlocks : (target.phase thread).Locks := by simp [hphase]
    have hinactive := h.inactive thread (by simp [hphase])
    exact absurd hdelivers (h.not_delivers hlocks hinactive (by simp [hphase]))
  | swapped | cleared => rfl

theorem Moves.sound (hmoves : target.Moves next thread phase) (h : target.Sound) : next.Sound where
  locked other hother := by
    rw [hmoves.phase_eq] at hother
    by_cases heq : other = thread
    · rw [heq, Function.update_self] at hother
      rw [heq]
      rcases hmoves.takes hother with ⟨htaken, _⟩ | ⟨hlock, hbefore⟩
      · exact htaken
      · rw [hlock]
        exact h.locked thread hbefore
    · rw [Function.update_of_ne heq] at hother
      have hheld := h.locked other hother
      have hthread : ¬ (target.phase thread).Locks := fun hlocks => by
        rw [h.locked thread hlocks] at hheld
        exact heq (Option.some.inj hheld).symm
      by_cases hlocks : phase.Locks
      · rcases hmoves.takes hlocks with ⟨_, hfree⟩ | ⟨_, hbefore⟩
        · rw [hfree] at hheld
          cases hheld
        · exact absurd hbefore hthread
      · rcases hmoves.frees hlocks with hlock | hbefore
        · rw [hlock]
          exact hheld
        · exact absurd hbefore hthread
  inactive other hother := by
    have hstays (hinactive : target.flags.active = false) : next.flags.active = false := by
      rcases hmoves.active with heq | ⟨hnow, _⟩
      · rw [heq]
        exact hinactive
      · exact hnow
    rw [hmoves.phase_eq] at hother
    by_cases heq : other = thread
    · rw [heq, Function.update_self] at hother
      rcases hmoves.inactive hother with hnow | hbefore
      · exact hnow
      · exact hstays (h.inactive thread hbefore)
    · rw [Function.update_of_ne heq] at hother
      exact hstays (h.inactive other hother)
  announced hinactive := by
    rcases hmoves.active with heq | ⟨_, hmem⟩
    · rw [heq] at hinactive
      exact hmoves.effect.mem_log (h.announced hinactive)
    · exact hmem
  cleared other hother hdelivers := by
    have hbefore := hmoves.delivers hdelivers
    rw [hmoves.phase_eq] at hother
    by_cases heq : other = thread
    · rw [heq, Function.update_self] at hother
      rcases hmoves.cleared hother with hcleared | hphase
      · exact h.cleared thread hcleared hbefore
      · have hlocks : (target.phase thread).Locks := by simp [hphase]
        have hinactive := h.inactive thread (by simp [hphase])
        exact h.not_delivers hlocks hinactive (by simp [hphase]) hbefore
    · rw [Function.update_of_ne heq] at hother
      exact h.cleared other hother hbefore
  ended hended hdelivers := by
    have hbefore := hmoves.delivers hdelivers
    rcases hmoves.effect.ended_of_mem hended with hmem | hphase
    · exact h.ended hmem hbefore
    · exact h.cleared thread (by simp [hphase]) hbefore
  kept hdelivers hkept := hmoves.effect.kept h (hmoves.delivers hdelivers) hkept

omit [DecidableEq τ] in
theorem sound_initial (visible : Bool) : (initial visible : WindowTarget τ).Sound where
  locked _ h := h.elim
  inactive _ h := h.elim
  announced h := by cases h
  cleared _ h := h.elim
  ended h := by cases h
  kept _ _ := rfl

omit [DecidableEq τ] in
theorem Effect.flagged {queue : InputQueue} {log : List QueueEvent}
    (heffect : target.Effect thread queue log) (h : target.Flagged) (hdelivers : target.Delivers)
    (htimely : ∀ deactivates, target.phase thread = .unsetting deactivates →
      .dropped ∉ sinceEmptied target.log) (hdropped : .dropped ∈ sinceEmptied log) :
    queue.inputLost = true := by
  cases heffect with
  | quiet | emptied => exact h hdelivers hdropped
  | lost | overflowed => rfl
  | announced | ended | pushed =>
    exact h hdelivers (List.mem_of_ne_of_mem QueueEvent.noConfusion hdropped)
  | discarded | swapped | cleared => cases hdropped
  | unset deactivates hphase => exact absurd hdropped (htimely deactivates hphase)

omit [DecidableEq τ] in
theorem Effect.answers {queue : InputQueue} {log : List QueueEvent}
    (heffect : target.Effect thread queue log) (h : target.Sound) (hflagged : target.Flagged)
    (hanswers : EachEvent AnswersDrain target.log) : EachEvent AnswersDrain log := by
  cases heffect with
  | quiet | emptied | unset => exact hanswers
  | announced | lost | overflowed | pushed | cleared | ended =>
    exact ⟨fun result hresult => (by cases hresult), hanswers⟩
  | discarded hphase =>
    have hinactive := h.inactive thread (by simp [hphase])
    refine ⟨fun result hresult => ?_, hanswers⟩
    cases hresult
    exact ⟨fun _ => rfl, Or.inl ⟨rfl, h.announced hinactive⟩⟩
  | swapped hphase =>
    have hdelivers : target.Delivers := Or.inr ⟨thread, hphase⟩
    refine ⟨fun result hresult => ?_, hanswers⟩
    cases hresult
    refine ⟨fun hended => absurd hdelivers (h.ended hended), Or.inr ?_⟩
    split
    · exact Or.inl rfl
    next hlost =>
      have hkept : .dropped ∉ sinceEmptied target.log := fun hmem => hlost (hflagged hdelivers hmem)
      exact Or.inr ⟨hkept, h.kept hdelivers hkept⟩

end Soundness

/-- Every drain has answered what it owed, and the next one will. -/
structure Reports (target : WindowTarget τ) : Prop extends target.Sound where
  flagged : target.Flagged
  answers : EachEvent AnswersDrain target.log

theorem reports_step {target next : WindowTarget τ} {action : TargetStep τ}
    (hstep : target.step action = some next) (htimely : target.Timely action)
    (h : target.Reports) : next.Reports := by
  obtain ⟨_, _, hmoves, hadvance⟩ := step_cases hstep
  refine ⟨hmoves.sound h.toSound, fun hdelivers => ?_,
    hmoves.effect.answers h.toSound h.flagged h.answers⟩
  have hbefore := hmoves.delivers hdelivers
  refine hmoves.effect.flagged h.flagged hbefore fun deactivates hphase => ?_
  rw [hadvance deactivates hphase] at htimely
  exact htimely ⟨deactivates, hphase⟩ hbefore

theorem reports_run {visible : Bool} {actions : List (TargetStep τ)} {final : WindowTarget τ}
    (hevery : EveryStep step Timely (initial visible) actions)
    (hrun : runSteps step (initial visible) actions = some final) : final.Reports :=
  hevery.invariant (fun _ _ _ hstep htimely h => reports_step hstep htimely h) hrun
    ⟨sound_initial visible, fun _ hdropped => (by cases hdropped), trivial⟩

theorem timely_of_flagged {target next : WindowTarget τ} {action : TargetStep τ}
    (hstep : target.step action = some next) (h : next.Flagged) : target.Timely action := by
  cases action with
  | advance thread =>
    rintro ⟨deactivates, hphase⟩ hdelivers hdropped
    dsimp only [step, advance] at hstep
    rw [hphase] at hstep
    cases hstep
    have hstill : Delivers { target.goes thread (.uncapturing deactivates) with
        queue := { target.queue with inputLost := false } } := by
      rcases hdelivers with hactive | ⟨drainer, hswapping⟩
      · exact Or.inl hactive
      · refine Or.inr ⟨drainer, ?_⟩
        have hne : drainer ≠ thread := fun heq => by
          rw [heq, hphase] at hswapping
          cases hswapping
        exact (Function.update_of_ne hne ..).trans hswapping
    exact Bool.noConfusion (h hstill hdropped)
  | _ => trivial

/-- No loss goes unreported exactly when every reset that clears the flag is timely. -/
theorem reports_iff {visible : Bool} {actions : List (TargetStep τ)} {final : WindowTarget τ}
    (hrun : runSteps step (initial visible) actions = some final) :
    EveryStep step Timely (initial visible) actions ↔
      ∀ front back, actions = front ++ back → ∀ target,
        runSteps step (initial visible) front = some target →
          EachEvent AnswersDrain target.log ∧ target.Flagged := by
  constructor
  · intro hevery front back hsplit target hfront
    rw [hsplit, everyStep_append] at hevery
    have hreports := reports_run hevery.1 hfront
    exact ⟨hreports.answers, hreports.flagged⟩
  · intro h
    refine everyStep_iff_split.mpr fun front action back hsplit middle hfront => ?_
    rw [hsplit] at hrun
    obtain ⟨_, hmiddle, hrest⟩ := runSteps_append.mp hrun
    obtain ⟨next, hstep, _⟩ := runSteps_cons.mp hrest
    rw [hfront] at hmiddle
    cases hmiddle
    have hnext : runSteps step (initial visible) (front ++ [action]) = some next :=
      runSteps_append.mpr ⟨middle, hfront, runSteps_cons.mpr ⟨next, hstep, rfl⟩⟩
    have hnow := h (front ++ [action]) back (by simp [hsplit]) next hnext
    exact timely_of_flagged hstep hnow.2

instance [Fintype τ] (target : WindowTarget τ) : Decidable target.Delivers := by
  unfold Delivers
  infer_instance

instance [Fintype τ] (target : WindowTarget τ) (action : TargetStep τ) :
    Decidable (target.Timely action) := by
  cases action <;> unfold Timely <;> infer_instance

def keyDown : Win32Message := (WM_KEYDOWN, 65, 1)

def keyUp : Win32Message := (WM_KEYUP, 65, 1)

/-- A message meets a drain, and the next drain tells of the loss. -/
def contendedKeyUp : List (TargetStep (Fin 2)) :=
  [.enqueue 0 keyDown, .advance 0, .advance 0, .advance 0, .drain 1, .advance 1, .enqueue 0 keyUp,
    .advance 0, .advance 0, .advance 1, .advance 1, .advance 0, .drain 1, .advance 1, .advance 1,
    .advance 1]

theorem reports_contendedKeyUp :
    ∃ final, runSteps step (initial true) contendedKeyUp = some final ∧
      final.log = [.drained [killFocus], .dropped, .drained [keyDown], .kept keyDown] ∧
      EachEvent AnswersDrain final.log := by
  have hany : (runSteps step (initial true) contendedKeyUp).any (fun final => final.log =
      [.drained [killFocus], .dropped, .drained [keyDown], .kept keyDown]) = true := by decide
  obtain ⟨final, hrun, hlog⟩ := (Option.any_eq_true _ _).mp hany
  have hevery : EveryStep step Timely (initial true) contendedKeyUp := by decide
  refine ⟨final, hrun, of_decide_eq_true hlog, ?_⟩
  exact ((reports_iff hrun).mp hevery contendedKeyUp [] (by simp) final hrun).1

/-- A reset clears the queue, a key is accepted, its release meets the drain that returns it, and
then the reset clears the flag. -/
def lostKeyUp : List (TargetStep (Fin 3)) :=
  [.enqueue 0 killFocus, .advance 0, .advance 0, .advance 0, .reset 1, .advance 1, .advance 1,
    .enqueue 0 keyDown, .advance 0, .advance 0, .advance 0, .drain 2, .advance 2,
    .enqueue 0 keyUp, .advance 0, .advance 2, .advance 2, .advance 0, .advance 0, .advance 1,
    .advance 1, .drain 2, .advance 2, .advance 2, .advance 2]

/-- The key-up is lost silently: the drain after it returns nothing, and the key stays down. -/
theorem not_answersDrain_lostKeyUp :
    ∃ final, runSteps step (initial true) lostKeyUp = some final ∧ final.flags.active = true ∧
      final.log = [.drained [], .dropped, .drained [keyDown], .kept keyDown, .cleared,
        .kept killFocus] ∧ ¬ EachEvent AnswersDrain final.log := by
  have hany : (runSteps step (initial true) lostKeyUp).any (fun final =>
      final.flags.active = true ∧ final.log = [.drained [], .dropped, .drained [keyDown],
        .kept keyDown, .cleared, .kept killFocus]) = true := by decide
  obtain ⟨final, hrun, hfinal⟩ := (Option.any_eq_true _ _).mp hany
  obtain ⟨hactive, hlog⟩ := of_decide_eq_true hfinal
  refine ⟨final, hrun, hactive, hlog, fun heach => ?_⟩
  rw [hlog] at heach
  have hanswer := (heach.1 [] rfl).2
  simp [sinceEmptied] at hanswer

end WindowTarget

end Nexus.WindowInput
