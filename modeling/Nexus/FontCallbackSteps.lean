import Nexus.FontDispatches

namespace Nexus.FontNotifications

open StepRuns

namespace FontStep

def enqueues : FontStep → Bool
  | .enqueue _ _ => true
  | _ => false

theorem enqueues_of_drains {action : FontStep} (h : action.drains = true) :
    action.enqueues = false := by
  cases action with
  | enqueue => cases h
  | _ => rfl

end FontStep

namespace NativeFontCallback

section Steps

variable {callback next : NativeFontCallback} {action : FontStep}

theorem held_eq_nil_iff : callback.held = [] ↔ ∀ dispatcher ∈ callback.dispatchers,
    dispatcher.held = none := List.filterMap_eq_nil_iff

theorem dispatcher_step (hstep : step callback action = some next) (hdrains : action.drains = true) :
    ∃ index,
      (∃ invalidates, callback.dispatchers[index]? = some (.draining invalidates) ∧
        next = callback.take index invalidates) ∨
      (∃ invalidates pending, callback.dispatchers[index]? = some (.holding invalidates pending) ∧
        next = callback.enter index invalidates pending) ∨
      ∃ invalidates pending, callback.dispatchers[index]? = some (.calling invalidates pending) ∧
        next = callback.finish index invalidates := by
  cases action with
  | take index =>
    refine ⟨index, Or.inl ?_⟩
    cases hfound : callback.dispatchers[index]? with
    | none => simp [step, hfound] at hstep
    | some dispatcher =>
      cases dispatcher with
      | draining invalidates =>
        simp only [step, hfound, Option.some.injEq] at hstep
        exact ⟨invalidates, rfl, hstep.symm⟩
      | _ => simp [step, hfound] at hstep
  | enter index =>
    refine ⟨index, Or.inr (Or.inl ?_)⟩
    cases hfound : callback.dispatchers[index]? with
    | none => simp [step, hfound] at hstep
    | some dispatcher =>
      cases dispatcher with
      | holding invalidates pending =>
        simp only [step, hfound, Option.some.injEq] at hstep
        exact ⟨invalidates, pending, rfl, hstep.symm⟩
      | _ => simp [step, hfound] at hstep
  | finish index =>
    refine ⟨index, Or.inr (Or.inr ?_)⟩
    cases hfound : callback.dispatchers[index]? with
    | none => simp [step, hfound] at hstep
    | some dispatcher =>
      cases dispatcher with
      | calling invalidates pending =>
        simp only [step, hfound, Option.some.injEq] at hstep
        exact ⟨invalidates, pending, rfl, hstep.symm⟩
      | _ => simp [step, hfound] at hstep
  | _ => cases hdrains

theorem started_enqueue (identifier : String) (font : Option FontHandle) :
    (callback.enqueue identifier font).started = callback.started := by
  have hoverflow : (overflow callback.queue).filterMap FontEvent.started? = [] :=
    List.filterMap_eq_nil_iff.mpr (Sound.quiet_overflow _)
  have hreturned := fun invalidates => returned_started invalidates
  unfold enqueue started
  dsimp only
  split
  · rw [List.filterMap_append, List.filterMap_cons_none rfl, hreturned, List.append_nil]
  · split
    · rw [List.filterMap_append, hoverflow, List.append_nil]
    · rw [List.filterMap_append, List.filterMap_append, hoverflow, hreturned, List.append_nil,
        List.append_nil]

theorem started_take (index : Nat) (invalidates : Option Nat) :
    (callback.take index invalidates).started = callback.started := by
  have hreturned := returned_started invalidates
  unfold take started
  split
  next => rfl
  next =>
    dsimp only
    rw [List.filterMap_append, List.filterMap_append, hreturned]
    split <;> simp [FontEvent.started?]

theorem started_abort : callback.abort.started = callback.started := by
  unfold abort started
  dsimp only
  rw [List.filterMap_append, List.filterMap_map]
  simp [FontEvent.started?, Function.comp_def]

theorem started_step (hstep : step callback action = some next)
    (hstays : callback.gate.accepting = false ∨ callback.held = []) :
    next.started = callback.started := by
  by_cases hdrains : action.drains = true
  · obtain ⟨index, ⟨invalidates, _, rfl⟩ | ⟨invalidates, pending, hfound, rfl⟩ |
      ⟨invalidates, pending, _, rfl⟩⟩ := dispatcher_step hstep hdrains
    · exact started_take index invalidates
    · rcases hstays with hclosed | hheld
      · unfold enter CallbackGate.tryEnter started
        rw [if_neg (by rw [hclosed]; exact Bool.false_ne_true)]
        dsimp only
        rw [List.filterMap_append]
        exact List.append_nil _
      · have hnone := held_eq_nil_iff.mp hheld _ (List.mem_of_getElem? hfound)
        cases hnone
    · rfl
  · cases action with
    | enqueue identifier font =>
      cases hstep
      exact started_enqueue identifier font
    | publish | closeGate =>
      cases hstep
      rfl
    | abort =>
      cases hstep
      exact started_abort
    | _ => exact absurd rfl hdrains

theorem closed_step (hstep : step callback action = some next)
    (hclosed : callback.gate.accepting = false) : next.gate.accepting = false := by
  by_cases hdrains : action.drains = true
  · obtain ⟨_, ⟨invalidates, _, rfl⟩ | ⟨invalidates, pending, _, rfl⟩ |
      ⟨invalidates, pending, _, rfl⟩⟩ := dispatcher_step hstep hdrains
    · unfold take
      split <;> exact hclosed
    · unfold enter CallbackGate.tryEnter
      rw [if_neg (by rw [hclosed]; exact Bool.false_ne_true)]
      exact hclosed
    · exact hclosed
  · cases action with
    | enqueue =>
      cases hstep
      unfold enqueue
      dsimp only
      split
      · exact hclosed
      · split <;> exact hclosed
    | publish | abort =>
      cases hstep
      exact hclosed
    | closeGate =>
      cases hstep
      rfl
    | _ => exact absurd rfl hdrains

theorem take_of_none (index : Nat) (invalidates : Option Nat)
    (hnone : callback.queue.aborted = true ∨ callback.queue.pending = []) :
    (callback.take index invalidates).queue.aborted = callback.queue.aborted ∧
      (callback.take index invalidates).queue.pending = [] ∧
      (callback.take index invalidates).dispatchers = callback.dispatchers.eraseIdx index := by
  unfold take NativeCallbackQueue.take
  by_cases haborted : callback.queue.aborted = true
  · simp [haborted]
  · have hempty : callback.queue.pending = [] := hnone.resolve_left haborted
    simp [haborted, hempty]

theorem aborted_step (hstep : step callback action = some next)
    (haborted : callback.queue.aborted = true) : next.queue.aborted = true := by
  by_cases hdrains : action.drains = true
  · obtain ⟨index, ⟨invalidates, _, rfl⟩ | ⟨invalidates, pending, _, rfl⟩ |
      ⟨invalidates, pending, _, rfl⟩⟩ := dispatcher_step hstep hdrains
    · exact (take_of_none index invalidates (Or.inl haborted)).1.trans haborted
    · unfold enter
      split <;> exact haborted
    · exact haborted
  · cases action with
    | enqueue =>
      cases hstep
      unfold enqueue
      simp only [if_pos haborted]
      exact haborted
    | publish =>
      cases hstep
      unfold publish NativeCallbackQueue.publish
      simp only [if_pos haborted]
      exact haborted
    | abort =>
      cases hstep
      rfl
    | closeGate =>
      cases hstep
      exact haborted
    | _ => exact absurd rfl hdrains

theorem held_step (hstep : step callback action = some next) (hheld : callback.held = [])
    (hnone : callback.queue.aborted = true ∨
      callback.queue.pending = [] ∧ action.enqueues = false) : next.held = [] := by
  rw [held_eq_nil_iff] at hheld ⊢
  by_cases hdrains : action.drains = true
  · obtain ⟨index, ⟨invalidates, _, rfl⟩ | ⟨invalidates, pending, hfound, rfl⟩ |
      ⟨invalidates, pending, _, rfl⟩⟩ := dispatcher_step hstep hdrains
    · rw [(take_of_none index invalidates (hnone.imp_right And.left)).2.2]
      exact fun dispatcher hmem => hheld dispatcher (List.mem_of_mem_eraseIdx hmem)
    · cases hheld _ (List.mem_of_getElem? hfound)
    · intro dispatcher hmem
      rcases List.mem_or_eq_of_mem_set hmem with hmem | rfl
      · exact hheld dispatcher hmem
      · rfl
  · cases action with
    | enqueue =>
      cases hstep
      rcases hnone with haborted | ⟨_, hno⟩
      · unfold enqueue
        simp only [if_pos haborted]
        exact hheld
      · cases hno
    | publish =>
      cases hstep
      unfold publish NativeCallbackQueue.publish
      rcases hnone with haborted | ⟨hempty, _⟩
      · simp only [if_pos haborted, if_neg Bool.false_ne_true]
        exact hheld
      · by_cases haborted : callback.queue.aborted = true
        · simp only [if_pos haborted, if_neg Bool.false_ne_true]
          exact hheld
        · simp only [if_neg haborted, hempty, List.isEmpty_nil, Bool.or_true, if_pos trivial,
            if_neg Bool.false_ne_true]
          exact hheld
    | abort | closeGate =>
      cases hstep
      exact hheld
    | _ => exact absurd rfl hdrains

theorem pending_step (hstep : step callback action = some next)
    (hempty : callback.queue.pending = []) (hno : action.enqueues = false) :
    next.queue.pending = [] := by
  by_cases hdrains : action.drains = true
  · obtain ⟨index, ⟨invalidates, _, rfl⟩ | ⟨invalidates, pending, _, rfl⟩ |
      ⟨invalidates, pending, _, rfl⟩⟩ := dispatcher_step hstep hdrains
    · exact (take_of_none index invalidates (Or.inr hempty)).2.1
    · unfold enter
      split <;> exact hempty
    · exact hempty
  · cases action with
    | enqueue => cases hno
    | publish =>
      cases hstep
      unfold publish NativeCallbackQueue.publish
      dsimp only
      split
      · exact hempty
      · split <;> exact hempty
    | abort =>
      cases hstep
      rfl
    | closeGate =>
      cases hstep
      exact hempty
    | _ => exact absurd rfl hdrains

end Steps

end NativeFontCallback

end Nexus.FontNotifications
