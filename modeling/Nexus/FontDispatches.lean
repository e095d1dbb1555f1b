import Nexus.NativeFontCallback

namespace Nexus.FontNotifications

open StepRuns

def Dispatching (queue : NativeCallbackQueue) (dispatchers : List Dispatcher) : Prop :=
  (dispatchers = [] ∧ queue.dispatching = false) ∨
    ∃ dispatcher, dispatchers = [dispatcher] ∧ queue.dispatching = true ∧ queue.published = true

namespace NativeFontCallback

def held (callback : NativeFontCallback) : List PendingFontCallback :=
  callback.dispatchers.filterMap Dispatcher.held

def outstanding (callback : NativeFontCallback) : List PendingFontCallback :=
  callback.held ++ callback.queue.pending

def started (callback : NativeFontCallback) : List PendingFontCallback :=
  callback.events.filterMap FontEvent.started?

def settled (callback : NativeFontCallback) : List Nat :=
  callback.events.filterMap FontEvent.settles

/-- What the number of the invalidation is worth: nothing unless the font is null. -/
def nullOf (font : Option FontHandle) (callback : NativeFontCallback) : Option Nat :=
  if font.isNone then some callback.count else none

def pendingOf (identifier : String) (font : Option FontHandle) (callback : NativeFontCallback) :
    PendingFontCallback := ⟨identifier, font.elim 0 (·.address), callback.count⟩

inductive Move : NativeFontCallback → NativeFontCallback → Prop
  | ignored {callback : NativeFontCallback} (font : Option FontHandle) :
      callback.queue.aborted = true → Move callback { callback with
        count := callback.count + 1
        events := callback.events ++ .aborted callback.count ::
          (callback.nullOf font).toList.map .invalidated }
  | queued {callback : NativeFontCallback} (identifier : String) (font : Option FontHandle) :
      callback.queue.aborted = false →
      (callback.queue.published = true → callback.queue.dispatching = true) →
      Move callback { callback with
        queue := { callback.queue with
          pending := callback.queue.kept ++ [callback.pendingOf identifier font] }
        count := callback.count + 1
        events := callback.events ++
          (overflow callback.queue ++ (callback.nullOf font).toList.map .invalidated) }
  | woken {callback : NativeFontCallback} (identifier : String) (font : Option FontHandle) :
      callback.queue.aborted = false → callback.queue.published = true →
      callback.dispatchers = [] → Move callback { callback with
        queue := { callback.queue with
          dispatching := true
          pending := callback.queue.kept ++ [callback.pendingOf identifier font] }
        dispatchers := [.draining (callback.nullOf font)]
        count := callback.count + 1
        events := callback.events ++ overflow callback.queue }
  | published {callback : NativeFontCallback} : callback.queue.aborted = false →
      (callback.queue.dispatching = true ∨ callback.queue.pending = []) →
      Move callback { callback with queue := { callback.queue with published := true } }
  | unfenced {callback : NativeFontCallback} : callback.queue.aborted = false →
      callback.dispatchers = [] → Move callback { callback with
        queue := { callback.queue with published := true, dispatching := true }
        dispatchers := [.draining none] }
  | unheard {callback : NativeFontCallback} : Move callback callback
  | aborted {callback : NativeFontCallback} : Move callback callback.abort
  | taken {callback : NativeFontCallback} {invalidates : Option Nat}
      {pending : PendingFontCallback} {rest : List PendingFontCallback} :
      callback.dispatchers = [.draining invalidates] → callback.queue.aborted = false →
      callback.queue.pending = pending :: rest → Move callback { callback with
        queue := { callback.queue with pending := rest }
        dispatchers := [.holding invalidates pending] }
  | stopped {callback : NativeFontCallback} {invalidates : Option Nat} :
      callback.dispatchers = [.draining invalidates] → callback.queue.aborted = true →
      Move callback { callback with
        queue := { callback.queue with pending := [], dispatching := false }
        dispatchers := []
        events := callback.events ++ (.stopped :: invalidates.toList.map .invalidated) }
  | drained {callback : NativeFontCallback} {invalidates : Option Nat} :
      callback.dispatchers = [.draining invalidates] → callback.queue.aborted = false →
      callback.queue.pending = [] → Move callback { callback with
        queue := { callback.queue with dispatching := false }
        dispatchers := []
        events := callback.events ++ invalidates.toList.map .invalidated }
  | entered {callback : NativeFontCallback} {invalidates : Option Nat}
      {pending : PendingFontCallback} : callback.dispatchers = [.holding invalidates pending] →
      callback.gate.accepting = true → Move callback { callback with
        gate := { callback.gate with inFlight := callback.gate.inFlight + 1 }
        dispatchers := [.calling invalidates pending]
        events := callback.events ++ [.started pending] }
  | refused {callback : NativeFontCallback} {invalidates : Option Nat}
      {pending : PendingFontCallback} : callback.dispatchers = [.holding invalidates pending] →
      callback.gate.accepting = false → Move callback { callback with
        dispatchers := [.draining invalidates]
        events := callback.events ++ [.refused pending.sequence] }
  | finished {callback : NativeFontCallback} {invalidates : Option Nat}
      {pending : PendingFontCallback} : callback.dispatchers = [.calling invalidates pending] →
      Move callback { callback with
        gate := callback.gate.leave 1
        dispatchers := [.draining invalidates] }
  | closed {callback : NativeFontCallback} :
      Move callback { callback with gate := callback.gate.close }

section Steps

variable {callback next : NativeFontCallback}

theorem enqueue_cases (hdispatching : Dispatching callback.queue callback.dispatchers)
    (identifier : String) (font : Option FontHandle) :
    (callback.queue.aborted = true ∧ callback.enqueue identifier font = { callback with
        count := callback.count + 1
        events := callback.events ++ .aborted callback.count ::
          (callback.nullOf font).toList.map .invalidated }) ∨
      (callback.queue.aborted = false ∧
        (callback.queue.published = true → callback.queue.dispatching = true) ∧
        callback.enqueue identifier font = { callback with
          queue := { callback.queue with
            pending := callback.queue.kept ++ [callback.pendingOf identifier font] }
          count := callback.count + 1
          events := callback.events ++
            (overflow callback.queue ++ (callback.nullOf font).toList.map .invalidated) }) ∨
      (callback.queue.aborted = false ∧ callback.queue.published = true ∧
        callback.dispatchers = [] ∧ callback.enqueue identifier font = { callback with
          queue := { callback.queue with
            dispatching := true
            pending := callback.queue.kept ++ [callback.pendingOf identifier font] }
          dispatchers := [.draining (callback.nullOf font)]
          count := callback.count + 1
          events := callback.events ++ overflow callback.queue }) := by
  unfold enqueue NativeCallbackQueue.enqueue
  by_cases haborted : callback.queue.aborted = true
  · refine Or.inl ⟨haborted, ?_⟩
    simp only [if_pos haborted]
    rfl
  · have halive : callback.queue.aborted = false := Bool.eq_false_iff.mpr haborted
    by_cases hdrains : (callback.queue.published && !callback.queue.dispatching) = true
    · rcases hdispatching with ⟨hquiet, hfree⟩ | ⟨_, _, hbusy, _⟩
      · refine Or.inr (Or.inr ⟨halive, by simpa [hfree] using hdrains, hquiet, ?_⟩)
        simp only [if_neg haborted, if_pos hdrains, if_pos trivial, hquiet, List.nil_append]
        rfl
      · simp [hbusy] at hdrains
    · refine Or.inr (Or.inl ⟨halive, by simpa using hdrains, ?_⟩)
      simp only [if_neg haborted, if_neg hdrains, if_neg Bool.false_ne_true]
      rfl

theorem move_of_enqueue (hdispatching : Dispatching callback.queue callback.dispatchers)
    (identifier : String) (font : Option FontHandle) :
    Move callback (callback.enqueue identifier font) := by
  rcases enqueue_cases hdispatching identifier font with ⟨haborted, henqueue⟩ |
    ⟨halive, hbusy, henqueue⟩ | ⟨halive, hpublished, hquiet, henqueue⟩
  · rw [henqueue]
    exact .ignored font haborted
  · rw [henqueue]
    exact .queued identifier font halive hbusy
  · rw [henqueue]
    exact .woken identifier font halive hpublished hquiet

theorem move_of_publish (hdispatching : Dispatching callback.queue callback.dispatchers) :
    Move callback callback.publish := by
  unfold publish NativeCallbackQueue.publish
  by_cases haborted : callback.queue.aborted = true
  · simp only [if_pos haborted, if_neg Bool.false_ne_true]
    exact .unheard
  · have halive : callback.queue.aborted = false := Bool.eq_false_iff.mpr haborted
    by_cases hstays : (callback.queue.dispatching || callback.queue.pending.isEmpty) = true
    · have hpublished := @Move.published callback halive (by simpa using hstays)
      simp only [if_neg haborted, if_pos hstays, if_neg Bool.false_ne_true]
      exact hpublished
    · rcases hdispatching with ⟨hquiet, _⟩ | ⟨_, _, hbusy, _⟩
      · have hunfenced := Move.unfenced halive hquiet
        simp only [if_neg haborted, if_neg hstays, if_pos trivial, hquiet, List.nil_append]
        exact hunfenced
      · simp [hbusy] at hstays

theorem only_dispatcher (hdispatching : Dispatching callback.queue callback.dispatchers)
    {index : Nat} {dispatcher : Dispatcher} (h : callback.dispatchers[index]? = some dispatcher) :
    index = 0 ∧ callback.dispatchers = [dispatcher] := by
  rcases hdispatching with ⟨hquiet, _⟩ | ⟨_, honly, _⟩
  · rw [hquiet] at h
    cases h
  · rw [honly] at h ⊢
    cases index with
    | zero => exact ⟨rfl, congrArg (fun other => [other]) (Option.some.inj h)⟩
    | succ => cases h

theorem move_of_take {invalidates : Option Nat}
    (hdispatcher : callback.dispatchers = [.draining invalidates]) :
    Move callback (callback.take 0 invalidates) := by
  unfold take NativeCallbackQueue.take
  by_cases haborted : callback.queue.aborted = true
  · have hstopped := Move.stopped hdispatcher haborted
    simp only [if_pos haborted, hdispatcher]
    exact hstopped
  · have halive : callback.queue.aborted = false := Bool.eq_false_iff.mpr haborted
    simp only [if_neg haborted, hdispatcher]
    split
    next hfound =>
      split at hfound
      next => cases hfound
      next hpending =>
        cases hfound
        exact .taken hdispatcher halive hpending
    next hfound =>
      split at hfound
      next hpending =>
        cases hfound
        exact .drained hdispatcher halive hpending
      next => cases hfound

theorem move_of_enter {invalidates : Option Nat} {pending : PendingFontCallback}
    (hdispatcher : callback.dispatchers = [.holding invalidates pending]) :
    Move callback (callback.enter 0 invalidates pending) := by
  unfold enter CallbackGate.tryEnter
  by_cases haccepting : callback.gate.accepting = true
  · have hentered := Move.entered hdispatcher haccepting
    simp only [if_pos haccepting, hdispatcher]
    exact hentered
  · have hrefused := Move.refused hdispatcher (Bool.eq_false_iff.mpr haccepting)
    simp only [if_neg haccepting, hdispatcher]
    exact hrefused

theorem move_of_step {action : FontStep}
    (hdispatching : Dispatching callback.queue callback.dispatchers)
    (hstep : step callback action = some next) : Move callback next := by
  cases action with
  | enqueue identifier font =>
    cases hstep
    exact move_of_enqueue hdispatching identifier font
  | publish =>
    cases hstep
    exact move_of_publish hdispatching
  | abort =>
    cases hstep
    exact .aborted
  | take index =>
    cases hfound : callback.dispatchers[index]? with
    | none => simp [step, hfound] at hstep
    | some dispatcher =>
      cases dispatcher with
      | draining =>
        simp only [step, hfound, Option.some.injEq] at hstep
        obtain ⟨rfl, honly⟩ := only_dispatcher hdispatching hfound
        exact hstep ▸ move_of_take honly
      | _ => simp [step, hfound] at hstep
  | enter index =>
    cases hfound : callback.dispatchers[index]? with
    | none => simp [step, hfound] at hstep
    | some dispatcher =>
      cases dispatcher with
      | holding =>
        simp only [step, hfound, Option.some.injEq] at hstep
        obtain ⟨rfl, honly⟩ := only_dispatcher hdispatching hfound
        exact hstep ▸ move_of_enter honly
      | _ => simp [step, hfound] at hstep
  | finish index =>
    cases hfound : callback.dispatchers[index]? with
    | none => simp [step, hfound] at hstep
    | some dispatcher =>
      cases dispatcher with
      | calling =>
        simp only [step, hfound, Option.some.injEq] at hstep
        obtain ⟨rfl, honly⟩ := only_dispatcher hdispatching hfound
        have hfinished := Move.finished honly
        rw [← hstep, finish, honly]
        exact hfinished
      | _ => simp [step, hfound] at hstep
  | closeGate =>
    cases hstep
    exact .closed

end Steps

/-- A notification pushed out was the oldest of 64, and those thrown away otherwise were so for a
reason that lasts. -/
def Evidence (callback : NativeFontCallback) : FontEvent → Prop
  | .overflowed oldest pending => pending.length = maxPendingFontCallbacks ∧
      pending.head? = some oldest ∧ oldest.sequence + 1 < callback.count
  | .aborted _ => callback.queue.aborted = true
  | .refused _ => callback.gate.accepting = false
  | .stopped => callback.queue.aborted = true ∧ callback.dispatchers = []
  | .started _ => callback.queue.published = true
  | .invalidated _ => True

def Silent (earlier later : FontEvent) : Prop := earlier = .stopped → later.started? = none

structure Sound (callback : NativeFontCallback) : Prop where
  dispatching : Dispatching callback.queue callback.dispatchers
  idle : callback.queue.published = true → callback.queue.dispatching = false →
    callback.queue.pending = []
  cleared : callback.queue.aborted = true → callback.queue.pending = []
  bounded : callback.queue.pending.length ≤ maxPendingFontCallbacks
  ordered : ((callback.started ++ callback.outstanding).map (·.sequence)).Pairwise (· < ·)
  conserved : ∀ sequence,
    (callback.settled ++ callback.outstanding.map (·.sequence)).count sequence =
      if sequence < callback.count then 1 else 0
  evidence : ∀ event ∈ callback.events, callback.Evidence event
  silent : callback.events.Pairwise Silent

theorem sound_new : new.Sound where
  dispatching := Or.inl ⟨rfl, rfl⟩
  idle h := absurd h Bool.false_ne_true
  cleared h := absurd h Bool.false_ne_true
  bounded := Nat.zero_le _
  ordered := .nil
  conserved _ := rfl
  evidence _ h := by cases h
  silent := .nil

theorem overflow_cases (queue : NativeCallbackQueue) :
    (overflow queue = [] ∧ queue.kept = queue.pending ∧
        queue.pending.length < maxPendingFontCallbacks) ∨
      ∃ oldest rest, queue.pending = oldest :: rest ∧ queue.kept = rest ∧
        overflow queue = [.overflowed oldest (oldest :: rest)] ∧
        maxPendingFontCallbacks ≤ queue.pending.length := by
  unfold overflow NativeCallbackQueue.kept
  by_cases hfull : maxPendingFontCallbacks ≤ queue.pending.length
  · have hoverflows : queue.overflows = true := decide_eq_true hfull
    cases hpending : queue.pending with
    | nil =>
      rw [hpending] at hfull
      cases hfull
    | cons oldest rest =>
      rw [hpending] at hfull
      exact Or.inr ⟨oldest, rest, rfl, if_pos hoverflows, if_pos hoverflows, hfull⟩
  · have hfits : ¬ queue.overflows = true := fun hover => hfull (of_decide_eq_true hover)
    refine Or.inl ⟨?_, if_neg hfits, Nat.lt_of_not_le hfull⟩
    cases queue.pending with
    | nil => rfl
    | cons => exact if_neg hfits

/-- How a step moves the notifications: `dropped` are settled without being passed on. -/
inductive Flow (callback next : NativeFontCallback) : Prop
  | discarded {before dropped after : List PendingFontCallback} :
      callback.outstanding = before ++ dropped ++ after → next.outstanding = before ++ after →
      next.started = callback.started →
      next.settled = callback.settled ++ dropped.map (·.sequence) → next.count = callback.count →
      Flow callback next
  | arrived {before dropped after : List PendingFontCallback} {pending : PendingFontCallback} :
      callback.outstanding = before ++ dropped ++ after →
      next.outstanding = before ++ after ++ [pending] → pending.sequence = callback.count →
      next.started = callback.started →
      next.settled = callback.settled ++ dropped.map (·.sequence) →
      next.count = callback.count + 1 → Flow callback next
  | ignored : next.outstanding = callback.outstanding → next.started = callback.started →
      next.settled = callback.settled ++ [callback.count] → next.count = callback.count + 1 →
      Flow callback next
  | passed {pending : PendingFontCallback} :
      callback.outstanding = pending :: next.outstanding →
      next.started = callback.started ++ [pending] →
      next.settled = callback.settled ++ [pending.sequence] → next.count = callback.count →
      Flow callback next

section Flow

variable {callback next : NativeFontCallback}

theorem Flow.still (houtstanding : next.outstanding = callback.outstanding)
    (hstarted : next.started = callback.started) (hsettled : next.settled = callback.settled)
    (hcount : next.count = callback.count) : Flow callback next :=
  @Flow.discarded _ _ callback.outstanding [] [] (by simp)
    (by simpa using houtstanding) hstarted (by simpa using hsettled) hcount

theorem returned_started (invalidates : Option Nat) :
    (invalidates.toList.map FontEvent.invalidated).filterMap FontEvent.started? = [] := by
  cases invalidates <;> rfl

theorem returned_settles (invalidates : Option Nat) :
    (invalidates.toList.map FontEvent.invalidated).filterMap FontEvent.settles = [] := by
  cases invalidates <;> rfl

theorem flow_arrived {pending : PendingFontCallback} {returned : List FontEvent}
    (hheld : next.held = callback.held)
    (hpending : next.queue.pending = callback.queue.kept ++ [pending])
    (hevents : next.events = callback.events ++ (overflow callback.queue ++ returned))
    (hreturned : returned.filterMap FontEvent.started? = [] ∧
      returned.filterMap FontEvent.settles = [])
    (hsequence : pending.sequence = callback.count) (hcount : next.count = callback.count + 1) :
    Flow callback next := by
  have hflow : ∀ dropped, (overflow callback.queue).filterMap FontEvent.started? = [] →
      (overflow callback.queue).filterMap FontEvent.settles = dropped.map (·.sequence) →
      callback.queue.pending = dropped ++ callback.queue.kept → Flow callback next := by
    intro dropped hstarted hsettles hkept
    refine @Flow.arrived _ _ callback.held dropped callback.queue.kept pending ?_ ?_ hsequence ?_ ?_ hcount
    · rw [outstanding, hkept, List.append_assoc]
    · rw [outstanding, hheld, hpending, List.append_assoc]
    · rw [started, hevents, List.filterMap_append, List.filterMap_append, hstarted, hreturned.1,
        List.append_nil, List.append_nil]
      rfl
    · rw [settled, hevents, List.filterMap_append, List.filterMap_append, hsettles, hreturned.2,
        List.append_nil]
      rfl
  obtain ⟨hnone, hkept, _⟩ | ⟨oldest, _, hold, hkept, hsome, _⟩ :=
    overflow_cases callback.queue
  · exact hflow [] (by rw [hnone]; rfl) (by rw [hnone]; rfl) hkept.symm
  · exact hflow [oldest] (by rw [hsome]; rfl) (by rw [hsome]; rfl) (by rw [hold, hkept]; rfl)

theorem flow_of_move (h : callback.Sound) (hmove : Move callback next) :
    Flow callback next := by
  cases hmove with
  | ignored =>
    refine .ignored rfl ?_ ?_ rfl
    · rw [started, List.filterMap_append, List.filterMap_cons_none rfl, returned_started,
        List.append_nil]
      rfl
    · rw [settled, List.filterMap_append, List.filterMap_cons_some (f := FontEvent.settles) rfl,
        returned_settles]
      rfl
  | queued =>
    exact flow_arrived rfl rfl rfl ⟨returned_started _, returned_settles _⟩ rfl rfl
  | woken _ _ _ _ hquiet =>
    refine @flow_arrived _ _ _ [] ?_ rfl ?_ ⟨rfl, rfl⟩ rfl rfl
    · rw [held, held, hquiet]
      rfl
    · rw [List.append_nil]
  | published | unheard | closed => exact .still rfl rfl rfl rfl
  | unfenced _ hquiet =>
    refine .still ?_ rfl rfl rfl
    rw [outstanding, outstanding, held, held, hquiet]
    rfl
  | aborted =>
    refine @Flow.discarded _ _ callback.held callback.queue.pending []
      (List.append_nil _).symm rfl ?_ ?_ rfl
    · rw [started, abort, List.filterMap_append, List.filterMap_map]
      simp [started, FontEvent.started?, Function.comp_def]
    · rw [settled, abort, List.filterMap_append, List.filterMap_map]
      simp [settled, FontEvent.settles, Function.comp_def]
  | taken hdispatcher _ hpending =>
    refine .still ?_ rfl rfl rfl
    rw [outstanding, outstanding, held, held, hdispatcher, hpending]
    rfl
  | stopped hdispatcher haborted =>
    refine .still ?_ ?_ ?_ rfl
    · rw [outstanding, outstanding, held, held, hdispatcher, h.cleared haborted]
      rfl
    · rw [started, List.filterMap_append, List.filterMap_cons_none rfl, returned_started,
        List.append_nil]
      rfl
    · rw [settled, List.filterMap_append, List.filterMap_cons_none rfl, returned_settles,
        List.append_nil]
      rfl
  | drained hdispatcher =>
    refine .still ?_ ?_ ?_ rfl
    · rw [outstanding, outstanding, held, held, hdispatcher]
      rfl
    · rw [started, List.filterMap_append, returned_started, List.append_nil]
      rfl
    · rw [settled, List.filterMap_append, returned_settles, List.append_nil]
      rfl
  | @entered _ pending hdispatcher =>
    refine @Flow.passed _ _ pending ?_ ?_ ?_ rfl
    · rw [outstanding, outstanding, held, held, hdispatcher]
      rfl
    · rw [started, List.filterMap_append]
      rfl
    · rw [settled, List.filterMap_append]
      rfl
  | @refused _ pending hdispatcher =>
    refine @Flow.discarded _ _ [] [pending] callback.queue.pending
      ?_ rfl ?_ ?_ rfl
    · rw [outstanding, held, hdispatcher]
      rfl
    · rw [started, List.filterMap_append]
      exact List.append_nil _
    · rw [settled, List.filterMap_append]
      rfl
  | finished hdispatcher =>
    refine .still ?_ rfl rfl rfl
    rw [outstanding, outstanding, held, held, hdispatcher]
    rfl

end Flow

namespace Sound

variable {callback next : NativeFontCallback}

theorem sequence_lt (h : callback.Sound) {sequence : Nat}
    (hmem : sequence ∈ callback.settled ++ callback.outstanding.map (·.sequence)) :
    sequence < callback.count := by
  by_contra hge
  have hcount := h.conserved sequence
  rw [if_neg hge] at hcount
  exact List.count_eq_zero.mp hcount hmem

theorem started_lt (h : callback.Sound) {pending : PendingFontCallback}
    (hmem : pending ∈ callback.started ++ callback.outstanding) :
    pending.sequence < callback.count := by
  refine h.sequence_lt ?_
  rcases List.mem_append.mp hmem with hstarted | hmem
  · obtain ⟨event, hevent, hstarted⟩ := List.mem_filterMap.mp hstarted
    refine List.mem_append_left _ (List.mem_filterMap.mpr ⟨event, hevent, ?_⟩)
    cases event with
    | started => exact congrArg (fun other => some other.sequence) (Option.some.inj hstarted)
    | _ => cases hstarted
  · exact List.mem_append_right _ (List.mem_map_of_mem hmem)

theorem dispatching_move (h : callback.Sound) (hmove : Move callback next) :
    Dispatching next.queue next.dispatchers := by
  cases hmove with
  | ignored | queued | unheard | aborted | closed =>
    exact h.dispatching
  | woken _ _ _ hpublished => exact Or.inr ⟨_, rfl, rfl, hpublished⟩
  | published =>
    rcases h.dispatching with hquiet | ⟨only, honly, hbusy, _⟩
    · exact Or.inl hquiet
    · exact Or.inr ⟨only, honly, hbusy, rfl⟩
  | unfenced => exact Or.inr ⟨_, rfl, rfl, rfl⟩
  | stopped | drained => exact Or.inl ⟨rfl, rfl⟩
  | taken hdispatcher | entered hdispatcher | refused hdispatcher | finished hdispatcher =>
    obtain ⟨hquiet, _⟩ | ⟨_, _, hbusy, hpublished⟩ := h.dispatching
    · exact absurd (hdispatcher.symm.trans hquiet) (List.cons_ne_nil _ _)
    · exact Or.inr ⟨_, rfl, hbusy, hpublished⟩

theorem idle_move (h : callback.Sound) (hmove : Move callback next) :
    next.queue.published = true → next.queue.dispatching = false → next.queue.pending = [] := by
  cases hmove with
  | queued _ _ _ hbusy =>
    intro hpublished hfree
    exact absurd ((hbusy hpublished).symm.trans hfree) Bool.noConfusion
  | woken | unfenced =>
    exact fun _ hfree => nomatch hfree
  | published _ hstays =>
    intro _ hfree
    rcases hstays with hbusy | hempty
    · exact absurd (hbusy.symm.trans hfree) Bool.noConfusion
    · exact hempty
  | aborted | stopped => exact fun _ _ => rfl
  | taken hdispatcher =>
    intro _ hfree
    obtain ⟨hquiet, _⟩ | ⟨_, _, hbusy, _⟩ := h.dispatching
    · exact absurd (hdispatcher.symm.trans hquiet) (List.cons_ne_nil _ _)
    · exact absurd (hbusy.symm.trans hfree) Bool.noConfusion
  | drained _ _ hempty => exact fun _ _ => hempty
  | _ => exact h.idle

theorem cleared_move (h : callback.Sound) (hmove : Move callback next) :
    next.queue.aborted = true → next.queue.pending = [] := by
  cases hmove with
  | queued _ _ halive | woken _ _ halive | taken _ halive =>
    exact fun haborted => absurd (haborted.symm.trans halive) Bool.noConfusion
  | aborted | stopped => exact fun _ => rfl
  | _ => exact h.cleared

theorem bounded_kept (h : callback.Sound) (pending : PendingFontCallback) :
    (callback.queue.kept ++ [pending]).length ≤ maxPendingFontCallbacks := by
  rw [List.length_append, List.length_singleton]
  obtain ⟨_, hkept, hlength⟩ | ⟨_, _, hpending, hkept, _, _⟩ :=
    overflow_cases callback.queue
  · rw [hkept]
    exact hlength
  · have hbounded := h.bounded
    rw [hpending, List.length_cons] at hbounded
    rw [hkept]
    exact hbounded

theorem bounded_move (h : callback.Sound) (hmove : Move callback next) :
    next.queue.pending.length ≤ maxPendingFontCallbacks := by
  cases hmove with
  | queued | woken =>
    exact h.bounded_kept _
  | aborted | stopped => exact Nat.zero_le _
  | taken _ _ hpending =>
    have hbounded := h.bounded
    rw [hpending, List.length_cons] at hbounded
    exact Nat.le_of_succ_le hbounded
  | _ => exact h.bounded

theorem ordered_move (h : callback.Sound) (hmove : Move callback next) :
    ((next.started ++ next.outstanding).map (·.sequence)).Pairwise (· < ·) := by
  have hordered := h.ordered
  cases flow_of_move h hmove with
  | @discarded before dropped after hbefore hafter hstarted =>
    rw [hstarted, hafter]
    rw [hbefore] at hordered
    refine hordered.sublist (List.Sublist.map _ ((List.Sublist.refl _).append ?_))
    exact (List.sublist_append_left before dropped).append (List.Sublist.refl after)
  | @arrived before dropped after _ hbefore hafter hsequence hstarted =>
    rw [hstarted, hafter, ← List.append_assoc, List.map_append]
    have hsublist : (callback.started ++ (before ++ after)).Sublist
        (callback.started ++ callback.outstanding) := by
      rw [hbefore]
      exact (List.Sublist.refl _).append
        ((List.sublist_append_left before dropped).append (List.Sublist.refl after))
    refine List.pairwise_append.mpr ⟨hordered.sublist (hsublist.map _), List.pairwise_singleton _ _,
      fun old hold new hnew => ?_⟩
    obtain ⟨_, hmem, rfl⟩ := List.mem_map.mp hold
    rw [List.map_singleton, List.mem_singleton, hsequence] at hnew
    rw [hnew]
    exact h.started_lt (hsublist.mem hmem)
  | ignored hafter hstarted =>
    rw [hstarted, hafter]
    exact hordered
  | passed hbefore hstarted =>
    rw [hstarted, List.append_assoc, List.singleton_append, ← hbefore]
    exact hordered

theorem conserved_move (h : callback.Sound) (hmove : Move callback next) : ∀ sequence,
    (next.settled ++ next.outstanding.map (·.sequence)).count sequence =
      if sequence < next.count then 1 else 0 := by
  intro sequence
  have hconserved := h.conserved sequence
  cases flow_of_move h hmove with
  | discarded hbefore hafter _ hsettled hcount =>
    rw [hsettled, hafter, hcount]
    rw [hbefore] at hconserved
    simp only [List.map_append, List.count_append] at hconserved ⊢
    omega
  | arrived hbefore hafter hsequence _ hsettled hcount =>
    rw [hsettled, hafter, hcount]
    rw [hbefore] at hconserved
    simp only [List.map_append, List.count_append, List.map_singleton, List.count_singleton,
      hsequence, beq_iff_eq] at hconserved ⊢
    split at hconserved <;> split <;> split <;> omega
  | ignored hafter _ hsettled hcount =>
    rw [hsettled, hafter, hcount]
    simp only [List.count_append, List.count_singleton, beq_iff_eq] at hconserved ⊢
    split at hconserved <;> split <;> split <;> omega
  | passed hbefore _ hsettled hcount =>
    rw [hsettled, hcount]
    rw [hbefore] at hconserved
    simp only [List.count_append, List.map_cons, List.count_cons, List.count_nil] at hconserved ⊢
    omega

theorem evidence_step {added : List FontEvent} (h : callback.Sound)
    (hevents : next.events = callback.events ++ added) (hadded : ∀ event ∈ added, next.Evidence event)
    (hcount : callback.count ≤ next.count)
    (haborted : callback.queue.aborted = true → next.queue.aborted = true)
    (hpublished : callback.queue.published = true → next.queue.published = true)
    (hgate : callback.gate.accepting = false → next.gate.accepting = false)
    (hstopped : callback.queue.aborted = true → callback.dispatchers = [] → next.dispatchers = []) :
    ∀ event ∈ next.events, next.Evidence event := by
  intro event hevent
  rw [hevents] at hevent
  rcases List.mem_append.mp hevent with hold | hnew
  · have hbefore := h.evidence event hold
    cases event with
    | started => exact hpublished hbefore
    | overflowed =>
      exact ⟨hbefore.1, hbefore.2.1, Nat.lt_of_lt_of_le hbefore.2.2 hcount⟩
    | aborted => exact haborted hbefore
    | refused => exact hgate hbefore
    | invalidated => trivial
    | stopped => exact ⟨haborted hbefore.1, hstopped hbefore.1 hbefore.2⟩
  · exact hadded event hnew

theorem evidence_still (h : callback.Sound) (hevents : next.events = callback.events)
    (hcount : callback.count ≤ next.count)
    (haborted : callback.queue.aborted = true → next.queue.aborted = true)
    (hpublished : callback.queue.published = true → next.queue.published = true)
    (hgate : callback.gate.accepting = false → next.gate.accepting = false)
    (hstopped : callback.queue.aborted = true → callback.dispatchers = [] → next.dispatchers = []) :
    ∀ event ∈ next.events, next.Evidence event :=
  h.evidence_step (hevents.trans (List.append_nil _).symm) (fun _ hmem => nomatch hmem) hcount
    haborted hpublished hgate hstopped

theorem evidence_returned (invalidates : Option Nat) :
    ∀ event ∈ invalidates.toList.map FontEvent.invalidated, next.Evidence event := by
  intro event hevent
  obtain ⟨_, _, rfl⟩ := List.mem_map.mp hevent
  trivial

theorem evidence_overflow (h : callback.Sound) (hcount : next.count = callback.count + 1) :
    ∀ event ∈ overflow callback.queue, next.Evidence event := by
  intro event hevent
  obtain ⟨hnone, _⟩ | ⟨_, _, hpending, _, hsome, hfull⟩ := overflow_cases callback.queue
  · rw [hnone] at hevent
    cases hevent
  · rw [hsome, List.mem_singleton] at hevent
    subst hevent
    have hbounded := h.bounded
    rw [hpending] at hfull hbounded
    refine ⟨Nat.le_antisymm hbounded hfull, rfl, ?_⟩
    rw [hcount]
    refine Nat.succ_lt_succ (h.started_lt (List.mem_append_right _ ?_))
    rw [outstanding, hpending]
    exact List.mem_append_right _ List.mem_cons_self

theorem evidence_move (h : callback.Sound) (hmove : Move callback next) :
    ∀ event ∈ next.events, next.Evidence event := by
  cases hmove with
  | ignored _ haborted =>
    refine h.evidence_step rfl (fun event hevent => ?_) (Nat.le_succ _) id id id fun _ => id
    rcases List.mem_cons.mp hevent with rfl | hevent
    · exact haborted
    · exact evidence_returned _ event hevent
  | queued =>
    refine h.evidence_step rfl (fun event hevent => ?_) (Nat.le_succ _) id id id fun _ => id
    rcases List.mem_append.mp hevent with hevent | hevent
    · exact h.evidence_overflow rfl event hevent
    · exact evidence_returned _ event hevent
  | woken _ _ halive =>
    refine h.evidence_step rfl (h.evidence_overflow rfl) (Nat.le_succ _) id id id fun haborted => ?_
    exact absurd (haborted.symm.trans halive) Bool.noConfusion
  | published =>
    exact h.evidence_still rfl (Nat.le_refl _) id (fun _ => rfl) id fun _ => id
  | unfenced halive =>
    refine h.evidence_still rfl (Nat.le_refl _) id (fun _ => rfl) id fun haborted => ?_
    exact absurd (haborted.symm.trans halive) Bool.noConfusion
  | unheard => exact h.evidence
  | aborted =>
    refine h.evidence_step rfl (fun event hevent => ?_) (Nat.le_refl _) (fun _ => rfl) id id
      fun _ => id
    obtain ⟨_, _, rfl⟩ := List.mem_map.mp hevent
    exact rfl
  | taken _ halive =>
    refine h.evidence_still rfl (Nat.le_refl _) id id id fun haborted => ?_
    exact absurd (haborted.symm.trans halive) Bool.noConfusion
  | stopped _ haborted =>
    refine h.evidence_step rfl (fun event hevent => ?_) (Nat.le_refl _) id id id fun _ _ => rfl
    rcases List.mem_cons.mp hevent with rfl | hevent
    · exact ⟨haborted, rfl⟩
    · exact evidence_returned _ event hevent
  | drained =>
    exact h.evidence_step rfl (evidence_returned _) (Nat.le_refl _) id id id fun _ _ => rfl
  | entered hdispatcher =>
    obtain ⟨hquiet, _⟩ | ⟨_, _, _, hpublished⟩ := h.dispatching
    · exact absurd (hdispatcher.symm.trans hquiet) (List.cons_ne_nil _ _)
    · refine h.evidence_step rfl (fun event hevent => ?_) (Nat.le_refl _) id id id
        fun _ hnone => absurd (hdispatcher.symm.trans hnone) (List.cons_ne_nil _ _)
      rw [List.mem_singleton.mp hevent]
      exact hpublished
  | refused hdispatcher hrefuses =>
    refine h.evidence_step rfl (fun event hevent => ?_) (Nat.le_refl _) id id id
      fun _ hnone => absurd (hdispatcher.symm.trans hnone) (List.cons_ne_nil _ _)
    rw [List.mem_singleton.mp hevent]
    exact hrefuses
  | finished hdispatcher =>
    exact h.evidence_still rfl (Nat.le_refl _) id id id
      fun _ hnone => absurd (hdispatcher.symm.trans hnone) (List.cons_ne_nil _ _)
  | closed => exact h.evidence_still rfl (Nat.le_refl _) id id (fun _ => rfl) fun _ => id

theorem silent_step {added : List FontEvent} (h : callback.Sound)
    (hadded : ∀ event ∈ added, event.started? = none) :
    (callback.events ++ added).Pairwise Silent := by
  refine List.pairwise_append.mpr ⟨h.silent, ?_, fun _ _ later hlater _ => hadded later hlater⟩
  exact List.pairwise_of_forall_mem_list fun _ _ later hlater _ => hadded later hlater

theorem quiet_returned (invalidates : Option Nat) :
    ∀ event ∈ invalidates.toList.map FontEvent.invalidated, event.started? = none := by
  intro event hevent
  obtain ⟨_, _, rfl⟩ := List.mem_map.mp hevent
  rfl

theorem quiet_overflow (queue : NativeCallbackQueue) :
    ∀ event ∈ overflow queue, event.started? = none := by
  intro event hevent
  obtain ⟨hnone, _⟩ | ⟨_, _, _, _, hsome, _⟩ := overflow_cases queue
  · rw [hnone] at hevent
    cases hevent
  · rw [hsome, List.mem_singleton] at hevent
    rw [hevent]
    rfl

theorem silent_move (h : callback.Sound) (hmove : Move callback next) :
    next.events.Pairwise Silent := by
  cases hmove with
  | ignored | stopped =>
    refine h.silent_step fun event hevent => ?_
    rcases List.mem_cons.mp hevent with rfl | hevent
    · rfl
    · exact quiet_returned _ event hevent
  | queued =>
    refine h.silent_step fun event hevent => ?_
    rcases List.mem_append.mp hevent with hevent | hevent
    · exact quiet_overflow _ event hevent
    · exact quiet_returned _ event hevent
  | woken => exact h.silent_step (quiet_overflow _)
  | aborted =>
    refine h.silent_step fun event hevent => ?_
    obtain ⟨_, _, rfl⟩ := List.mem_map.mp hevent
    rfl
  | drained => exact h.silent_step (quiet_returned _)
  | entered hdispatcher =>
    refine List.pairwise_append.mpr ⟨h.silent, List.pairwise_singleton _ _, ?_⟩
    intro earlier hearlier later hlater hstopped
    have hnone := (h.evidence earlier hearlier)
    rw [hstopped] at hnone
    exact absurd (hdispatcher.symm.trans hnone.2) (List.cons_ne_nil _ _)
  | refused =>
    refine h.silent_step fun event hevent => ?_
    rw [List.mem_singleton.mp hevent]
    rfl
  | _ => exact h.silent

theorem move (h : callback.Sound) (hmove : Move callback next) : next.Sound where
  dispatching := h.dispatching_move hmove
  idle := h.idle_move hmove
  cleared := h.cleared_move hmove
  bounded := h.bounded_move hmove
  ordered := h.ordered_move hmove
  conserved := h.conserved_move hmove
  evidence := h.evidence_move hmove
  silent := h.silent_move hmove

theorem step (h : callback.Sound) {action : FontStep}
    (hstep : NativeFontCallback.step callback action = some next) : next.Sound :=
  h.move (move_of_step h.dispatching hstep)

end Sound

end NativeFontCallback

end Nexus.FontNotifications
