import Nexus.FontDispatches

namespace Nexus.FontNotifications

open StepRuns

namespace NativeFontCallback

/-- A null notification that has been enqueued, whether or not the call has returned. -/
def Issued (callback : NativeFontCallback) (sequence : Nat) : Prop :=
  .invalidated sequence ∈ callback.events ∨
    ∃ dispatcher ∈ callback.dispatchers, dispatcher.invalidates = some sequence

/-- After a null notification has returned, no older font is passed on. -/
def NotStale (earlier later : FontEvent) : Prop :=
  ∀ sequence pending, earlier = .invalidated sequence → later = .started pending →
    pending.sequence < sequence → pending.font = 0

/-- Whenever a null notification is enqueued, the gate is closed or no font waits to be passed on. -/
def ClearForNull (callback : NativeFontCallback) : FontStep → Prop
  | .enqueue _ none => callback.gate.accepting = true →
      ∀ pending ∈ callback.held ++ callback.queue.kept, pending.font = 0
  | _ => True

instance (callback : NativeFontCallback) : ∀ action, Decidable (callback.ClearForNull action)
  | .enqueue _ none => inferInstanceAs (Decidable (_ → _))
  | .enqueue _ (some _) => isTrue trivial
  | .publish => isTrue trivial
  | .abort => isTrue trivial
  | .take _ => isTrue trivial
  | .enter _ => isTrue trivial
  | .finish _ => isTrue trivial
  | .closeGate => isTrue trivial

structure Fresh (callback : NativeFontCallback) : Prop where
  fresh : callback.gate.accepting = true → ∀ sequence, callback.Issued sequence →
    ∀ pending ∈ callback.outstanding, pending.sequence < sequence → pending.font = 0
  issued_lt : ∀ sequence, callback.Issued sequence → sequence < callback.count
  never : callback.events.Pairwise NotStale

theorem fresh_new : new.Fresh where
  fresh _ _ _ _ h := nomatch h
  issued_lt _ h := by
    rcases h with h | ⟨_, h, _⟩
    · cases h
    · cases h
  never := .nil

namespace Fresh

variable {callback next : NativeFontCallback} {added : List FontEvent}

theorem never_step (h : callback.Fresh) (hadded : ∀ event ∈ added, event.started? = none) :
    (callback.events ++ added).Pairwise NotStale := by
  have hquiet : ∀ earlier, ∀ later ∈ added, NotStale earlier later := by
    intro earlier later hlater sequence pending _ hstarted
    have hnone := hadded later hlater
    rw [hstarted] at hnone
    cases hnone
  refine List.pairwise_append.mpr ⟨h.never, ?_, fun earlier _ later hlater => hquiet earlier later hlater⟩
  exact List.pairwise_of_forall_mem_list fun earlier _ later hlater => hquiet earlier later hlater

theorem still (h : callback.Fresh) (hevents : next.events = callback.events ++ added)
    (hadded : ∀ event ∈ added, event.started? = none)
    (hgate : next.gate.accepting = true → callback.gate.accepting = true)
    (houtstanding : ∀ pending ∈ next.outstanding, pending ∈ callback.outstanding)
    (hissued : ∀ sequence, next.Issued sequence → callback.Issued sequence)
    (hcount : next.count = callback.count) : next.Fresh where
  fresh hopen sequence hsequence pending hpending :=
    h.fresh (hgate hopen) sequence (hissued sequence hsequence) pending
      (houtstanding pending hpending)
  issued_lt sequence hsequence := hcount ▸ h.issued_lt sequence (hissued sequence hsequence)
  never := hevents ▸ h.never_step hadded

variable {sequence : Nat}

theorem issued_append (h : .invalidated sequence ∈ callback.events ++ added) :
    callback.Issued sequence ∨ .invalidated sequence ∈ added :=
  (List.mem_append.mp h).imp_left Or.inl

theorem mem_returned {invalidates : Option Nat}
    (h : FontEvent.invalidated sequence ∈ invalidates.toList.map FontEvent.invalidated) :
    invalidates = some sequence := by
  obtain ⟨_, hother, heq⟩ := List.mem_map.mp h
  cases heq
  exact Option.mem_toList.mp hother

theorem not_mem_overflow {queue : NativeCallbackQueue} :
    FontEvent.invalidated sequence ∉ overflow queue := by
  intro hmem
  obtain ⟨hnone, _⟩ | ⟨_, _, _, _, hsome, _⟩ := overflow_cases queue
  · rw [hnone] at hmem
    cases hmem
  · rw [hsome, List.mem_singleton] at hmem
    cases hmem

theorem enqueued (h : callback.Fresh) {font : Option FontHandle}
    (hclear : font = none → callback.gate.accepting = true →
      ∀ pending ∈ callback.held ++ callback.queue.kept, pending.font = 0)
    (hevents : next.events = callback.events ++ added)
    (hadded : ∀ event ∈ added, event.started? = none)
    (hgate : next.gate.accepting = true → callback.gate.accepting = true)
    (houtstanding : ∀ pending ∈ next.outstanding, pending.sequence = callback.count ∨
      pending ∈ callback.outstanding ∧ pending ∈ callback.held ++ callback.queue.kept)
    (hissued : ∀ sequence, next.Issued sequence →
      callback.Issued sequence ∨ callback.nullOf font = some sequence)
    (hcount : next.count = callback.count + 1) : next.Fresh where
  fresh hopen sequence hsequence pending hpending hlt := by
    rcases hissued sequence hsequence with hold | hnew
    · rcases houtstanding pending hpending with hlast | ⟨hwaited, _⟩
      · have hbound := h.issued_lt sequence hold
        omega
      · exact h.fresh (hgate hopen) sequence hold pending hwaited hlt
    · unfold nullOf at hnew
      split at hnew
      next hnull =>
        cases hnew
        rcases houtstanding pending hpending with hlast | ⟨_, hkept⟩
        · omega
        · exact hclear (Option.isNone_iff_eq_none.mp hnull) (hgate hopen) pending hkept
      next => cases hnew
  issued_lt sequence hsequence := by
    rw [hcount]
    rcases hissued sequence hsequence with hold | hnew
    · exact Nat.lt_succ_of_lt (h.issued_lt sequence hold)
    · unfold nullOf at hnew
      split at hnew
      next => exact Option.some.inj hnew ▸ Nat.lt_succ_self _
      next => cases hnew
  never := hevents ▸ h.never_step hadded

theorem kept_sublist (queue : NativeCallbackQueue) : queue.kept.Sublist queue.pending := by
  unfold NativeCallbackQueue.kept
  split
  next => exact List.tail_sublist _
  next => exact List.Sublist.refl _

theorem enqueue (h : callback.Fresh) (hsound : callback.Sound) (identifier : String)
    (font : Option FontHandle)
    (hclear : font = none → callback.gate.accepting = true →
      ∀ pending ∈ callback.held ++ callback.queue.kept, pending.font = 0) :
    (callback.enqueue identifier font).Fresh := by
  have hwaiting : ∀ pending ∈ callback.held ++ callback.queue.kept,
      pending ∈ callback.outstanding := fun pending hpending =>
    ((List.Sublist.refl _).append (kept_sublist callback.queue)).mem hpending
  rcases enqueue_cases hsound.dispatching identifier font with ⟨haborted, henqueue⟩ |
    ⟨halive, _, henqueue⟩ | ⟨halive, _, _, henqueue⟩
  · rw [henqueue]
    refine h.enqueued hclear rfl (fun event hevent => ?_) id (fun pending hpending => ?_)
      (fun sequence hsequence => ?_) rfl
    · rcases List.mem_cons.mp hevent with rfl | hevent
      · rfl
      · exact Sound.quiet_returned _ event hevent
    · have hkept : callback.queue.kept = callback.queue.pending := by
        have hempty := hsound.cleared haborted
        unfold NativeCallbackQueue.kept
        split <;> simp [hempty]
      refine Or.inr ⟨hpending, ?_⟩
      rw [hkept]
      exact hpending
    · rcases hsequence with hevent | hdispatcher
      · rcases issued_append hevent with hold | hnew
        · exact Or.inl hold
        · rcases List.mem_cons.mp hnew with hnew | hnew
          · cases hnew
          · exact Or.inr (mem_returned hnew)
      · exact Or.inl (Or.inr hdispatcher)
  · rw [henqueue]
    refine h.enqueued hclear rfl (fun event hevent => ?_) id (fun pending hpending => ?_)
      (fun sequence hsequence => ?_) rfl
    · rcases List.mem_append.mp hevent with hevent | hevent
      · exact Sound.quiet_overflow _ event hevent
      · exact Sound.quiet_returned _ event hevent
    · rw [outstanding, ← List.append_assoc] at hpending
      rcases List.mem_append.mp hpending with hpending | hpending
      · exact Or.inr ⟨hwaiting pending hpending, hpending⟩
      · rw [List.mem_singleton.mp hpending]
        exact Or.inl rfl
    · rcases hsequence with hevent | hdispatcher
      · rcases issued_append hevent with hold | hnew
        · exact Or.inl hold
        · rcases List.mem_append.mp hnew with hnew | hnew
          · exact absurd hnew not_mem_overflow
          · exact Or.inr (mem_returned hnew)
      · exact Or.inl (Or.inr hdispatcher)
  · rw [henqueue]
    refine h.enqueued hclear rfl (Sound.quiet_overflow _) id (fun pending hpending => ?_)
      (fun sequence hsequence => ?_) rfl
    · rcases List.mem_append.mp hpending with hpending | hpending
      · cases hpending
      · rcases List.mem_append.mp hpending with hpending | hpending
        · have hkept : pending ∈ callback.held ++ callback.queue.kept :=
            List.mem_append_right _ hpending
          exact Or.inr ⟨hwaiting pending hkept, hkept⟩
        · rw [List.mem_singleton.mp hpending]
          exact Or.inl rfl
    · rcases hsequence with hevent | ⟨_, hmem, hinvalidates⟩
      · rcases issued_append hevent with hold | hnew
        · exact Or.inl hold
        · exact absurd hnew not_mem_overflow
      · rw [List.mem_singleton.mp hmem] at hinvalidates
        exact Or.inr hinvalidates

theorem issued_dispatcher {dispatcher : Dispatcher}
    (hdispatchers : callback.dispatchers = [dispatcher])
    (h : dispatcher.invalidates = some sequence) : callback.Issued sequence :=
  Or.inr ⟨dispatcher, hdispatchers ▸ List.mem_singleton_self _, h⟩

theorem move (h : callback.Fresh) (hmove : Move callback next)
    (hcount : next.count = callback.count) : next.Fresh := by
  have hnone : ∀ event ∈ ([] : List FontEvent), event.started? = none := fun _ hmem => by
    cases hmem
  cases hmove with
  | ignored | queued | woken => exact absurd hcount (Nat.succ_ne_self _)
  | published =>
    exact h.still (List.append_nil _).symm hnone id (fun _ => id) (fun _ => id) rfl
  | unfenced =>
    refine h.still (List.append_nil _).symm hnone id (fun pending hpending => ?_)
      (fun sequence hsequence => ?_) rfl
    · exact List.mem_append_right _ hpending
    · rcases hsequence with hevent | ⟨dispatcher, hmem, hinvalidates⟩
      · exact Or.inl hevent
      · rw [List.mem_singleton.mp hmem] at hinvalidates
        cases hinvalidates
  | unheard => exact h
  | aborted =>
    refine h.still rfl (fun event hevent => ?_) id (fun pending hpending => ?_)
      (fun sequence hsequence => ?_) rfl
    · obtain ⟨pending, _, rfl⟩ := List.mem_map.mp hevent
      rfl
    · rcases List.mem_append.mp hpending with hpending | hpending
      · exact List.mem_append_left _ hpending
      · cases hpending
    · rcases hsequence with hevent | hdispatcher
      · rcases issued_append hevent with hold | hnew
        · exact hold
        · obtain ⟨pending, _, heq⟩ := List.mem_map.mp hnew
          cases heq
      · exact Or.inr hdispatcher
  | @taken _ _ _ hdispatcher _ hpending =>
    refine h.still (List.append_nil _).symm hnone id (fun other hother => ?_)
      (fun sequence hsequence => ?_) rfl
    · rw [outstanding, held, hdispatcher, hpending]
      exact hother
    · rcases hsequence with hevent | ⟨dispatcher, hmem, hinvalidates⟩
      · exact Or.inl hevent
      · rw [List.mem_singleton.mp hmem] at hinvalidates
        exact issued_dispatcher hdispatcher hinvalidates
  | stopped hdispatcher =>
    refine h.still rfl (fun event hevent => ?_) id (fun _ hother => by cases hother)
      (fun sequence hsequence => ?_) rfl
    · rcases List.mem_cons.mp hevent with rfl | hevent
      · rfl
      · exact Sound.quiet_returned _ event hevent
    · rcases hsequence with hevent | ⟨_, hmem, _⟩
      · rcases issued_append hevent with hold | hnew
        · exact hold
        · rcases List.mem_cons.mp hnew with hnew | hnew
          · cases hnew
          · exact issued_dispatcher hdispatcher (mem_returned hnew)
      · cases hmem
  | drained hdispatcher =>
    refine h.still rfl (Sound.quiet_returned _) id (fun pending hpending => ?_)
      (fun sequence hsequence => ?_) rfl
    · rcases List.mem_append.mp hpending with hpending | hpending
      · cases hpending
      · exact List.mem_append_right _ hpending
    · rcases hsequence with hevent | ⟨_, hmem, _⟩
      · rcases issued_append hevent with hold | hnew
        · exact hold
        · exact issued_dispatcher hdispatcher (mem_returned hnew)
      · cases hmem
  | @entered invalidates pending hdispatcher haccepting =>
    have hissued : ∀ sequence, NativeFontCallback.Issued { callback with
        gate := { callback.gate with inFlight := callback.gate.inFlight + 1 }
        dispatchers := [.calling invalidates pending]
        events := callback.events ++ [.started pending] } sequence →
        callback.Issued sequence := by
      rintro sequence (hevent | ⟨dispatcher, hmem, hinvalidates⟩)
      · rcases issued_append hevent with hold | hnew
        · exact hold
        · cases List.mem_singleton.mp hnew
      · rw [List.mem_singleton.mp hmem] at hinvalidates
        exact issued_dispatcher hdispatcher hinvalidates
    refine ⟨fun hopen sequence hsequence other hother hlt => ?_,
      fun sequence hsequence => h.issued_lt sequence (hissued sequence hsequence), ?_⟩
    · refine h.fresh hopen sequence (hissued sequence hsequence) other ?_ hlt
      rcases List.mem_append.mp hother with hother | hother
      · cases hother
      · exact List.mem_append_right _ hother
    · refine List.pairwise_append.mpr ⟨h.never, List.pairwise_singleton _ _, ?_⟩
      intro earlier hearlier later hlater sequence other hinvalidated hstarted hlt
      rw [List.mem_singleton.mp hlater] at hstarted
      cases hstarted
      rw [hinvalidated] at hearlier
      refine h.fresh haccepting sequence (Or.inl hearlier) pending ?_ hlt
      rw [outstanding, held, hdispatcher]
      exact List.mem_cons_self
  | @refused _ _ hdispatcher =>
    refine h.still rfl (fun event hevent => ?_) id (fun other hother => ?_)
      (fun sequence hsequence => ?_) rfl
    · rw [List.mem_singleton.mp hevent]
      rfl
    · rcases List.mem_append.mp hother with hother | hother
      · cases hother
      · exact List.mem_append_right _ hother
    · rcases hsequence with hevent | ⟨dispatcher, hmem, hinvalidates⟩
      · rcases issued_append hevent with hold | hnew
        · exact hold
        · cases List.mem_singleton.mp hnew
      · rw [List.mem_singleton.mp hmem] at hinvalidates
        exact issued_dispatcher hdispatcher hinvalidates
  | finished hdispatcher =>
    refine h.still (List.append_nil _).symm hnone id (fun other hother => ?_)
      (fun sequence hsequence => ?_) rfl
    · rcases List.mem_append.mp hother with hother | hother
      · cases hother
      · exact List.mem_append_right _ hother
    · rcases hsequence with hevent | ⟨dispatcher, hmem, hinvalidates⟩
      · exact Or.inl hevent
      · rw [List.mem_singleton.mp hmem] at hinvalidates
        exact issued_dispatcher hdispatcher hinvalidates
  | closed =>
    exact h.still (List.append_nil _).symm hnone (fun hopen => by cases hopen) (fun _ => id)
      (fun _ => id) rfl

theorem step (h : callback.Fresh) (hsound : callback.Sound) {action : FontStep}
    (hclear : callback.ClearForNull action)
    (hstep : NativeFontCallback.step callback action = some next) : next.Fresh := by
  have hmove := move_of_step hsound.dispatching hstep
  cases action with
  | enqueue identifier font =>
    cases hstep
    refine h.enqueue hsound identifier font fun hnull => ?_
    subst hnull
    exact hclear
  | publish | abort | closeGate =>
    refine h.move hmove ?_
    cases hstep
    rfl
  | take =>
    refine h.move hmove ?_
    unfold NativeFontCallback.step at hstep
    dsimp only at hstep
    split at hstep
    next =>
      cases hstep
      unfold take
      split <;> rfl
    next => cases hstep
  | enter =>
    refine h.move hmove ?_
    unfold NativeFontCallback.step at hstep
    dsimp only at hstep
    split at hstep
    next =>
      cases hstep
      unfold enter
      split <;> rfl
    next => cases hstep
  | finish =>
    refine h.move hmove ?_
    unfold NativeFontCallback.step at hstep
    dsimp only at hstep
    split at hstep
    next =>
      cases hstep
      rfl
    next => cases hstep

end Fresh

def work (callback : NativeFontCallback) : Nat :=
  3 * callback.queue.pending.length + match callback.dispatchers with
    | .draining _ :: _ => 1
    | .calling _ _ :: _ => 2
    | .holding _ _ :: _ => 3
    | [] => 0

/-- Everybody has stopped, and the newest notification was the last one passed on. -/
structure Quiet (callback : NativeFontCallback) : Prop where
  dispatchers : callback.dispatchers = []
  latest : 0 < callback.count →
    ∃ pending, callback.started.getLast? = some pending ∧ pending.sequence + 1 = callback.count

/-- A published callback that is neither aborted nor behind a closed gate. -/
structure Live (callback : NativeFontCallback) : Prop where
  published : callback.queue.published = true
  alive : callback.queue.aborted = false
  accepting : callback.gate.accepting = true

namespace Sound

variable {callback next : NativeFontCallback}

theorem mem_started (h : callback.Sound) (hlive : callback.Live) (hquiet : callback.dispatchers = [])
    (hpos : 0 < callback.count) :
    ∃ pending ∈ callback.started, pending.sequence + 1 = callback.count := by
  have hempty : callback.outstanding = [] := by
    rcases h.dispatching with ⟨_, hfree⟩ | ⟨_, hbusy, _⟩
    · rw [outstanding, held, hquiet, h.idle hlive.published hfree]
      rfl
    · rw [hquiet] at hbusy
      cases hbusy
  have hcount := h.conserved (callback.count - 1)
  rw [hempty, List.map_nil, List.append_nil, if_pos (by omega)] at hcount
  have hsettled : callback.count - 1 ∈ callback.settled :=
    List.count_pos_iff.mp (by omega)
  obtain ⟨event, hevent, hsettles⟩ := List.mem_filterMap.mp hsettled
  have hevidence := h.evidence event hevent
  cases event with
  | started pending =>
    refine ⟨pending, List.mem_filterMap.mpr ⟨_, hevent, rfl⟩, ?_⟩
    have heq : pending.sequence = callback.count - 1 := Option.some.inj hsettles
    omega
  | overflowed oldest =>
    have heq : oldest.sequence = callback.count - 1 := Option.some.inj hsettles
    have hlt := hevidence.2.2
    omega
  | aborted => exact absurd (hevidence.symm.trans hlive.alive) Bool.noConfusion
  | refused => exact absurd (hlive.accepting.symm.trans hevidence) Bool.noConfusion
  | invalidated | stopped => cases hsettles

theorem quiet (h : callback.Sound) (hlive : callback.Live) (hquiet : callback.dispatchers = []) :
    callback.Quiet := by
  refine ⟨hquiet, fun hpos => ?_⟩
  obtain ⟨_, hmem, hlast⟩ := h.mem_started hlive hquiet hpos
  cases hstarted : callback.started.getLast? with
  | none =>
    rw [List.getLast?_eq_none_iff.mp hstarted] at hmem
    cases hmem
  | some found =>
    refine ⟨found, rfl, ?_⟩
    obtain ⟨_, hfront⟩ := List.getLast?_eq_some_iff.mp hstarted
    have hordered := h.ordered
    rw [hfront] at hmem hordered
    rw [List.append_assoc, List.map_append] at hordered
    rcases List.mem_append.mp hmem with hmem | hmem
    · have hlt := (List.pairwise_append.mp hordered).2.2 _ (List.mem_map_of_mem hmem)
        found.sequence (List.mem_map_of_mem (List.mem_append_left _ (List.mem_singleton_self _)))
      have hbound := @Sound.started_lt _ h found (by rw [hfront]; simp)
      omega
    · rw [← List.mem_singleton.mp hmem]
      exact hlast

theorem drains (h : callback.Sound) (hlive : callback.Live) (hbusy : callback.dispatchers ≠ []) :
    ∃ action next, action.drains = true ∧ NativeFontCallback.step callback action = some next ∧
      next.Live ∧ next.count = callback.count ∧ next.work < callback.work := by
  rcases h.dispatching with ⟨hquiet, _⟩ | ⟨dispatcher, hdispatcher, _⟩
  · exact absurd hquiet hbusy
  · cases dispatcher with
    | draining invalidates =>
      cases hpending : callback.queue.pending with
      | nil =>
        have hstep : NativeFontCallback.step callback (.take 0) = some { callback with
            queue := { callback.queue with dispatching := false }
            dispatchers := []
            events := callback.events ++ invalidates.toList.map .invalidated } := by
          simp [NativeFontCallback.step, hdispatcher, take, NativeCallbackQueue.take, hlive.alive,
            hpending]
        refine ⟨_, _, rfl, hstep, ⟨hlive.published, hlive.alive, hlive.accepting⟩, rfl, ?_⟩
        simp [work, hdispatcher]
      | cons pending rest =>
        have hstep : NativeFontCallback.step callback (.take 0) = some { callback with
            queue := { callback.queue with pending := rest }
            dispatchers := [.holding invalidates pending] } := by
          simp [NativeFontCallback.step, hdispatcher, take, NativeCallbackQueue.take, hlive.alive,
            hpending]
        refine ⟨_, _, rfl, hstep, ⟨hlive.published, hlive.alive, hlive.accepting⟩, rfl, ?_⟩
        simp only [work, hdispatcher, hpending, List.length_cons]
        omega
    | holding invalidates pending =>
      have hstep : NativeFontCallback.step callback (.enter 0) = some { callback with
          gate := { callback.gate with inFlight := callback.gate.inFlight + 1 }
          dispatchers := [.calling invalidates pending]
          events := callback.events ++ [.started pending] } := by
        simp [NativeFontCallback.step, hdispatcher, enter, CallbackGate.tryEnter, hlive.accepting]
      refine ⟨_, _, rfl, hstep, ⟨hlive.published, hlive.alive, hlive.accepting⟩, rfl, ?_⟩
      simp [work, hdispatcher]
    | calling invalidates =>
      have hstep : NativeFontCallback.step callback (.finish 0) = some { callback with
          gate := callback.gate.leave 1
          dispatchers := [.draining invalidates] } := by
        simp [NativeFontCallback.step, hdispatcher, finish]
      refine ⟨_, _, rfl, hstep, ⟨hlive.published, hlive.alive, hlive.accepting⟩, rfl, ?_⟩
      simp [work, hdispatcher]

theorem settles (h : callback.Sound) (hlive : callback.Live) : ∃ actions final,
    (∀ action ∈ actions, action.drains = true) ∧
      runSteps NativeFontCallback.step callback actions = some final ∧ final.Quiet ∧
      final.count = callback.count := by
  induction hmeasure : callback.work using Nat.strongRecOn generalizing callback with
  | _ _ ih =>
  by_cases hbusy : callback.dispatchers = []
  · exact ⟨[], callback, (fun _ hmem => nomatch hmem), rfl, h.quiet hlive hbusy, rfl⟩
  · obtain ⟨action, next, hdrains, hstep, hnext, hcount, hwork⟩ := h.drains hlive hbusy
    obtain ⟨actions, final, hall, hrun, hquiet, hfinal⟩ :=
      ih next.work (hmeasure ▸ hwork) (h.step hstep) hnext rfl
    refine ⟨action :: actions, final, ?_, runSteps_cons.mpr ⟨next, hstep, hrun⟩, hquiet,
      hfinal.trans hcount⟩
    intro other hother
    rcases List.mem_cons.mp hother with rfl | hother
    · exact hdrains
    · exact hall other hother

end Sound

/-- Passed on in order and once each, by one thread at a time, and nothing lost without a reason. -/
structure Orderly (callback : NativeFontCallback) : Prop where
  single : callback.dispatchers.length ≤ 1
  unpublished : callback.queue.published = false → callback.started = []
  silent : callback.events.Pairwise Silent
  ordered : (callback.started.map (·.sequence)).Pairwise (· < ·)
  conserved : ∀ sequence,
    (callback.settled ++ callback.outstanding.map (·.sequence)).count sequence =
      if sequence < callback.count then 1 else 0
  evidence : ∀ event ∈ callback.events, callback.Evidence event
  settles : callback.Live → ∃ actions final, (∀ action ∈ actions, action.drains = true) ∧
    runSteps step callback actions = some final ∧ final.Quiet ∧ final.count = callback.count

theorem Sound.orderly {callback : NativeFontCallback} (h : callback.Sound) : callback.Orderly where
  single := by
    rcases h.dispatching with ⟨hquiet, _⟩ | ⟨_, honly, _⟩
    · rw [hquiet]
      exact Nat.zero_le _
    · rw [honly]
      exact Nat.le_refl _
  unpublished hnot := by
    refine List.eq_nil_iff_forall_not_mem.mpr fun pending hmem => ?_
    obtain ⟨event, hevent, hstarted⟩ := List.mem_filterMap.mp hmem
    have hevidence := h.evidence event hevent
    cases event with
    | started => exact absurd (hevidence.symm.trans hnot) Bool.noConfusion
    | _ => cases hstarted
  silent := h.silent
  ordered := by
    have hordered := h.ordered
    rw [List.map_append] at hordered
    exact (List.pairwise_append.mp hordered).1
  conserved := h.conserved
  evidence := h.evidence
  settles := h.settles

/-- Where every null notification finds nothing older waiting, no stale font is ever passed on. -/
theorem notifications_orderly_and_never_stale {actions : List FontStep} {final : NativeFontCallback}
    (hrun : runSteps step new actions = some final)
    (hclear : EveryStep step ClearForNull new actions) :
    final.Orderly ∧ final.events.Pairwise NotStale := by
  have hboth : final.Sound ∧ final.Fresh := by
    refine hclear.invariant (Q := fun callback => callback.Sound ∧ callback.Fresh) ?_ hrun
      ⟨sound_new, fresh_new⟩
    rintro callback action next hstep hstate ⟨hsound, hfresh⟩
    exact ⟨hsound.step hstep, hfresh.step hsound hstate hstep⟩
  exact ⟨hboth.1.orderly, hboth.2.never⟩

/-- An atlas is published, passed on and invalidated. -/
theorem invalidatedRun_orderly : ∃ final, runSteps step new [.publish,
      .enqueue "menu" (some ⟨4096⟩), .take 0, .enter 0, .finish 0, .take 0, .enqueue "menu" none,
      .take 0, .enter 0, .finish 0, .take 0] = some final ∧
    final.started.map (·.font) = [4096, 0] ∧ final.Orderly ∧ final.events.Pairwise NotStale := by
  obtain ⟨final, hrun⟩ := Option.isSome_iff_exists.mp (rfl : (runSteps step new [.publish,
    .enqueue "menu" (some ⟨4096⟩), .take 0, .enter 0, .finish 0, .take 0, .enqueue "menu" none,
    .take 0, .enter 0, .finish 0, .take 0]).isSome = true)
  have hfonts : (runSteps step new [.publish, .enqueue "menu" (some ⟨4096⟩), .take 0, .enter 0,
      .finish 0, .take 0, .enqueue "menu" none, .take 0, .enter 0, .finish 0, .take 0]).map
      (fun callback => callback.started.map (·.font)) = some [4096, 0] := rfl
  rw [hrun] at hfonts
  exact ⟨final, hrun, Option.some.inj hfonts,
    notifications_orderly_and_never_stale hrun (by decide +kernel)⟩

/-- The registering thread has taken the font off the queue when the render thread invalidates it. -/
theorem taken_font_passed_on_after_null : ¬ ∀ (actions : List FontStep) (final : NativeFontCallback),
    runSteps step new actions = some final → final.events.Pairwise NotStale := by
  intro hnever
  obtain ⟨final, hrun⟩ := Option.isSome_iff_exists.mp (rfl : (runSteps step new
    [.enqueue "menu" (some ⟨4096⟩), .publish, .take 0, .enqueue "menu" none,
      .enter 0]).isSome = true)
  have hevents : (runSteps step new [.enqueue "menu" (some ⟨4096⟩), .publish, .take 0,
      .enqueue "menu" none, .enter 0]).map (·.events) =
      some [.invalidated 1, .started ⟨"menu", 4096, 0⟩] := rfl
  rw [hrun, Option.map_some, Option.some.injEq] at hevents
  have hpairwise := hnever _ final hrun
  rw [hevents] at hpairwise
  have hnull := (List.pairwise_cons.mp hpairwise).1 _ (List.mem_singleton_self _) 1
    ⟨"menu", 4096, 0⟩ rfl rfl (by decide)
  exact absurd hnull (by decide)

end NativeFontCallback

end Nexus.FontNotifications
