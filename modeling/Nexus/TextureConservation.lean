import Nexus.TextureLedger

namespace Nexus.Textures

open StepRuns

variable {world next middle : World} {callback call : Nat} {events : List Event}

def Balanced (callback : Nat) (before after : World) : Prop :=
  ∃ events, after.log = events ++ before.log ∧
    held callback after + events.countP (Event.enters callback) +
      events.countP (Event.drops callback) =
        held callback before + events.countP (Event.accepts callback) ∧
    events.countP (Event.accepts callback) + unaccepted callback after ≤
      unaccepted callback before

variable (events) in
theorem balanced_begin (hcalls : middle.calls = world.calls)
    (hlog : middle.log = events ++ world.log) {activation : Activation}
    (hheld : stored callback middle + activation.holds callback +
      events.countP (Event.enters callback) + events.countP (Event.drops callback) =
        stored callback world + events.countP (Event.accepts callback))
    (haccepts : events.countP (Event.accepts callback) + activation.notifies callback ≤
      if callback = world.calls.length then 1 else 0) :
    Balanced callback world (middle.begin activation) := by
  have hbegin : (middle.begin activation).calls = world.calls ++ [activation] := by
    rw [← hcalls]
    rfl
  have hstored : stored callback (middle.begin activation) = stored callback middle := rfl
  refine ⟨events, hlog, ?_, ?_⟩
  · unfold held
    rw [hstored, hbegin, tally_append, tally_cons, tally_nil]
    omega
  · unfold unaccepted
    rw [hbegin, tally_append, tally_cons, tally_nil, List.length_append, List.length_singleton]
    by_cases hcallback : callback = world.calls.length
    · rw [if_pos hcallback] at haccepts
      rw [if_neg (by omega), if_pos (by omega)]
      omega
    · rw [if_neg hcallback] at haccepts
      by_cases hle : world.calls.length ≤ callback
      · rw [if_pos (by omega), if_pos hle]
        omega
      · rw [if_neg (by omega), if_neg hle]
        omega

variable (events) in
theorem balanced_goOn {before : Activation} (hcall : world.calls[call]? = some before)
    (hcalls : middle.calls = world.calls) (hlog : middle.log = events ++ world.log)
    {after : Activation}
    (hheld : stored callback middle + after.holds callback +
      events.countP (Event.enters callback) + events.countP (Event.drops callback) =
        stored callback world + before.holds callback + events.countP (Event.accepts callback))
    (haccepts : events.countP (Event.accepts callback) + after.notifies callback ≤
      before.notifies callback) :
    Balanced callback world (middle.goOn call after) := by
  have hgoOn : (middle.goOn call after).calls = world.calls.set call after := by
    rw [← hcalls]
    rfl
  have hstored : stored callback (middle.goOn call after) = stored callback middle := rfl
  refine ⟨events, hlog, ?_, ?_⟩
  · have hset := tally_set (Activation.holds callback) hcall after
    unfold held
    rw [hstored, hgoOn]
    omega
  · have hset := tally_set (Activation.notifies callback) hcall after
    unfold unaccepted
    rw [hgoOn, List.length_set]
    omega

variable (callback) in
theorem countP_acceptances (identifier : String) (requestId : Nat)
    (registration : Option CallbackRegistration) :
    (acceptances identifier requestId registration).countP (Event.enters callback) = 0 ∧
      (acceptances identifier requestId registration).countP (Event.drops callback) = 0 ∧
      (acceptances identifier requestId registration).countP (Event.accepts callback) =
        registration.toList.countP fun found => found.callback = callback := by
  cases registration <;> exact ⟨rfl, rfl, rfl⟩

theorem balanced_worker (hlog : next.log = world.log) (hcalls : next.calls = world.calls)
    (hstored : stored callback next = stored callback world) : Balanced callback world next := by
  refine ⟨[], hlog, ?_, ?_⟩
  · unfold held
    rw [hstored, hcalls]
    rfl
  · unfold unaccepted
    rw [hcalls]
    exact le_of_eq (Nat.zero_add _)

theorem stored_pushed (identifier : String) (requestId : Nat)
    (result : Except TextureError DecodedImage) (completions : List Completion) :
    tally (Completion.holds callback) (completions ++ [.decoded identifier requestId result]) =
      tally (Completion.holds callback) completions := by
  rw [tally_append]
  rfl

variable (callback) in
theorem total_joinRequest (owner : RequestOwner) (attached : Option CallbackRegistration)
    {state : RegistryState} {identifier : String} {pending : PendingRequest}
    (hget : state.pending.get? identifier = some pending) :
    (joinRequest identifier pending owner attached state).pending.total
        (PendingRequest.holds callback) =
      state.pending.total (PendingRequest.holds callback) +
        attached.toList.countP fun found => found.callback = callback := by
  unfold joinRequest
  rw [SortedMap.total_put, SortedMap.total_erase _ hget]
  have hholds : PendingRequest.holds callback { pending with
      owners := pending.owners.insert owner
      callbacks := pending.callbacks ++ attached.toList } = pending.holds callback +
        attached.toList.countP fun found => found.callback = callback := List.countP_append
  rw [hholds]
  omega

variable (callback) in
theorem total_openRequest (owner : RequestOwner) (registration : Option CallbackRegistration)
    (shadowed : Option ShadowedTexture) (state : RegistryState) {identifier : String}
    (hget : state.pending.get? identifier = none) :
    (openRequest identifier owner registration shadowed state).pending.total
        (PendingRequest.holds callback) =
      state.pending.total (PendingRequest.holds callback) +
        registration.toList.countP fun found => found.callback = callback := by
  unfold openRequest
  rw [SortedMap.total_put, SortedMap.erase_of_absent hget]
  exact Nat.add_comm ..

theorem countP_deliveries (callbacks : List CallbackRegistration) :
    (deliveries callbacks).countP (fun delivery => delivery.2 = callback) =
      callbacks.countP fun registration => registration.callback = callback := by
  unfold deliveries
  rw [List.countP_map]
  rfl

variable (callback call) in
theorem countP_excluded (excluded : Option Nat) (callbacks : List CallbackRegistration) :
    (callbacks.filter fun registration => some registration.id ≠ excluded).countP
        (fun registration => registration.callback = callback) +
      ((callbacks.filter fun registration => some registration.id = excluded).map
        fun registration => Event.excluded registration.callback call).countP
          (Event.drops callback) =
      callbacks.countP fun registration => registration.callback = callback := by
  rw [List.countP_map]
  induction callbacks with
  | nil => rfl
  | cons registration _ ih =>
    by_cases hid : some registration.id = excluded
    · rw [List.filter_cons_of_neg (by simpa using hid), List.filter_cons_of_pos (by simpa using hid),
        List.countP_cons, List.countP_cons, ← ih]
      exact (Nat.add_assoc ..).symm
    · rw [List.filter_cons_of_pos (by simpa using hid), List.filter_cons_of_neg (by simpa using hid),
        List.countP_cons, List.countP_cons, ← ih]
      omega

variable (callback call) in
theorem countP_mapped_excluded (registrations : List CallbackRegistration) :
    (registrations.map fun registration => Event.excluded registration.callback call).countP
        (Event.enters callback) = 0 ∧
      (registrations.map fun registration => Event.excluded registration.callback call).countP
        (Event.accepts callback) = 0 := by
  rw [List.countP_map, List.countP_map]
  exact ⟨List.countP_eq_zero.mpr fun _ _ => Bool.false_ne_true,
    List.countP_eq_zero.mpr fun _ _ => Bool.false_ne_true⟩

theorem countP_cleanup {owner : OwnerGeneration} {order : List String} {state : RegistryState} :
    (cleanupEvents call owner order state).countP (Event.enters callback) = 0 ∧
      (cleanupEvents call owner order state).countP (Event.drops callback) =
        (ownedCallbacks (.addon owner) state).countP
          (fun registration => registration.callback = callback) ∧
      (cleanupEvents call owner order state).countP (Event.accepts callback) = 0 := by
  have hcancel : ∀ event ∈ cancelEvents order state,
      ∃ identifier requestId, event = .cancelled identifier requestId := by
    intro event hevent
    obtain ⟨identifier, _, hmap⟩ := List.mem_filterMap.mp hevent
    obtain ⟨_, _, rfl⟩ := Option.map_eq_some_iff.mp hmap
    exact ⟨_, _, rfl⟩
  have hzero : ∀ p : Event → Bool, (∀ identifier requestId, p (.cancelled identifier requestId) =
      false) → (cancelEvents order state).countP p = 0 := by
    intro p hp
    refine List.countP_eq_zero.mpr fun event hevent => ?_
    obtain ⟨_, _, rfl⟩ := hcancel event hevent
    rw [hp]
    exact Bool.false_ne_true
  unfold cleanupEvents
  simp only [List.countP_append, List.countP_map, List.countP_singleton]
  rw [hzero _ fun _ _ => rfl, hzero _ fun _ _ => rfl, hzero _ fun _ _ => rfl]
  refine ⟨?_, rfl, ?_⟩
  · exact List.countP_eq_zero.mpr fun _ _ => Bool.false_ne_true
  · exact List.countP_eq_zero.mpr fun _ _ => Bool.false_ne_true

theorem countP_removal {completions : List Completion} :
    (completions.flatMap Completion.removal).countP (Event.accepts callback) = 0 ∧
      (completions.flatMap Completion.removal).countP (Event.enters callback) = 0 ∧
      (completions.flatMap Completion.removal).countP (Event.drops callback) =
        tally (Completion.holds callback) completions := by
  induction completions with
  | nil => exact ⟨rfl, rfl, rfl⟩
  | cons completion _ ih =>
    obtain ⟨haccepts, henters, hdrops⟩ := ih
    simp only [List.flatMap_cons, List.countP_append, tally_cons]
    rw [haccepts, henters, hdrops]
    cases completion with
    | decoded => exact ⟨rfl, rfl, rfl⟩
    | callback =>
      simp [Completion.removal, Completion.holds, Event.accepts, Event.enters, Event.drops,
        List.countP_singleton]

theorem move_balanced (h : Move world next) (callback : Nat) : Balanced callback world next := by
  cases h with
  | @answered _ _ _ _ hnumbered =>
    refine balanced_begin [] (by rfl) (by rfl) ?_ (Nat.zero_le _)
    unfold stored
    rw [hnumbered.pending]
    rfl
  | refused | advances => exact balanced_begin [] (by rfl) (by rfl) rfl (Nat.zero_le _)
  | @hit owner _ _ identifier texture hnumbered =>
    refine balanced_begin [] (by rfl) (by rfl) ?_ ?_
    · unfold stored
      rw [hnumbered.pending]
      rfl
    · have hnotifies : Activation.notifies callback
          (.notifying owner identifier texture world.calls.length) =
            if callback = world.calls.length then 1 else 0 := by
        unfold Activation.notifies
        simp only [eq_comm]
      rw [List.countP_nil, Nat.zero_add, hnotifies]
  | @joined owner _ attached _ identifier pending hnumbered hattached hget =>
    obtain ⟨henters, hdrops, haccepts⟩ := countP_acceptances callback identifier
      pending.requestId attached
    have hcount := hnumbered.countP_le callback hattached
    rw [← hnumbered.pending] at hget
    have htotal := (total_joinRequest callback owner attached hget).trans (by rw [hnumbered.pending])
    refine balanced_begin (acceptances _ _ _) (by rfl) (by rfl) ?_ ?_
    · unfold stored
      rw [henters, hdrops, haccepts, record_state, record_completions]
      dsimp only
      rw [htotal]
      simp only [Activation.holds]
      omega
    · rw [haccepts]
      exact hcount
  | @opened owner registration state identifier shadowed registry _ hnumbered hget =>
    obtain ⟨henters, hdrops, haccepts⟩ := countP_acceptances callback identifier
      world.state.nextRequestId registration
    have hcount := hnumbered.countP_le callback (Or.inl rfl)
    rw [← hnumbered.pending] at hget
    have htotal := (total_openRequest callback owner registration shadowed
      { state with registry } hget).trans (by rw [hnumbered.pending])
    refine balanced_begin (acceptances _ _ _) (by rfl) (by rfl) ?_ ?_
    · unfold stored
      rw [henters, hdrops, haccepts, record_state, record_completions]
      dsimp only
      rw [htotal]
      simp only [Activation.holds]
      omega
    · rw [haccepts]
      exact hcount
  | @cleans owner order hperm =>
    have hholds := cleanupPending_holds callback hperm
    refine balanced_begin (cleanupEvents world.calls.length owner order world.state) (by rfl)
      (by rfl) ?_ ?_
    · unfold stored
      rw [countP_cleanup.1, countP_cleanup.2.1, countP_cleanup.2.2, record_state,
        record_completions]
      dsimp only [Activation.holds]
      omega
    · rw [countP_cleanup.2.2]
      exact Nat.zero_le _
  | turned hcall hturn =>
    refine balanced_goOn [] hcall (by rfl) (by rfl) ?_ ?_
    · rw [hturn.holds]
      rfl
    · exact (Nat.zero_add _).trans_le hturn.notifies
  | dropped hcall hdrops =>
    refine balanced_goOn [] hcall (by rfl) (by rfl) ?_ ?_
    · rw [hdrops.holds.1, hdrops.holds.2]
      rfl
    · rw [hdrops.notifies.1, hdrops.notifies.2]
      exact le_refl 0
  | @notified _ owner identifier texture handler _ hcall =>
    refine balanced_goOn [.accepted handler owner (.cached identifier texture)] hcall (by rfl)
      (by rfl) ?_ ?_
    · unfold stored
      rw [record_completions, tally_append]
      simp only [tally_cons, tally_nil, Completion.holds, Activation.holds, List.countP_singleton,
        Event.enters, Event.drops, Event.accepts, decide_eq_true_eq, record_state]
      exact (Nat.add_assoc ..).symm
    · rw [List.countP_singleton]
      exact (Nat.add_zero _).trans_le (le_of_eq (by simp [Event.accepts, Activation.notifies]))
  | queuedWork hcall | queuedDownload hcall =>
    exact balanced_goOn [] hcall (by rfl) (by rfl) rfl (Nat.zero_le _)
  | @popped _ _ left completion _ hcall hcompletions =>
    have hholds : (completion.activation left).holds callback = completion.holds callback := by
      cases completion with
      | decoded => rfl
      | callback owner _ handler =>
        show [(owner, handler)].countP (fun delivery => delivery.2 = callback) = _
        rw [List.countP_singleton]
        simp [Completion.holds]
    have hnotifies : (completion.activation left).notifies callback = 0 := by
      cases completion <;> rfl
    refine balanced_goOn [] hcall (by rfl) (by rfl) ?_ ?_
    · unfold stored
      rw [hholds, hcompletions, tally_cons]
      dsimp only [Activation.holds, List.countP_nil]
      omega
    · rw [hnotifies]
      exact Nat.zero_le _
  | checked hcall =>
    exact balanced_goOn [.matched _ _] hcall (by rfl) (by rfl) rfl (Nat.zero_le _)
  | uploaded hcall =>
    exact balanced_goOn [.uploaded _ _] hcall (by rfl) (by rfl) rfl (Nat.zero_le _)
  | @failed call _ _ _ excluded _ pending _ hcall hget =>
    have htotal := SortedMap.total_erase (PendingRequest.holds callback) hget
    have hexcluded := countP_excluded callback call excluded pending.callbacks
    obtain ⟨henters, haccepts⟩ := countP_mapped_excluded callback call
      (pending.callbacks.filter fun registration => some registration.id = excluded)
    refine balanced_goOn (_ ++ [.resolved _ _ _]) hcall (by rfl) (by rfl) ?_ ?_
    · unfold stored
      rw [List.countP_append, List.countP_append, List.countP_append, henters, haccepts,
        record_state, record_completions]
      dsimp only [Activation.holds]
      rw [countP_deliveries, htotal, PendingRequest.holds, ← hexcluded]
      simp only [List.countP_singleton, Event.enters, Event.drops, Event.accepts,
        Bool.false_eq_true, if_false]
      omega
    · rw [List.countP_append, haccepts]
      exact Nat.zero_le _
  | @finished _ _ _ _ _ _ _ hcall hget =>
    have htotal := SortedMap.total_erase (PendingRequest.holds callback) hget
    refine balanced_goOn [.resolved _ _ _] hcall (by rfl) (by rfl) ?_ (Nat.zero_le _)
    unfold stored
    rw [record_state, record_completions]
    dsimp only [Activation.holds]
    rw [countP_deliveries, htotal, PendingRequest.holds]
    simp only [List.countP_singleton, Event.enters, Event.drops, Event.accepts,
      Bool.false_eq_true, if_false]
    omega
  | @entered _ event owner handler rest _ hcall =>
    have henters : [Event.entered handler event].countP (Event.enters callback) =
        if handler = callback then 1 else 0 := by
      simp [Event.enters, List.countP_singleton]
    have hfirst : ((owner, handler) :: rest).countP (fun delivery => delivery.2 = callback) =
        rest.countP (fun delivery => delivery.2 = callback) + if handler = callback then 1 else 0 := by
      simp [List.countP_cons]
    refine balanced_goOn [.entered handler event] hcall (by rfl) (by rfl) ?_ (Nat.zero_le _)
    unfold stored
    rw [record_state, record_completions, henters]
    dsimp only [Activation.holds]
    rw [hfirst]
    exact congrArg (· + 0) (Nat.add_assoc ..)
  | @swept _ _ owner hcall =>
    have hfilter := tally_filter (Completion.holds callback)
      (fun completion => completion.isOwned (.addon owner)) world.completions
    refine balanced_goOn (_ :: _) hcall (by rfl) (by rfl) ?_ ?_
    · unfold stored
      rw [List.countP_cons, List.countP_cons, List.countP_cons, countP_removal.1,
        countP_removal.2.1, countP_removal.2.2, record_state, record_completions]
      dsimp only [Activation.holds, Event.enters, Event.drops, Event.accepts]
      simp only [Bool.false_eq_true, if_false]
      omega
    · rw [List.countP_cons, countP_removal.1]
      exact Nat.zero_le _
  | decodeTaken | decodeRan | downloadTaken | downloadRan => exact balanced_worker rfl rfl rfl
  | decodePushed | downloadPushed =>
    refine balanced_worker rfl rfl ?_
    unfold stored
    dsimp only
    rw [stored_pushed]

theorem conserved_new (config : TextureConfig) : Conserved (World.new config) := by
  refine ⟨fun callback => rfl, fun callback => ?_⟩
  have hall : unaccepted callback (World.new config) = 1 := by
    show 0 + (if 0 ≤ callback then 1 else 0) = 1
    rw [if_pos (Nat.zero_le callback)]
  rw [hall]
  exact le_refl 1

theorem Conserved.move (h : Conserved world) (hmove : Move world next) : Conserved next where
  balanced := by
    intro callback
    obtain ⟨events, hlog, _, _⟩ := move_balanced hmove callback
    have hbefore := h.balanced callback
    rw [hlog, List.countP_append, List.countP_append, List.countP_append]
    omega
  once := by
    intro callback
    obtain ⟨events, hlog, _, _⟩ := move_balanced hmove callback
    have hbefore := h.once callback
    rw [hlog, List.countP_append]
    omega

end Nexus.Textures
