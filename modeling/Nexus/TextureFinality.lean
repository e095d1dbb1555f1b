import Nexus.TextureCleanup

namespace Nexus.Textures

open StepRuns

variable {world next : World}

section Quiet

def Event.isCleanup : Event → Bool
  | .cleaning .. => true
  | .cleaned .. => true
  | _ => false

def Quiet (before after : World) : Prop :=
  ∃ events, after.log = events ++ before.log ∧ ∀ event ∈ events, event.isCleanup = false

theorem quiet_same (h : next.log = world.log) : Quiet world next :=
  ⟨[], h, fun _ hevent => by cases hevent⟩

theorem quiet_one {event : Event} (h : next.log = event :: world.log)
    (hevent : event.isCleanup = false) : Quiet world next :=
  ⟨[event], h, fun found hfound => by rw [List.mem_singleton.mp hfound, hevent]⟩

variable {identifier : String}

theorem isCleanup_acceptedBy {state : RegistryState} {owner : RequestOwner}
    {callback : Option Nat} :
    ∀ event ∈ acceptedBy state identifier owner callback, event.isCleanup = false := by
  intro event hevent
  unfold acceptedBy at hevent
  split at hevent
  · rw [List.mem_singleton.mp hevent]
    rfl
  · cases hevent

theorem beginLoad_quiet (identifier : String) (source : Option TextureSource)
    (options : LoadOptions) (hasCallback attachJoinedCallback : Bool) (world : World) :
    Quiet world (beginLoad identifier source options hasCallback attachJoinedCallback world) := by
  unfold beginLoad
  split
  · exact quiet_same rfl
  dsimp only
  split
  · exact quiet_same rfl
  · exact ⟨_, rfl, isCleanup_acceptedBy⟩
  · split <;> exact quiet_same rfl
  · exact ⟨_, rfl, isCleanup_acceptedBy⟩

theorem resume_quiet {call : Nat} {answers : Answers} {activation : Activation}
    (hsweeping : ∀ owner removed, activation ≠ .sweeping owner removed)
    (h : resume call answers world activation = some next) : Quiet world next := by
  cases activation with
  | notifying =>
    cases h
    unfold notify
    split
    · exact quiet_one rfl rfl
    · exact quiet_same rfl
  | resolving =>
    cases h
    exact quiet_same rfl
  | unwound | returned => cases h
  | queueing _ _ source =>
    cases h
    refine quiet_same ?_
    cases source <;> unfold queueResolved <;> dsimp only <;> split <;> rfl
  | failing =>
    cases h
    refine ⟨_, rfl, fun event hevent => ?_⟩
    unfold failEvents at hevent
    split at hevent
    · cases hevent
    · rcases List.mem_append.mp hevent with hexcluded | hresolved
      · obtain ⟨_, _, rfl⟩ := List.mem_map.mp hexcluded
        rfl
      · rw [List.mem_singleton.mp hresolved]
        rfl
  | advancing =>
    cases h
    refine quiet_same ?_
    unfold popCompletion
    split <;> rfl
  | finishing =>
    cases h
    unfold checkPending
    split
    · exact quiet_one rfl rfl
    · exact quiet_same rfl
  | uploading =>
    cases h
    unfold upload
    split
    · exact quiet_same rfl
    split
    · exact quiet_same rfl
    split <;> exact quiet_one rfl rfl
  | registering =>
    cases h
    unfold finishDecode
    split
    · exact quiet_same rfl
    · exact quiet_one rfl rfl
  | dispatching _ callbacks =>
    cases h
    cases callbacks
    · exact quiet_same rfl
    · exact quiet_one rfl rfl
  | sweeping owner removed => exact absurd rfl (hsweeping owner removed)

theorem pushWait_log {requestId : Nat} {result : Except TextureError DecodedImage}
    (h : pushWait identifier requestId result world = some next) : next.log = world.log := by
  rw [pushWait_cases h]

variable {decoded : Option DecodedImage}

theorem decodeStep_quiet {file : Option (List UInt8)}
    (h : decodeStep file decoded world = some next) : Quiet world next := by
  refine quiet_same ?_
  unfold decodeStep at h
  split at h
  · split at h <;> cases h
    rfl
  · cases h
    rfl
  · have hlog := pushWait_log h
    exact hlog

theorem downloadStep_quiet {fetched : Option (List UInt8)}
    (h : downloadStep fetched decoded world = some next) : Quiet world next := by
  refine quiet_same ?_
  unfold downloadStep at h
  split at h
  · split at h <;> cases h
    rfl
  · cases h
    rfl
  · have hlog := pushWait_log h
    exact hlog

theorem step_cases {action : Action} (h : step world action = some next) :
    (∃ owner order, action = .cleanup owner order ∧
      order.Perm (abandoned (forgetOwner (.addon owner) world.state)) ∧
        next = beginCleanup owner order world) ∨
    (∃ call answers owner removed, action = .resume call answers ∧
      world.calls[call]? = some (.sweeping owner removed) ∧
        next = sweep call owner removed world) ∨ Quiet world next := by
  cases action with
  | load | loadWithSource =>
    cases h
    exact Or.inr (Or.inr (beginLoad_quiet ..))
  | advance =>
    cases h
    exact Or.inr (Or.inr (quiet_same rfl))
  | cleanup owner order =>
    obtain ⟨hperm, rfl⟩ := step_cleanup h
    exact Or.inl ⟨owner, order, rfl, hperm, rfl⟩
  | resume call answers =>
    obtain ⟨activation, hcall, hresume⟩ := Option.bind_eq_some_iff.mp h
    by_cases hsweeping : ∃ owner removed, activation = .sweeping owner removed
    · obtain ⟨owner, removed, rfl⟩ := hsweeping
      cases hresume
      exact Or.inr (Or.inl ⟨call, answers, owner, removed, rfl, hcall, rfl⟩)
    · exact Or.inr (Or.inr (resume_quiet
        (fun owner removed heq => hsweeping ⟨owner, removed, heq⟩) hresume))
  | decode => exact Or.inr (Or.inr (decodeStep_quiet h))
  | download => exact Or.inr (Or.inr (downloadStep_quiet h))

end Quiet

def RegisteredBefore (log : List Event) (call : Nat) (owner : OwnerGeneration) (callback : Nat) :
    Prop := ∃ middle earlier target, log = middle ++ .cleaning call owner :: earlier ∧
      .accepted callback (.addon owner) target ∈ earlier

/-- Where the step is the second section of a cleanup, no dispatch in progress still has to enter a
callback that was registered under the owner before the cleanup. -/
def SweepsQuietly (world : World) (action : Action) : Prop :=
  ∀ call answers owner removed, action = .resume call answers →
    world.calls[call]? = some (.sweeping owner removed) →
      ∀ (dispatcher : Nat) event callbacks continuation,
        world.calls[dispatcher]? = some (.dispatching event callbacks continuation) →
          ∀ delivery ∈ callbacks, ¬ RegisteredBefore world.log call owner delivery.2

/-- After a cleanup has returned, no callback that was registered under its owner before it began is
entered. -/
def CleanupFinal (log : List Event) : Prop :=
  ∀ later middle earlier call owner callback target,
    log = later ++ .cleaned call owner :: (middle ++ .cleaning call owner :: earlier) →
      .accepted callback (.addon owner) target ∈ earlier → ∀ event, .entered callback event ∉ later

/-- The callback was registered under the owner before a cleanup call that has returned. -/
def CleanedUp (log : List Event) (call : Nat) (owner : OwnerGeneration) (callback : Nat) : Prop :=
  ∃ later rest, log = later ++ .cleaned call owner :: rest ∧ RegisteredBefore rest call owner callback

variable {log : List Event} {call callback : Nat} {owner : OwnerGeneration}

theorem RegisteredBefore.accepted (h : RegisteredBefore log call owner callback) :
    ∃ target, .accepted callback (.addon owner) target ∈ log := by
  obtain ⟨_, _, target, rfl, haccepted⟩ := h
  exact ⟨target, List.mem_append_right _ (List.mem_cons_of_mem _ haccepted)⟩

theorem CleanedUp.registeredBefore (h : CleanedUp log call owner callback) :
    RegisteredBefore log call owner callback := by
  obtain ⟨later, _, rfl, middle, earlier, target, rfl, haccepted⟩ := h
  exact ⟨later ++ .cleaned call owner :: middle, earlier, target, by simp, haccepted⟩

variable {events middle : List Event} {earlier : List Event}

theorem split_append {event : Event} (h : events ++ log = middle ++ event :: earlier) :
    (∃ kept, log = kept ++ event :: earlier ∧ middle = events ++ kept) ∨
      ∃ added, events = middle ++ event :: added ∧ earlier = added ++ log := by
  rcases List.append_eq_append_iff.mp h with ⟨kept, hmiddle, hlog⟩ | ⟨added, hevents, hrest⟩
  · exact Or.inl ⟨kept, hlog, hmiddle⟩
  · rcases added with _ | ⟨_, added⟩
    · exact Or.inl ⟨[], by rw [← List.nil_append log]; exact hrest.symm, by simpa using hevents.symm⟩
    · obtain ⟨rfl, rfl⟩ := List.cons.inj hrest
      exact Or.inr ⟨added, hevents, rfl⟩

theorem RegisteredBefore.of_append (hquiet : .cleaning call owner ∉ events)
    (h : RegisteredBefore (events ++ log) call owner callback) :
    RegisteredBefore log call owner callback := by
  obtain ⟨_, earlier, target, hlog, haccepted⟩ := h
  rcases split_append hlog with ⟨kept, hkept, _⟩ | ⟨_, hevents, _⟩
  · exact ⟨kept, earlier, target, hkept, haccepted⟩
  · rw [hevents] at hquiet
    exact absurd (List.mem_append_right _ List.mem_cons_self) hquiet

theorem CleanedUp.of_append (hquiet : .cleaned call owner ∉ events)
    (h : CleanedUp (events ++ log) call owner callback) : CleanedUp log call owner callback := by
  obtain ⟨_, rest, hlog, hregistered⟩ := h
  rcases split_append hlog with ⟨kept, hkept, _⟩ | ⟨_, hevents, _⟩
  · exact ⟨kept, rest, hkept, hregistered⟩
  · rw [hevents] at hquiet
    exact absurd (List.mem_append_right _ List.mem_cons_self) hquiet

variable {order : List String}

theorem cleanupEvents_split {other : Nat} {found : OwnerGeneration} {state : RegistryState}
    {added : List Event}
    (h : cleanupEvents call owner order state = middle ++ .cleaning other found :: added) :
    other = call ∧ found = owner ∧ added = [] := by
  have hfront : .cleaning other found ∉ ((ownedCallbacks (.addon owner) state).map
      fun registration => Event.removed registration.callback registration.owner) ++
        cancelEvents order state := by
    intro hmem
    rcases List.mem_append.mp hmem with hremoved | hcancelled
    · obtain ⟨_, _, heq⟩ := List.mem_map.mp hremoved
      cases heq
    · obtain ⟨_, _, _, _, heq⟩ := mem_cancelEvents hcancelled
      cases heq
  rcases split_append h with ⟨kept, hkept, _⟩ | ⟨_, hevents, _⟩
  · rcases kept with _ | ⟨_, kept⟩
    · obtain ⟨heq, hadded⟩ := List.cons.inj hkept
      cases heq
      exact ⟨rfl, rfl, hadded.symm⟩
    · exact absurd (List.cons.inj hkept).2.symm (by simp)
  · rw [hevents] at hfront
    exact absurd (List.mem_append_right _ List.mem_cons_self) hfront

theorem not_isCleanup_removals {completions : List Completion} :
    ∀ event ∈ completions.flatMap Completion.removal, event.isCleanup = false := by
  intro event hevent
  obtain ⟨completion, _, hremoval⟩ := List.mem_flatMap.mp hevent
  cases completion with
  | decoded => cases hremoval
  | callback =>
    rw [List.mem_singleton.mp hremoval]
    rfl

structure Cleared (world : World) : Prop where
  sound : Sound world
  cleared : ∀ call owner callback, RegisteredBefore world.log call owner callback →
    ∀ identifier pending, world.state.pending.get? identifier = some pending →
      ∀ registration ∈ pending.callbacks, registration.callback ≠ callback
  gone : ∀ call owner callback, CleanedUp world.log call owner callback → held callback world = 0
  final : CleanupFinal world.log

theorem cleared_new (config : TextureConfig) : Cleared (World.new config) where
  sound := sound_new config
  cleared := by
    rintro call owner callback ⟨middle, earlier, target, hlog, _⟩
    cases middle <;> cases hlog
  gone := by
    rintro call owner callback ⟨later, rest, hlog, _⟩
    cases later <;> cases hlog
  final := by
    intro later middle earlier call owner callback target hlog
    cases later <;> cases hlog

variable {target : Target}

/-- A callback that was accepted is not accepted again, and what it is entered with comes out of where
it waits. -/
theorem Sound.not_accepted_again (h : Sound world) (hmove : Move world next)
    {owner : RequestOwner} (haccepted : .accepted callback owner target ∈ world.log) :
    callback < world.calls.length ∧ ∃ events, next.log = events ++ world.log ∧
      held callback next + events.countP (Event.enters callback) ≤ held callback world := by
  have hpos : 0 < world.log.countP (Event.accepts callback) :=
    countP_pos_of_mem haccepted (decide_eq_true rfl)
  have honce := h.conserved.once callback
  have hnone : unaccepted callback world = 0 := by omega
  obtain ⟨events, hlog, _, _⟩ := move_balanced hmove callback
  refine ⟨?_, events, hlog, by omega⟩
  unfold unaccepted at hnone
  by_contra hle
  rw [if_pos (by omega)] at hnone
  omega

theorem Cleared.old_cleared (h : Cleared world) (hmove : Move world next)
    (hregistered : RegisteredBefore world.log call owner callback) {identifier : String}
    {found : PendingRequest} (hfound : next.state.pending.get? identifier = some found)
    {registration : CallbackRegistration} (hmem : registration ∈ found.callbacks) :
    registration.callback ≠ callback := by
  obtain ⟨_, haccepted⟩ := hregistered.accepted
  rcases move_pending hmove hfound hmem with ⟨pending, hget, _, hold⟩ | ⟨_, _, _, _⟩
  · exact h.cleared call owner callback hregistered identifier pending hget registration hold
  · have hlt := (h.sound.not_accepted_again hmove haccepted).1
    omega

theorem Cleared.old_gone (h : Cleared world) (hmove : Move world next)
    (hcleaned : CleanedUp world.log call owner callback) :
    held callback next = 0 ∧ ∃ events, next.log = events ++ world.log ∧
      ∀ event, .entered callback event ∉ events := by
  obtain ⟨_, haccepted⟩ := hcleaned.registeredBefore.accepted
  obtain ⟨_, events, hlog, _⟩ := h.sound.not_accepted_again hmove haccepted
  have hzero := h.gone call owner callback hcleaned
  refine ⟨by omega, events, hlog, fun event hevent => ?_⟩
  have hpos : 0 < events.countP (Event.enters callback) :=
    countP_pos_of_mem hevent (decide_eq_true rfl)
  omega

theorem Cleared.old_final (h : Cleared world) (hmove : Move world next) {later : List Event}
    (hlog : next.log = events ++ world.log) {kept : List Event} (hkept : world.log =
      kept ++ .cleaned call owner :: (middle ++ .cleaning call owner :: earlier))
    (hlater : later = events ++ kept)
    (haccepted : .accepted callback (.addon owner) target ∈ earlier)
    (event : TextureCallbackEvent) : .entered callback event ∉ later := by
  intro hevent
  rw [hlater] at hevent
  rcases List.mem_append.mp hevent with hnew | hold
  · obtain ⟨_, _, hfound, hnone⟩ := h.old_gone hmove
      ⟨kept, _, hkept, middle, earlier, target, rfl, haccepted⟩
    rw [hlog] at hfound
    rw [List.append_cancel_right hfound] at hnew
    exact hnone event hnew
  · exact h.final kept middle earlier call owner callback target hkept haccepted event hold

theorem Cleared.quiet (h : Cleared world) (hmove : Move world next) (hquiet : Quiet world next) :
    Cleared next := by
  obtain ⟨events, hlog, hevents⟩ := hquiet
  have hcleaning : ∀ call owner, Event.cleaning call owner ∉ events :=
    fun call owner hmem => by cases hevents _ hmem
  have hcleaned : ∀ call owner, Event.cleaned call owner ∉ events :=
    fun call owner hmem => by cases hevents _ hmem
  refine ⟨h.sound.move hmove, fun call owner callback hregistered identifier found hfound
    registration hmem => ?_, fun call owner callback hdone => ?_,
    fun later middle earlier call owner callback target hsplit haccepted event => ?_⟩
  · rw [hlog] at hregistered
    exact h.old_cleared hmove (hregistered.of_append (hcleaning call owner)) hfound hmem
  · rw [hlog] at hdone
    exact (h.old_gone hmove (hdone.of_append (hcleaned call owner))).1
  · rw [hlog] at hsplit
    rcases split_append hsplit with ⟨_, hkept, hlater⟩ | ⟨_, hadded, _⟩
    · exact h.old_final hmove hlog hkept hlater haccepted event
    · exact absurd (hadded ▸ List.mem_append_right _ List.mem_cons_self) (hcleaned call owner)

theorem Cleared.cleanup (h : Cleared world)
    (hperm : order.Perm (abandoned (forgetOwner (.addon owner) world.state))) :
    Cleared (beginCleanup owner order world) := by
  have hmove : Move world (beginCleanup owner order world) := .cleans hperm
  have hlog : (beginCleanup owner order world).log =
      cleanupEvents world.calls.length owner order world.state ++ world.log := rfl
  have hcleaned : ∀ call found, Event.cleaned call found ∉
      cleanupEvents world.calls.length owner order world.state := by
    intro call found hmem
    unfold cleanupEvents at hmem
    rw [List.mem_append, List.mem_append] at hmem
    rcases hmem with (hremoved | hcancelled) | hcleaning
    · obtain ⟨_, _, heq⟩ := List.mem_map.mp hremoved
      cases heq
    · obtain ⟨_, _, _, _, heq⟩ := mem_cancelEvents hcancelled
      cases heq
    · cases List.mem_singleton.mp hcleaning
  refine ⟨h.sound.move hmove, fun call found callback hregistered identifier pending hpending
    registration hmem => ?_, fun call found callback hdone => ?_,
    fun later middle earlier call found callback target hsplit haccepted event => ?_⟩
  · rw [hlog] at hregistered
    obtain ⟨middle, earlier, target, hsplit, haccepted⟩ := hregistered
    rcases split_append hsplit with ⟨kept, hkept, _⟩ | ⟨added, hadded, hearlier⟩
    · exact h.old_cleared hmove ⟨kept, earlier, target, hkept, haccepted⟩ hpending hmem
    · -- the cleanup has just removed the owner's callbacks from the pending table
      obtain ⟨_, rfl, rfl⟩ := cleanupEvents_split hadded
      rw [hearlier, List.nil_append] at haccepted
      have hkept := (cleanupPending_get? hperm identifier).symm.trans hpending
      obtain ⟨before, hbefore, hkept⟩ := Option.bind_eq_some_iff.mp hkept
      split at hkept
      · cases hkept
      · cases hkept
        obtain ⟨hregistration, howner⟩ := List.mem_filter.mp hmem
        rintro rfl
        have hother := h.sound.waiting.pending identifier before hbefore registration hregistration
        exact of_decide_eq_true howner (h.sound.accepted_unique haccepted hother).1.symm
  · rw [hlog] at hdone
    exact (h.old_gone hmove (hdone.of_append (hcleaned call found))).1
  · rw [hlog] at hsplit
    rcases split_append hsplit with ⟨kept, hkept, hlater⟩ | ⟨added, hadded, _⟩
    · exact h.old_final hmove hlog hkept hlater haccepted event
    · exact absurd (hadded ▸ List.mem_append_right _ List.mem_cons_self) (hcleaned call found)

variable {removed : Nat}

/-- The sweep leaves nothing of the callbacks that were registered before its cleanup, if no dispatch
in progress holds one. -/
theorem Cleared.held_sweep (h : Cleared world)
    (hregistered : RegisteredBefore world.log call owner callback)
    (hquiet : ∀ (dispatcher : Nat) event callbacks continuation,
      world.calls[dispatcher]? = some (.dispatching event callbacks continuation) →
      ∀ delivery ∈ callbacks, ¬ RegisteredBefore world.log call owner delivery.2) :
    held callback (sweep call owner removed world) = 0 := by
  obtain ⟨_, haccepted⟩ := hregistered.accepted
  have hpending : world.state.pending.total (PendingRequest.holds callback) = 0 := by
    refine tally_eq_zero fun pending hmem => ?_
    obtain ⟨identifier, hget⟩ := SortedMap.mem_values_iff.mp hmem
    refine List.countP_eq_zero.mpr fun registration hregistration hsame => ?_
    exact h.cleared call owner callback hregistered identifier pending hget registration
      hregistration (of_decide_eq_true hsame)
  have hcompletions : tally (Completion.holds callback) (sweep call owner removed world).completions =
      0 := by
    refine tally_eq_zero fun completion hmem => ?_
    obtain ⟨hcompletion, hkept⟩ := List.mem_filter.mp hmem
    cases completion with
    | decoded => rfl
    | callback other event handler =>
      refine if_neg ?_
      rintro rfl
      obtain ⟨_, hfound, _⟩ := h.sound.waiting.ready other event handler hcompletion
      rw [← (h.sound.accepted_unique haccepted hfound).1] at hkept
      simp [Completion.isOwned] at hkept
  have hcalls : tally (Activation.holds callback) (sweep call owner removed world).calls = 0 := by
    refine tally_eq_zero fun activation hmem => ?_
    obtain ⟨dispatcher, hdispatcher⟩ := List.mem_iff_getElem?.mp hmem
    rcases getElem?_goOn hdispatcher with ⟨_, rfl⟩ | hold
    · rfl
    · cases activation with
      | dispatching event callbacks continuation =>
        refine List.countP_eq_zero.mpr fun delivery hdelivery hsame => ?_
        refine hquiet dispatcher event callbacks continuation hold delivery hdelivery ?_
        rw [of_decide_eq_true hsame]
        exact hregistered
      | _ => rfl
  unfold held stored
  rw [hcompletions, hcalls]
  exact hpending

theorem Cleared.sweep (h : Cleared world)
    (hcall : world.calls[call]? = some (.sweeping owner removed))
    (hquiet : ∀ (dispatcher : Nat) event callbacks continuation,
      world.calls[dispatcher]? = some (.dispatching event callbacks continuation) →
      ∀ delivery ∈ callbacks, ¬ RegisteredBefore world.log call owner delivery.2) :
    Cleared (Textures.sweep call owner removed world) := by
  have hmove : Move world (Textures.sweep call owner removed world) := .swept hcall
  have hlog : (Textures.sweep call owner removed world).log = .cleaned call owner ::
      ((world.completions.filter fun completion => completion.isOwned (.addon owner)).flatMap
        Completion.removal ++ world.log) := rfl
  have hremovals : ∀ event : Event, event.isCleanup = true → event ∉
      (world.completions.filter fun completion => completion.isOwned (.addon owner)).flatMap
        Completion.removal := by
    intro event hcleanup hmem
    rw [not_isCleanup_removals event hmem] at hcleanup
    cases hcleanup
  refine ⟨h.sound.move hmove, fun other found callback hregistered identifier pending hpending
    registration hmem => ?_, fun other found callback hdone => ?_,
    fun later middle earlier other found callback target hsplit haccepted event => ?_⟩
  · rw [hlog, ← List.cons_append] at hregistered
    refine h.old_cleared hmove (hregistered.of_append fun hcleaning => ?_) hpending hmem
    rcases List.mem_cons.mp hcleaning with heq | hremoval
    · cases heq
    · exact hremovals _ rfl hremoval
  · obtain ⟨later, rest, hsplit, hregistered⟩ := hdone
    rw [hlog] at hsplit
    rcases later with _ | ⟨first, later⟩
    · obtain ⟨heq, rfl⟩ := List.cons.inj hsplit
      cases heq
      exact h.held_sweep (hregistered.of_append (hremovals _ rfl)) hquiet
    · have hrest := (List.cons.inj hsplit).2
      have hdone : CleanedUp world.log other found callback :=
        CleanedUp.of_append (hremovals _ rfl) ⟨later, rest, hrest, hregistered⟩
      exact (h.old_gone hmove hdone).1
  · rw [hlog] at hsplit
    rcases later with _ | ⟨first, later⟩
    · exact List.not_mem_nil
    · rw [← List.cons_append] at hsplit
      rcases split_append hsplit with ⟨_, hkept, hlater⟩ | ⟨_, hadded, _⟩
      · exact h.old_final hmove hlog hkept hlater haccepted event
      · refine absurd ?_ (hremovals (.cleaned other found) rfl)
        rw [(List.cons.inj hadded).2]
        exact List.mem_append_right _ List.mem_cons_self

/-- What the first section of a cleanup does at once. -/
structure Cancels (owner : OwnerGeneration) (before after : World) : Prop where
  requests : ∀ identifier, after.state.pending.get? identifier =
    (before.state.pending.get? identifier).bind fun pending =>
      if (pending.withoutOwner (.addon owner)).isAbandoned then none
      else some (pending.withoutOwner (.addon owner))
  restored : ∀ identifier shadowAlias texture,
    Shadows before.state identifier shadowAlias texture →
      after.state.pending.get? identifier = none →
        (∃ other, after.state.registry.get? other = some texture ∧
          after.state.pending.get? other = none ∧
            ∃ found, Shadows before.state other found texture) ∧
        ((∀ other, after.state.pending.get? other = none →
            ¬ Shadows before.state other identifier texture) →
          after.state.registry.get? identifier = some texture)
  completions : after.completions = before.completions
  calls : ∀ (call : Nat) activation, before.calls[call]? = some activation →
    after.calls[call]? = some activation

theorem beginCleanup_cancels (hseparate : Separate world.state)
    (hperm : order.Perm (abandoned (forgetOwner (.addon owner) world.state))) :
    Cancels owner world (beginCleanup owner order world) where
  requests := fun identifier => cleanupPending_get? hperm identifier
  restored := by
    intro identifier shadowAlias texture hshadows hcancelled
    have hnodup : order.Nodup := by
      rw [hperm.nodup_iff]
      exact (List.filter_sublist.map Prod.fst).nodup
        ((forgetOwner (.addon owner) world.state).pending.sorted.imp fun h => h.ne)
    have hget : ∀ other, (forgetOwner (.addon owner) world.state).pending.get? other =
        (world.state.pending.get? other).map (PendingRequest.withoutOwner (.addon owner)) :=
      fun other => SortedMap.get?_mapValues ..
    have hsame : ∀ other found, Shadows (forgetOwner (.addon owner) world.state) other found
        texture ↔ Shadows world.state other found texture := by
      intro other found
      unfold Shadows
      rw [hget]
      constructor
      · rintro ⟨pending, hpending, hshadowed⟩
        obtain ⟨before, hbefore, rfl⟩ := Option.map_eq_some_iff.mp hpending
        exact ⟨before, hbefore, hshadowed⟩
      · rintro ⟨pending, hpending, hshadowed⟩
        exact ⟨pending.withoutOwner (.addon owner), by rw [hpending]; rfl, hshadowed⟩
    -- the cancelled requests are those that leave the pending table
    have hmem : ∀ other, other ∈ order ↔
        (forgetOwner (.addon owner) world.state).pending.get? other ≠ none ∧
          (beginCleanup owner order world).state.pending.get? other = none := by
      intro other
      show _ ↔ _ ∧ (cleanupPending (.addon owner) order world.state).pending.get? other = none
      unfold cleanupPending
      rw [foldl_cancelPending_get?]
      constructor
      · intro horder
        obtain ⟨pending, hpending, _⟩ := mem_abandoned.mp (hperm.mem_iff.mp horder)
        exact ⟨by rw [hpending]; exact Option.some_ne_none pending, if_pos horder⟩
      · rintro ⟨hsome, hnone⟩
        by_contra horder
        rw [if_neg horder] at hnone
        exact hsome hnone
    have hfree : ∀ other ∈ order,
        (forgetOwner (.addon owner) world.state).registry.get? other = none := by
      intro other horder
      rcases hregistry : world.state.registry.get? other with _ | found
      · exact hregistry
      · have hnone := hseparate other found hregistry
        have hsome := ((hmem other).mp horder).1
        rw [hget, hnone] at hsome
        exact absurd rfl hsome
    have hsomeOf : ∀ {other found}, Shadows world.state other found texture →
        (forgetOwner (.addon owner) world.state).pending.get? other ≠ none := by
      rintro other found ⟨pending, hpending, _⟩
      rw [hget, hpending]
      exact Option.some_ne_none _
    obtain ⟨⟨other, horder, hother, found, hfound⟩, hstill⟩ := foldl_cancelPending_restores hnodup
      hfree ((hmem identifier).mpr ⟨hsomeOf hshadows, hcancelled⟩)
      ((hsame identifier shadowAlias).mpr hshadows)
    refine ⟨⟨other, hother, ((hmem other).mp horder).2, found, (hsame other found).mp hfound⟩,
      fun hnone => hstill fun other horder hshadow => ?_⟩
    exact hnone other ((hmem other).mp horder).2 ((hsame other identifier).mp hshadow)
  completions := rfl
  calls := by
    intro call activation hcall
    show (world.calls ++ _)[call]? = some activation
    rw [List.getElem?_append_left]
    · exact hcall
    · by_contra hle
      rw [List.getElem?_eq_none (by omega)] at hcall
      cases hcall

/-- What the second section of a cleanup does at once. -/
structure Sweeps (owner : OwnerGeneration) (call : Nat) (before after : World) : Prop where
  completions : after.completions =
    before.completions.filter fun completion => !completion.isOwned (.addon owner)
  state : after.state = before.state
  calls : ∀ other : Nat, other ≠ call → after.calls[other]? = before.calls[other]?

theorem sweep_sweeps (call removed : Nat) (owner : OwnerGeneration) (world : World) :
    Sweeps owner call world (sweep call owner removed world) where
  completions := rfl
  state := rfl
  calls := fun _ hne => List.getElem?_set_ne (Ne.symm hne)

theorem Cleared.step {action : Action} (hstep : step world action = some next)
    (hquiet : SweepsQuietly world action) (h : Cleared world) : Cleared next := by
  rcases step_cases hstep with ⟨owner, _, _, hperm, rfl⟩ |
    ⟨call, answers, owner, removed, rfl, hcall, rfl⟩ | hnext
  · exact h.cleanup hperm
  · exact h.sweep hcall (hquiet call answers owner removed rfl hcall)
  · exact h.quiet (step_move hstep) hnext

/-- In every run in which no dispatch in progress holds an older callback of the owner when a cleanup
sweeps, no callback that was registered before a cleanup is entered after it returned. A cleanup
cancels exactly the requests that nobody else waits for, puts their shadowed textures back and leaves
the other callbacks and requests as they are. -/
theorem cleanup_final {config : TextureConfig} {actions : List Action}
    (hrun : runSteps step (World.new config) actions = some world)
    (hquiet : EveryStep step SweepsQuietly (World.new config) actions) :
    CleanupFinal world.log ∧
      (∀ owner order next, step world (.cleanup owner order) = some next →
        Cancels owner world next) ∧
      ∀ (call : Nat) answers owner removed next,
        world.calls[call]? = some (.sweeping owner removed) →
          step world (.resume call answers) = some next → Sweeps owner call world next := by
  refine ⟨(hquiet.invariant (fun _ _ _ => Cleared.step) hrun (cleared_new config)).final,
    fun owner order next h => ?_, fun call answers owner removed next hcall h => ?_⟩
  · obtain ⟨hperm, rfl⟩ := step_cleanup h
    exact beginCleanup_cancels ((run_preserves hrun).separate (separate_new config)) hperm
  · obtain ⟨_, hactivation, hresume⟩ := Option.bind_eq_some_iff.mp h
    cases hcall.symm.trans hactivation
    cases hresume
    exact sweep_sweeps ..

/-- Two callbacks of one owner wait for a request. Between them their owner is cleaned up, as the first
one may do itself. -/
def batchRun : List Action :=
  [.load "a" (.memory [1]) ⟨.addon ⟨1, 1⟩, false⟩ true,
    .load "a" (.memory [1]) ⟨.addon ⟨1, 1⟩, false⟩ true, .resume 0 answers, .resume 0 answers,
    .decode none (some pixel), .decode none (some pixel), .decode none (some pixel), .advance,
    .resume 2 answers, .resume 2 answers, .resume 2 answers, .resume 2 answers, .resume 2 answers,
    .cleanup ⟨1, 1⟩ [], .resume 3 answers, .resume 2 answers]

theorem cleaned_callback_entered : ∃ world,
    runSteps step (World.new smallConfig) batchRun = some world ∧ ¬ CleanupFinal world.log := by
  refine ⟨_, rfl, fun h => ?_⟩
  exact h [.entered 1 _] [] _ 3 ⟨1, 1⟩ 1 (.request "a" 1) rfl
    (.tail _ (.tail _ (.tail _ (.tail _ (.head _))))) _ (List.mem_singleton_self _)

def cleanedRun : List Action :=
  [.load "a" (.memory [1]) ⟨.addon ⟨1, 1⟩, false⟩ true, .cleanup ⟨1, 1⟩ ["a"], .resume 1 answers]

theorem cleanedRun_quiet : EveryStep step SweepsQuietly (World.new smallConfig) cleanedRun := by
  refine everyStep_cons.mpr ⟨fun _ _ _ _ haction => (by cases haction), fun loaded hloaded => ?_⟩
  cases hloaded
  refine everyStep_cons.mpr ⟨fun _ _ _ _ haction => (by cases haction), fun begun hbegun => ?_⟩
  cases hbegun
  refine everyStep_cons.mpr ⟨fun call found owner removed _ _ dispatcher event callbacks continuation
    hcall => ?_, fun _ _ => trivial⟩
  rcases dispatcher with _ | _ | dispatcher <;> cases hcall

theorem cleaned_request_final : ∃ world,
    runSteps step (World.new smallConfig) cleanedRun = some world ∧ CleanupFinal world.log := by
  obtain ⟨world, hworld⟩ : ∃ world,
      runSteps step (World.new smallConfig) cleanedRun = some world :=
    Option.isSome_iff_exists.mp rfl
  exact ⟨world, hworld, (cleanup_final hworld cleanedRun_quiet).1⟩

end Nexus.Textures
