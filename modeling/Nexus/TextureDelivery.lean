import Nexus.TextureClosings

namespace Nexus.Textures

open StepRuns

/-- The event is the result of what the callback was accepted for. -/
def Delivers (log : List Event) (event : TextureCallbackEvent) : Target → Prop
  | .request identifier requestId =>
    event.identifier = identifier ∧ .resolved identifier requestId event.result ∈ log
  | .cached identifier texture => event = ⟨identifier, .ok texture⟩

def Due (log : List Event) (owner : RequestOwner) (callback : Nat) (event : TextureCallbackEvent) :
    Prop := ∃ target, .accepted callback owner target ∈ log ∧ Delivers log event target

variable {world next : World} {log later : List Event} {event : TextureCallbackEvent}

theorem Delivers.mono {target : Target} (h : Delivers log event target)
    (hlog : ∀ found ∈ log, found ∈ later) : Delivers later event target := by
  cases target with
  | request => exact ⟨h.1, hlog _ h.2⟩
  | cached => exact h

theorem Due.mono {owner : RequestOwner} {callback : Nat} (h : Due log owner callback event)
    (hlog : ∀ found ∈ log, found ∈ later) : Due later owner callback event := by
  obtain ⟨target, haccepted, hdelivers⟩ := h
  exact ⟨target, hlog _ haccepted, hdelivers.mono hlog⟩

/-- Every callback that waits somewhere was accepted for what it waits for. -/
structure Waiting (world : World) : Prop where
  pending : ∀ identifier pending, world.state.pending.get? identifier = some pending →
    ∀ registration ∈ pending.callbacks, .accepted registration.callback registration.owner
      (.request identifier pending.requestId) ∈ world.log
  ready : ∀ owner event callback, .callback owner event callback ∈ world.completions →
    Due world.log owner callback event
  dispatched : ∀ (call : Nat) event callbacks next,
    world.calls[call]? = some (.dispatching event callbacks next) → ∀ delivery ∈ callbacks,
      Due world.log delivery.1 delivery.2 event
  uploading : ∀ (call : Nat) identifier requestId result remaining,
    world.calls[call]? = some (.uploading identifier requestId result remaining) →
      .matched identifier requestId ∈ world.log
  entered : ∀ callback event, .entered callback event ∈ world.log →
    ∃ owner, Due world.log owner callback event
  removed : ∀ callback owner, .removed callback owner ∈ world.log →
    ∃ target, .accepted callback owner target ∈ world.log

theorem waiting_new (config : TextureConfig) : Waiting (World.new config) := by
  constructor
  · intro identifier pending h
    cases h
  · intro owner event callback h
    cases h
  · intro call event callbacks next h
    cases h
  · intro call identifier requestId result remaining h
    cases h
  · intro callback event h
    cases h
  · intro callback owner h
    cases h

theorem Waiting.move (h : Waiting world) (hmove : Move world next) : Waiting next := by
  have hlog : ∀ event ∈ world.log, event ∈ next.log := fun _ hevent => move_log hmove hevent
  constructor
  · intro identifier found hfound registration hmem
    rcases move_pending hmove hfound hmem with ⟨pending, hget, hid, hold⟩ | ⟨_, _, _, haccepted⟩
    · rw [← hid]
      exact hlog _ (h.pending identifier pending hget registration hold)
    · exact haccepted
  · intro owner event callback hmem
    rcases move_completions hmove hmem with hold | ⟨texture, hresult, haccepted⟩
    · exact (h.ready owner event callback hold).mono hlog
    · refine ⟨_, haccepted, ?_⟩
      show event = ⟨event.identifier, .ok texture⟩
      rw [← hresult]
  · intro call event callbacks continuation hcall delivery hmem
    rcases move_arrived hmove hcall with hold | harrived
    · exact (h.dispatched call event callbacks continuation hold delivery hmem).mono hlog
    · cases harrived with
      | plain hplain => cases hplain
      | emptied => cases hmem
      | popped hcompletion =>
        cases List.mem_singleton.mp hmem
        exact (h.ready _ _ _ hcompletion).mono hlog
      | settled hget hcallbacks hresolved =>
        obtain ⟨registration, hregistration, rfl⟩ := hcallbacks delivery hmem
        exact ⟨_, hlog _ (h.pending _ _ hget registration hregistration), rfl, hresolved⟩
      | entered hold =>
        exact (h.dispatched _ _ _ _ hold delivery (List.mem_cons_of_mem _ hmem)).mono hlog
  · intro call identifier requestId result remaining hcall
    rcases move_arrived hmove hcall with hold | harrived
    · exact hlog _ (h.uploading call identifier requestId result remaining hold)
    · cases harrived with
      | plain hplain => cases hplain
      | uploading hmatched => exact hmatched
  · intro callback event hevent
    rcases move_caused hmove hevent with hold | hcaused
    · obtain ⟨owner, hdue⟩ := h.entered callback event hold
      exact ⟨owner, hdue.mono hlog⟩
    · cases hcaused with
      | entered hcall =>
        exact ⟨_, (h.dispatched _ _ _ _ hcall _ List.mem_cons_self).mono hlog⟩
  · intro callback owner hevent
    rcases move_caused hmove hevent with hold | hcaused
    · obtain ⟨target, haccepted⟩ := h.removed callback owner hold
      exact ⟨target, hlog _ haccepted⟩
    · cases hcaused with
      | removed hget hmem => exact ⟨_, hlog _ (h.pending _ _ hget _ hmem)⟩
      | swept hcompletion =>
        obtain ⟨target, haccepted, _⟩ := h.ready _ _ _ hcompletion
        exact ⟨target, hlog _ haccepted⟩

def Activation.primary : Activation → Option Nat
  | .resolving _ _ primaryCallbackId _ => primaryCallbackId
  | .failing _ _ _ excludedCallbackId _ => excludedCallbackId
  | _ => none

theorem Activation.primary_of_isPlain {activation : Activation} (h : activation.isPlain = true) :
    activation.primary = none := by
  cases activation with
  | resolving | failing => cases h
  | _ => rfl

/-- As long as no callback id came back, the id that a call excludes is that of its own callback. -/
structure Identified (world : World) : Prop where
  callbackIds : world.state.nextCallbackId ≤ world.calls.length + 1
  registered : world.calls.length + 1 < 2 ^ 64 → ∀ identifier pending,
    world.state.pending.get? identifier = some pending → ∀ registration ∈ pending.callbacks,
      registration.id < world.state.nextCallbackId
  primary : world.calls.length + 1 < 2 ^ 64 → ∀ (call : Nat) activation id,
    world.calls[call]? = some activation → activation.primary = some id →
      id < world.state.nextCallbackId ∧ ∀ identifier pending,
        world.state.pending.get? identifier = some pending → ∀ registration ∈ pending.callbacks,
          registration.id = id → registration.callback = call
  excluded : world.calls.length + 1 < 2 ^ 64 → ∀ callback call,
    .excluded callback call ∈ world.log → callback = call

theorem identified_new (config : TextureConfig) : Identified (World.new config) := by
  refine ⟨le_refl 1, fun _ identifier pending h => ?_, fun _ call activation id h => ?_,
    fun _ callback call h => ?_⟩
  · cases h
  · cases h
  · cases h

theorem Identified.move (h : Identified world) (hmove : Move world next) : Identified next := by
  have hcalls := move_calls hmove
  have hids := h.callbackIds
  have hgrows : next.calls.length + 1 < 2 ^ 64 →
      world.state.nextCallbackId ≤ next.state.nextCallbackId := by
    intro hbound
    rcases move_nextCallbackId hmove with heq | ⟨heq, hlength⟩
    · rw [heq]
    · rw [heq, nextId_eq (by omega)]
      omega
  -- a registration of the next state is old, or is the new call's under the next id
  have hregistration : next.calls.length + 1 < 2 ^ 64 → ∀ {identifier found}
      {registration : CallbackRegistration},
      next.state.pending.get? identifier = some found → registration ∈ found.callbacks →
      (∃ pending, world.state.pending.get? identifier = some pending ∧
        registration ∈ pending.callbacks ∧ registration.id < world.state.nextCallbackId) ∨
      registration.id = world.state.nextCallbackId ∧ registration.callback = world.calls.length ∧
        next.state.nextCallbackId = world.state.nextCallbackId + 1 := by
    intro hbound identifier found registration hfound hmem
    rcases move_pending hmove hfound hmem with ⟨pending, hget, _, hold⟩ | ⟨hid, hcallback, hnext, _⟩
    · exact Or.inl ⟨pending, hget, hold, h.registered (by omega) _ _ hget _ hold⟩
    · refine Or.inr ⟨hid, hcallback, ?_⟩
      rcases move_nextCallbackId hmove with heq | ⟨heq, hlength⟩
      · rw [heq] at hnext
        unfold nextId at hnext
        split at hnext <;> omega
      · rw [heq, nextId_eq (by omega)]
  refine ⟨?_, fun hbound identifier found hfound registration hmem => ?_,
    fun hbound call activation id hcall hprimary => ?_, fun hbound callback call hevent => ?_⟩
  · rcases move_nextCallbackId hmove with heq | ⟨heq, hlength⟩
    · omega
    · rw [heq, hlength]
      exact (nextId_le _).trans (by omega)
  · have hle := hgrows hbound
    rcases hregistration hbound hfound hmem with ⟨_, _, _, hlt⟩ | ⟨hid, _, hnext⟩
    · omega
    · omega
  · have hle := hgrows hbound
    have hsame : ∀ before, world.calls[call]? = some before → before.primary = some id →
        id < next.state.nextCallbackId ∧ ∀ identifier found,
          next.state.pending.get? identifier = some found →
            ∀ registration ∈ found.callbacks, registration.id = id →
              registration.callback = call := by
      intro before hbefore hid
      obtain ⟨hlt, hunique⟩ := h.primary (by omega) call before id hbefore hid
      refine ⟨by omega, fun identifier found hfound registration hmem hsame => ?_⟩
      rcases hregistration hbound hfound hmem with ⟨pending, hget, hold, _⟩ | ⟨_, _, _⟩
      · exact hunique identifier pending hget registration hold hsame
      · omega
    rcases move_arrived hmove hcall with hold | harrived
    · exact hsame activation hold hprimary
    · cases harrived with
      | plain hplain =>
        rw [Activation.primary_of_isPlain hplain] at hprimary
        cases hprimary
      | resolving hbegun hprimaryId =>
        obtain ⟨rfl, hnext⟩ := hprimaryId id hprimary
        have hlength : call < next.calls.length := by
          by_contra hle'
          rw [List.getElem?_eq_none (by omega)] at hcall
          cases hcall
        rw [nextId_eq (by omega)] at hnext
        refine ⟨by omega, fun identifier found hfound registration hmem hid => ?_⟩
        rcases hregistration hbound hfound hmem with ⟨_, _, _, hlt⟩ | ⟨_, hcallback, _⟩
        · omega
        · rw [hcallback, hbegun]
      | failing hexcluded =>
        rcases hexcluded with hnone | ⟨_, hold⟩
        · rw [hnone] at hprimary
          cases hprimary
        · exact hsame _ hold hprimary
      | uploading | emptied | popped | settled | entered => cases hprimary
  · rcases move_caused hmove hevent with hold | hcaused
    · exact h.excluded (by omega) callback call hold
    · cases hcaused with
      | excluded hcall hget hmem hid =>
        exact (h.primary (by omega) call _ _ hcall rfl).2 _ _ hget _ hmem hid

/-- A result goes to the GPU after a check that found its request pending, and no check does so
once the request is closed. -/
def Checked : Event → List Event → Prop
  | .matched identifier requestId, earlier =>
    ∀ event ∈ earlier, event.closes identifier requestId = false
  | .uploaded identifier requestId, earlier => .matched identifier requestId ∈ earlier
  | _, _ => True

def Event.isCheck : Event → Bool
  | .matched .. => true
  | .uploaded .. => true
  | _ => false

theorem checked_of_not_isCheck {event : Event} (h : event.isCheck = false) (earlier : List Event) :
    Checked event earlier := by
  cases event with
  | matched | uploaded => cases h
  | _ => exact trivial

theorem eachChecked_append {events : List Event}
    (hevents : ∀ event ∈ events, event.isCheck = false) (hlog : EachEvent Checked log) :
    EachEvent Checked (events ++ log) := by
  induction events with
  | nil => exact hlog
  | cons event _ ih =>
    exact ⟨checked_of_not_isCheck (hevents event List.mem_cons_self) _,
      ih fun other hother => hevents other (List.mem_cons_of_mem _ hother)⟩

theorem isCheck_acceptances {identifier : String} {requestId : Nat}
    {registration : Option CallbackRegistration} :
    ∀ event ∈ acceptances identifier requestId registration, event.isCheck = false := by
  intro event hevent
  obtain ⟨_, _, rfl⟩ := List.mem_map.mp hevent
  rfl

theorem move_checked (h : Move world next) (hwaiting : Waiting world) (hclosed : ClosedOnce world)
    (hbound : world.calls.length + 1 < 2 ^ 64) (hlog : EachEvent Checked world.log) :
    EachEvent Checked next.log := by
  cases h with
  | joined | opened => exact eachChecked_append isCheck_acceptances hlog
  | cleans =>
    refine eachChecked_append (fun event hevent => ?_) hlog
    unfold cleanupEvents at hevent
    rw [List.mem_append, List.mem_append] at hevent
    rcases hevent with (hremoved | hcancelled) | hcleaning
    · obtain ⟨registration, _, rfl⟩ := List.mem_map.mp hremoved
      rfl
    · obtain ⟨_, _, _, _, rfl⟩ := mem_cancelEvents hcancelled
      rfl
    · rw [List.mem_singleton.mp hcleaning]
      rfl
  | notified | finished | entered => exact ⟨trivial, hlog⟩
  | @checked _ identifier requestId _ _ _ _ hget hid =>
    refine ⟨fun event hevent => ?_, hlog⟩
    have honce := hclosed hbound identifier requestId
    unfold unclosed at honce
    rw [pendingAs_of_some hget, if_pos hid] at honce
    have hzero : world.log.countP (Event.closes identifier requestId) = 0 := by omega
    exact Bool.eq_false_iff.mpr (List.countP_eq_zero.mp hzero event hevent)
  | uploaded hcall => exact ⟨hwaiting.uploading _ _ _ _ _ hcall, hlog⟩
  | failed =>
    refine eachChecked_append (fun event hevent => ?_) hlog
    rcases List.mem_append.mp hevent with hexcluded | hresolved
    · obtain ⟨registration, _, rfl⟩ := List.mem_map.mp hexcluded
      rfl
    · rw [List.mem_singleton.mp hresolved]
      rfl
  | swept =>
    refine eachChecked_append (fun event hevent => ?_) hlog
    rcases List.mem_cons.mp hevent with rfl | hremoved
    · rfl
    · obtain ⟨completion, _, hremoval⟩ := List.mem_flatMap.mp hremoved
      cases completion with
      | decoded => cases hremoval
      | callback =>
        rw [List.mem_singleton.mp hremoval]
        rfl
  | _ => exact hlog

structure Sound (world : World) : Prop where
  conserved : Conserved world
  requested : Requested world
  closed : ClosedOnce world
  waiting : Waiting world
  identified : Identified world
  checked : world.calls.length + 1 < 2 ^ 64 → EachEvent Checked world.log

theorem Sound.move (h : Sound world) (hmove : Move world next) : Sound next where
  conserved := h.conserved.move hmove
  requested := h.requested.move hmove
  closed := h.closed.move h.requested hmove
  waiting := h.waiting.move hmove
  identified := h.identified.move hmove
  checked := by
    intro hbound
    have hcalls := move_calls hmove
    exact move_checked hmove h.waiting h.closed (by omega) (h.checked (by omega))

theorem sound_new (config : TextureConfig) : Sound (World.new config) where
  conserved := conserved_new config
  requested := requested_new config
  closed := closedOnce_new config
  waiting := waiting_new config
  identified := identified_new config
  checked := fun _ => trivial

structure Drained (world : World) : Prop where
  work : world.work = []
  downloads : world.downloads = []
  completions : world.completions = []
  decodeWorker : world.decodeWorker = .idle
  downloadWorker : world.downloadWorker = .idle
  calls : ∀ activation ∈ world.calls, ∃ outcome, activation = .returned outcome

theorem Drained.pending (h : Drained world) (hrequested : Requested world)
    (hbound : world.calls.length + 1 < 2 ^ 64) (identifier : String) :
    world.state.pending.get? identifier = none := by
  rcases hget : world.state.pending.get? identifier with _ | pending
  · rfl
  · have hone := hrequested.carried hbound identifier pending hget
    have hcalls : tally (Activation.carries identifier pending.requestId) world.calls = 0 := by
      refine tally_eq_zero fun activation hmem => ?_
      obtain ⟨_, rfl⟩ := h.calls activation hmem
      rfl
    unfold carriers queued at hone
    rw [h.work, h.downloads, h.completions, h.decodeWorker, h.downloadWorker, hcalls] at hone
    cases hone

theorem Drained.held (h : Drained world) (hrequested : Requested world)
    (hbound : world.calls.length + 1 < 2 ^ 64) (callback : Nat) : held callback world = 0 := by
  have hcalls : tally (Activation.holds callback) world.calls = 0 := by
    refine tally_eq_zero fun activation hmem => ?_
    obtain ⟨_, rfl⟩ := h.calls activation hmem
    rfl
  have hpending : world.state.pending.total (PendingRequest.holds callback) = 0 := by
    refine tally_eq_zero fun pending hmem => ?_
    obtain ⟨identifier, hget⟩ := SortedMap.mem_values_iff.mp hmem
    rw [h.pending hrequested hbound identifier] at hget
    cases hget
  unfold Textures.held stored
  rw [hpending, h.completions, hcalls]
  rfl

theorem countP_pos_of_mem {p : Event → Bool} {event : Event} (hmem : event ∈ log)
    (h : p event = true) : 0 < log.countP p :=
  List.countP_pos_iff.mpr ⟨event, hmem, h⟩

section Sound

variable {callback : Nat} {owner : RequestOwner} {target : Target}

theorem Sound.accepted_unique (h : Sound world) {other : RequestOwner} {found : Target}
    (haccepted : .accepted callback owner target ∈ world.log)
    (hfound : .accepted callback other found ∈ world.log) : owner = other ∧ target = found := by
  have hle : world.log.countP (Event.accepts callback) ≤ 1 := by
    have honce := h.conserved.once callback
    omega
  have heq := countP_unique hle haccepted hfound (decide_eq_true rfl) (decide_eq_true rfl)
  cases heq
  exact ⟨rfl, rfl⟩

theorem Sound.delivers (h : Sound world) {event : TextureCallbackEvent}
    (haccepted : .accepted callback owner target ∈ world.log)
    (hentered : .entered callback event ∈ world.log) : Delivers world.log event target := by
  obtain ⟨_, _, hfound, hdelivers⟩ := h.waiting.entered callback event hentered
  rw [(h.accepted_unique haccepted hfound).2]
  exact hdelivers

/-- Once nothing is left to do, an accepted callback was entered, or it was dropped because its
owner was cleaned up or because it was the excluded callback of its own call. -/
theorem Sound.settled (h : Sound world) (hbound : world.calls.length + 1 < 2 ^ 64)
    (hdrained : Drained world) (haccepted : .accepted callback owner target ∈ world.log) :
    (∃ event, .entered callback event ∈ world.log) ∨
      (∀ event, .entered callback event ∉ world.log) ∧
        (.removed callback owner ∈ world.log ∨ .excluded callback callback ∈ world.log) := by
  have hbalanced := h.conserved.balanced callback
  have hpos : 0 < world.log.countP (Event.accepts callback) :=
    countP_pos_of_mem haccepted (decide_eq_true rfl)
  rw [hdrained.held h.requested hbound callback] at hbalanced
  by_cases hentered : ∃ event, Event.entered callback event ∈ world.log
  · exact Or.inl hentered
  have hnone : world.log.countP (Event.enters callback) = 0 := by
    refine List.countP_eq_zero.mpr fun event hevent henters => ?_
    cases event with
    | entered _ event =>
      cases of_decide_eq_true henters
      exact hentered ⟨event, hevent⟩
    | _ => cases henters
  have hdrops : 0 < world.log.countP (Event.drops callback) := by omega
  obtain ⟨event, hevent, hdrop⟩ := List.countP_pos_iff.mp hdrops
  refine Or.inr ⟨fun event hevent => hentered ⟨event, hevent⟩, ?_⟩
  cases event with
  | removed _ other =>
    cases of_decide_eq_true hdrop
    obtain ⟨_, hfound⟩ := h.waiting.removed callback other hevent
    rw [(h.accepted_unique haccepted hfound).1]
    exact Or.inl hevent
  | excluded _ call =>
    cases of_decide_eq_true hdrop
    rw [← h.identified.excluded hbound callback call hevent] at hevent
    exact Or.inr hevent
  | _ => cases hdrop

end Sound

end Nexus.Textures
