import Nexus.EventLog
import Nexus.TextureCarriers

namespace Nexus.Textures

variable {world next : World} {call requestId : Nat} {identifier : String}
  {activation found : Activation}

theorem getElem?_begin (h : (world.begin activation).calls[call]? = some found) :
    call = world.calls.length ∧ found = activation ∨ world.calls[call]? = some found := by
  rw [begin_calls, List.getElem?_append] at h
  split at h
  · exact Or.inr h
  next =>
    rcases hdiff : call - world.calls.length with _ | _
    · rw [hdiff] at h
      exact Or.inl ⟨by omega, (Option.some.inj h).symm⟩
    · rw [hdiff] at h
      cases h

theorem getElem?_goOn {moved : Nat} (h : (world.goOn moved activation).calls[call]? = some found) :
    call = moved ∧ found = activation ∨ world.calls[call]? = some found := by
  rw [goOn_calls, List.getElem?_set] at h
  split at h
  next hmoved =>
    split at h
    · exact Or.inl ⟨hmoved.symm, (Option.some.inj h).symm⟩
    · cases h
  next => exact Or.inr h

/-- An activation that waits for nothing and gives no callback away. -/
def Activation.isPlain : Activation → Bool
  | .resolving .. => false
  | .failing .. => false
  | .uploading .. => false
  | .dispatching .. => false
  | _ => true

/-- Where the calls of a state come from that were not in the state before. -/
inductive Arrived (before after : World) (call : Nat) : Activation → Prop
  | plain {activation : Activation} : activation.isPlain = true → Arrived before after call activation
  | resolving {identifier : String} {requestId : Nat} {primary : Option Nat}
      {source : Option TextureSource} : call = before.calls.length →
      (∀ id ∈ primary, id = before.state.nextCallbackId ∧
        after.state.nextCallbackId = nextId before.state.nextCallbackId) →
      Arrived before after call (.resolving identifier requestId primary source)
  | failing {identifier : String} {requestId : Nat} {error : TextureError} {excluded : Option Nat}
      {outcome : Outcome} : (excluded = none ∨ ∃ source,
        before.calls[call]? = some (.resolving identifier requestId excluded source)) →
      Arrived before after call (.failing identifier requestId error excluded outcome)
  | uploading {identifier : String} {requestId remaining : Nat}
      {result : Except TextureError DecodedImage} : .matched identifier requestId ∈ after.log →
      Arrived before after call (.uploading identifier requestId result remaining)
  | emptied {event : TextureCallbackEvent} {next : Continuation} :
      Arrived before after call (.dispatching event [] next)
  | popped {owner : RequestOwner} {event : TextureCallbackEvent} {callback : Nat}
      {next : Continuation} : .callback owner event callback ∈ before.completions →
      Arrived before after call (.dispatching event [(owner, callback)] next)
  | settled {identifier : String} {result : Except TextureError TextureHandle}
      {pending : PendingRequest} {callbacks : List (RequestOwner × Nat)} {next : Continuation} :
      before.state.pending.get? identifier = some pending →
      (∀ delivery ∈ callbacks, ∃ registration ∈ pending.callbacks,
        delivery = (registration.owner, registration.callback)) →
      .resolved identifier pending.requestId result ∈ after.log →
      Arrived before after call (.dispatching ⟨identifier, result⟩ callbacks next)
  | entered {event : TextureCallbackEvent} {delivery : RequestOwner × Nat}
      {rest : List (RequestOwner × Nat)} {next : Continuation} :
      before.calls[call]? = some (.dispatching event (delivery :: rest) next) →
      Arrived before after call (.dispatching event rest next)

theorem Turn.arrived {before after : Activation} (hcall : world.calls[call]? = some before)
    (h : Turn before after) : Arrived world next call after := by
  cases h with
  | unresolved hexcluded =>
    refine .failing ?_
    rcases hexcluded with rfl | rfl
    · exact Or.inl rfl
    · exact Or.inr ⟨_, hcall⟩
  | queueFull => exact .failing (Or.inl rfl)
  | @dispatched _ continuation => cases continuation <;> exact .plain rfl
  | _ => exact .plain rfl

theorem Drops.arrived {state : RegistryState} {before after : Activation}
    (h : Drops state before after) : Arrived world next call after := by
  cases h with
  | gone => exact .emptied
  | _ => exact .plain rfl

theorem mem_deliveries {callbacks : List CallbackRegistration} {delivery : RequestOwner × Nat}
    (h : delivery ∈ deliveries callbacks) :
    ∃ registration ∈ callbacks, delivery = (registration.owner, registration.callback) := by
  obtain ⟨registration, hmem, heq⟩ := List.mem_map.mp h
  exact ⟨registration, hmem, heq.symm⟩

theorem move_arrived (h : Move world next) (hfound : next.calls[call]? = some found) :
    world.calls[call]? = some found ∨ Arrived world next call found := by
  cases h with
  | answered | refused | hit | joined | advances | cleans =>
    rcases getElem?_begin hfound with ⟨_, rfl⟩ | hold
    · exact Or.inr (.plain rfl)
    · exact Or.inl hold
  | @opened _ _ _ _ _ _ _ hnumbered =>
    rcases getElem?_begin hfound with ⟨hcall, rfl⟩ | hold
    · refine Or.inr (.resolving hcall fun id hid => ?_)
      obtain ⟨found, hfound, rfl⟩ := Option.mem_map.mp hid
      have hnext := hnumbered.nextCallbackId
      rw [Option.mem_def.mp hfound, Option.isSome_some, if_pos rfl] at hnext
      exact ⟨by rw [hnumbered.named found hfound], hnext⟩
    · exact Or.inl hold
  | turned hcall hturn =>
    rcases getElem?_goOn hfound with ⟨rfl, rfl⟩ | hold
    · exact Or.inr (hturn.arrived hcall)
    · exact Or.inl hold
  | dropped _ hdrops =>
    rcases getElem?_goOn hfound with ⟨rfl, rfl⟩ | hold
    · exact Or.inr hdrops.arrived
    · exact Or.inl hold
  | notified | queuedWork | queuedDownload | uploaded | swept =>
    rcases getElem?_goOn hfound with ⟨rfl, rfl⟩ | hold
    · exact Or.inr (.plain rfl)
    · exact Or.inl hold
  | @popped _ _ _ completion _ _ hcompletions =>
    rcases getElem?_goOn hfound with ⟨rfl, rfl⟩ | hold
    · cases completion with
      | decoded => exact Or.inr (.plain rfl)
      | callback =>
        exact Or.inr (.popped (by rw [hcompletions]; exact List.mem_cons_self))
    · exact Or.inl hold
  | checked =>
    rcases getElem?_goOn hfound with ⟨rfl, rfl⟩ | hold
    · exact Or.inr (.uploading List.mem_cons_self)
    · exact Or.inl hold
  | failed _ hget hid =>
    rcases getElem?_goOn hfound with ⟨rfl, rfl⟩ | hold
    · refine Or.inr (.settled hget (fun delivery hmem => ?_) ?_)
      · obtain ⟨registration, hregistration, heq⟩ := mem_deliveries hmem
        exact ⟨registration, List.mem_of_mem_filter hregistration, heq⟩
      · rw [hid]
        exact List.mem_append_left _ (List.mem_append_right _ (List.mem_singleton_self _))
    · exact Or.inl hold
  | finished _ hget hid =>
    rcases getElem?_goOn hfound with ⟨rfl, rfl⟩ | hold
    · refine Or.inr (.settled hget (fun delivery hmem => mem_deliveries hmem) ?_)
      rw [hid]
      exact List.mem_cons_self
    · exact Or.inl hold
  | entered hcall =>
    rcases getElem?_goOn hfound with ⟨rfl, rfl⟩ | hold
    · exact Or.inr (.entered hcall)
    · exact Or.inl hold
  | decodeTaken | decodeRan | decodePushed | downloadTaken | downloadRan | downloadPushed =>
    exact Or.inl hfound

inductive Caused (before : World) : Event → Prop
  | accepted {callback : Nat} {owner : RequestOwner} {target : Target} :
      Caused before (.accepted callback owner target)
  | entered {callback call : Nat} {owner : RequestOwner} {event : TextureCallbackEvent}
      {rest : List (RequestOwner × Nat)} {next : Continuation} :
      before.calls[call]? = some (.dispatching event ((owner, callback) :: rest) next) →
      Caused before (.entered callback event)
  | removed {identifier : String} {pending : PendingRequest}
      {registration : CallbackRegistration} :
      before.state.pending.get? identifier = some pending → registration ∈ pending.callbacks →
      Caused before (.removed registration.callback registration.owner)
  | swept {owner : RequestOwner} {event : TextureCallbackEvent} {callback : Nat} :
      .callback owner event callback ∈ before.completions → Caused before (.removed callback owner)
  | excluded {call requestId id : Nat} {identifier : String} {error : TextureError}
      {outcome : Outcome} {pending : PendingRequest} {registration : CallbackRegistration} :
      before.calls[call]? = some (.failing identifier requestId error (some id) outcome) →
      before.state.pending.get? identifier = some pending → registration ∈ pending.callbacks →
      registration.id = id → Caused before (.excluded registration.callback call)
  | matched {identifier : String} {pending : PendingRequest} :
      before.state.pending.get? identifier = some pending →
      Caused before (.matched identifier pending.requestId)
  | uploaded {call requestId remaining : Nat} {identifier : String}
      {result : Except TextureError DecodedImage} :
      before.calls[call]? = some (.uploading identifier requestId result remaining) →
      Caused before (.uploaded identifier requestId)
  | resolved {identifier : String} {pending : PendingRequest}
      {result : Except TextureError TextureHandle} :
      before.state.pending.get? identifier = some pending →
      Caused before (.resolved identifier pending.requestId result)
  | cancelled {identifier : String} {pending : PendingRequest} :
      before.state.pending.get? identifier = some pending →
      Caused before (.cancelled identifier pending.requestId)
  | cleaning {call : Nat} {owner : OwnerGeneration} : Caused before (.cleaning call owner)
  | cleaned {call : Nat} {owner : OwnerGeneration} : Caused before (.cleaned call owner)

variable {state : RegistryState} {registration : CallbackRegistration}

theorem mem_ownedCallbacks {target : RequestOwner}
    (h : registration ∈ ownedCallbacks target state) :
    registration.owner = target ∧ ∃ identifier pending,
      state.pending.get? identifier = some pending ∧ registration ∈ pending.callbacks := by
  obtain ⟨pending, hvalues, hmem⟩ := List.mem_flatMap.mp h
  obtain ⟨identifier, hget⟩ := SortedMap.mem_values_iff.mp hvalues
  rw [List.mem_filter, decide_eq_true_eq] at hmem
  exact ⟨hmem.2, identifier, pending, hget, hmem.1⟩

variable {event : Event}

theorem mem_cancelEvents {order : List String} (h : event ∈ cancelEvents order state) :
    ∃ identifier ∈ order, ∃ pending,
      state.pending.get? identifier = some pending ∧
        event = .cancelled identifier pending.requestId := by
  obtain ⟨identifier, hmem, hmap⟩ := List.mem_filterMap.mp h
  obtain ⟨pending, hget, rfl⟩ := Option.map_eq_some_iff.mp hmap
  exact ⟨identifier, hmem, pending, hget, rfl⟩

theorem mem_acceptances {registration : Option CallbackRegistration}
    (h : event ∈ acceptances identifier requestId registration) : Caused world event := by
  obtain ⟨_, _, rfl⟩ := List.mem_map.mp h
  exact .accepted

theorem move_caused (h : Move world next) (hevent : event ∈ next.log) :
    event ∈ world.log ∨ Caused world event := by
  cases h with
  | joined | opened =>
    rcases List.mem_append.mp hevent with hnew | hold
    · exact Or.inr (mem_acceptances hnew)
    · exact Or.inl hold
  | @cleans =>
    rcases List.mem_append.mp hevent with hnew | hold
    · unfold cleanupEvents at hnew
      rw [List.mem_append, List.mem_append] at hnew
      rcases hnew with (hremoved | hcancelled) | hcleaning
      · obtain ⟨registration, hmem, rfl⟩ := List.mem_map.mp hremoved
        obtain ⟨_, identifier, pending, hget, hcallback⟩ := mem_ownedCallbacks hmem
        exact Or.inr (.removed hget hcallback)
      · obtain ⟨identifier, _, pending, hget, rfl⟩ := mem_cancelEvents hcancelled
        exact Or.inr (.cancelled hget)
      · rw [List.mem_singleton.mp hcleaning]
        exact Or.inr .cleaning
    · exact Or.inl hold
  | notified =>
    rcases List.mem_cons.mp hevent with rfl | hold
    · exact Or.inr .accepted
    · exact Or.inl hold
  | checked _ hget hid =>
    rcases List.mem_cons.mp hevent with rfl | hold
    · rw [← hid]
      exact Or.inr (.matched hget)
    · exact Or.inl hold
  | uploaded hcall =>
    rcases List.mem_cons.mp hevent with rfl | hold
    · exact Or.inr (.uploaded hcall)
    · exact Or.inl hold
  | failed hcall hget hid =>
    rcases List.mem_append.mp hevent with hnew | hold
    · rcases List.mem_append.mp hnew with hexcluded | hresolved
      · obtain ⟨registration, hmem, rfl⟩ := List.mem_map.mp hexcluded
        rw [List.mem_filter, decide_eq_true_eq] at hmem
        rw [← hmem.2] at hcall
        exact Or.inr (.excluded hcall hget hmem.1 rfl)
      · rw [List.mem_singleton.mp hresolved, ← hid]
        exact Or.inr (.resolved hget)
    · exact Or.inl hold
  | finished _ hget hid =>
    rcases List.mem_cons.mp hevent with rfl | hold
    · rw [← hid]
      exact Or.inr (.resolved hget)
    · exact Or.inl hold
  | entered hcall =>
    rcases List.mem_cons.mp hevent with rfl | hold
    · exact Or.inr (.entered hcall)
    · exact Or.inl hold
  | @swept =>
    rcases List.mem_append.mp hevent with hnew | hold
    · rcases List.mem_cons.mp hnew with rfl | hremoved
      · exact Or.inr .cleaned
      · obtain ⟨completion, hmem, hremoval⟩ := List.mem_flatMap.mp hremoved
        cases completion with
        | decoded => cases hremoval
        | callback =>
          rw [List.mem_singleton.mp hremoval]
          exact Or.inr (.swept (List.mem_of_mem_filter hmem))
    · exact Or.inl hold
  | _ => exact Or.inl hevent

theorem move_log (h : Move world next) (hevent : event ∈ world.log) : event ∈ next.log := by
  obtain ⟨_, hlog, _⟩ := move_balanced h 0
  rw [hlog]
  exact List.mem_append_right _ hevent

/-- The callback registrations of a request come from the state before, or from the call that the
step began. -/
theorem move_pending (h : Move world next) {found : PendingRequest}
    (hfound : next.state.pending.get? identifier = some found)
    (hmem : registration ∈ found.callbacks) :
    (∃ pending, world.state.pending.get? identifier = some pending ∧
        pending.requestId = found.requestId ∧ registration ∈ pending.callbacks) ∨
      registration.id = world.state.nextCallbackId ∧ registration.callback = world.calls.length ∧
        next.state.nextCallbackId = nextId world.state.nextCallbackId ∧
        .accepted registration.callback registration.owner
          (.request identifier found.requestId) ∈ next.log := by
  cases h with
  | answered hnumbered | hit hnumbered =>
    rw [← hnumbered.pending]
    exact Or.inl ⟨found, hfound, rfl, hmem⟩
  | @joined _ _ _ _ _ pending hnumbered hattached hget =>
    dsimp only [begin_state, record_state, joinRequest] at hfound
    rw [SortedMap.get?_put, hnumbered.pending] at hfound
    split at hfound
    next hother =>
      cases hfound
      rcases List.mem_append.mp hmem with hold | hnew
      · exact Or.inl ⟨pending, by rw [hother, hget], rfl, hold⟩
      · rw [Option.mem_toList] at hnew
        rcases hattached with rfl | rfl
        · have hnext := hnumbered.nextCallbackId
          rw [Option.mem_def.mp hnew, Option.isSome_some, if_pos rfl] at hnext
          refine Or.inr ⟨by rw [hnumbered.named _ hnew], by rw [hnumbered.named _ hnew], hnext, ?_⟩
          rw [hother]
          exact List.mem_append_left _ (List.mem_map.mpr ⟨registration,
            Option.mem_toList.mpr hnew, rfl⟩)
        · cases hnew
    next => exact Or.inl ⟨found, hfound, rfl, hmem⟩
  | @opened _ _ _ _ _ _ _ hnumbered =>
    dsimp only [begin_state, record_state, openRequest] at hfound
    rw [SortedMap.get?_put, hnumbered.pending] at hfound
    split at hfound
    next hother =>
      cases hfound
      have hnew := Option.mem_toList.mp hmem
      have hnext := hnumbered.nextCallbackId
      rw [Option.mem_def.mp hnew, Option.isSome_some, if_pos rfl] at hnext
      refine Or.inr ⟨by rw [hnumbered.named _ hnew], by rw [hnumbered.named _ hnew], hnext, ?_⟩
      rw [hother]
      refine List.mem_append_left _ (List.mem_map.mpr ⟨registration,
        Option.mem_toList.mpr hnew, ?_⟩)
      rw [← hnumbered.nextRequestId]
    next => exact Or.inl ⟨found, hfound, rfl, hmem⟩
  | @cleans _ _ hperm =>
    have hkept := (cleanupPending_get? hperm identifier).symm.trans hfound
    obtain ⟨pending, hpending, hkept⟩ := Option.bind_eq_some_iff.mp hkept
    split at hkept
    · cases hkept
    · cases hkept
      exact Or.inl ⟨pending, hpending, rfl, List.mem_of_mem_filter hmem⟩
  | failed | finished =>
    dsimp only [goOn_state, record_state] at hfound
    rw [SortedMap.get?_erase] at hfound
    split at hfound
    · cases hfound
    · exact Or.inl ⟨found, hfound, rfl, hmem⟩
  | _ => exact Or.inl ⟨found, hfound, rfl, hmem⟩

theorem move_completions (h : Move world next) {owner : RequestOwner}
    {event : TextureCallbackEvent} {callback : Nat}
    (hmem : .callback owner event callback ∈ next.completions) :
    .callback owner event callback ∈ world.completions ∨
      ∃ texture, event.result = .ok texture ∧
        .accepted callback owner (.cached event.identifier texture) ∈ next.log := by
  cases h with
  | notified =>
    rcases List.mem_append.mp hmem with hold | hnew
    · exact Or.inl hold
    · cases List.mem_singleton.mp hnew
      exact Or.inr ⟨_, rfl, List.mem_cons_self⟩
  | popped _ hcompletions =>
    rw [hcompletions]
    exact Or.inl (List.mem_cons_of_mem _ hmem)
  | swept => exact Or.inl (List.mem_of_mem_filter hmem)
  | decodePushed | downloadPushed =>
    rcases List.mem_append.mp hmem with hold | hnew
    · exact Or.inl hold
    · cases List.mem_singleton.mp hnew
  | _ => exact Or.inl hmem

theorem move_nextCallbackId (h : Move world next) :
    next.state.nextCallbackId = world.state.nextCallbackId ∨
      next.state.nextCallbackId = nextId world.state.nextCallbackId ∧
        next.calls.length = world.calls.length + 1 := by
  have hnumbered : ∀ {owner : RequestOwner} {registration : Option CallbackRegistration}
      {state : RegistryState}, Numbered owner world.calls.length world.state registration state →
      state.nextCallbackId = world.state.nextCallbackId ∨
        state.nextCallbackId = nextId world.state.nextCallbackId := by
    intro owner registration state h
    rcases registration with _ | _
    · exact Or.inl h.nextCallbackId
    · exact Or.inr h.nextCallbackId
  cases h with
  | answered h | hit h | joined h | opened h =>
    exact (hnumbered h).imp_right fun hnext => ⟨hnext, List.length_append⟩
  | cleans => exact Or.inl (cleanupPending_ids ..).2
  | _ => exact Or.inl rfl

end Nexus.Textures
