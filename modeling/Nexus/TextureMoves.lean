import Nexus.TextureRuns

namespace Nexus.Textures

variable {world next : World}

/-- A call has numbered its callback. The callback is named by the call. -/
structure Numbered (owner : RequestOwner) (call : Nat) (before : RegistryState)
    (registration : Option CallbackRegistration) (after : RegistryState) : Prop where
  registry : after.registry = before.registry
  pending : after.pending = before.pending
  nextRequestId : after.nextRequestId = before.nextRequestId
  nextCallbackId : after.nextCallbackId =
    if registration.isSome then nextId before.nextCallbackId else before.nextCallbackId
  named : ∀ found ∈ registration, found = ⟨before.nextCallbackId, owner, call⟩

theorem registerCallback_numbered (owner : RequestOwner) (hasCallback : Bool) (call : Nat)
    (state : RegistryState) :
    Numbered owner call state
      (registerCallback owner (if hasCallback then some call else none) state).1
      (registerCallback owner (if hasCallback then some call else none) state).2 := by
  cases hasCallback with
  | false => exact ⟨rfl, rfl, rfl, rfl, fun _ h => by cases h⟩
  | true => exact ⟨rfl, rfl, rfl, rfl, fun _ h => by cases h; rfl⟩

def acceptances (identifier : String) (requestId : Nat)
    (registration : Option CallbackRegistration) : List Event :=
  registration.toList.map fun found =>
    .accepted found.callback found.owner (.request identifier requestId)

/-- A call goes on without touching anything that is shared. -/
inductive Turn : Activation → Activation → Prop
  | refused {owner : RequestOwner} {identifier : String} {texture : TextureHandle}
      {callback : Nat} {outcome : Outcome} :
      Turn (.notifying owner identifier texture callback) (.returned outcome)
  | unwound {identifier : String} {requestId : Nat} {primary : Option Nat}
      {source : Option TextureSource} :
      Turn (.resolving identifier requestId primary source) (.unwound identifier requestId)
  | resolved {identifier : String} {requestId : Nat} {primary : Option Nat}
      {source : Option TextureSource} {found : ResolvedSource} :
      Turn (.resolving identifier requestId primary source) (.queueing identifier requestId found)
  | unresolved {identifier : String} {requestId : Nat} {primary : Option Nat}
      {source : Option TextureSource} {error : TextureError} {excluded : Option Nat}
      {outcome : Outcome} : excluded = none ∨ excluded = primary →
      Turn (.resolving identifier requestId primary source)
        (.failing identifier requestId error excluded outcome)
  | queueFull {identifier : String} {requestId : Nat} {source : ResolvedSource}
      {error : TextureError} {outcome : Outcome} :
      Turn (.queueing identifier requestId source)
        (.failing identifier requestId error none outcome)
  | drained {remaining : Nat} : Turn (.advancing remaining) (.returned .advanced)
  | failed {identifier : String} {requestId remaining : Nat}
      {result : Except TextureError DecodedImage} {error : TextureError} :
      Turn (.uploading identifier requestId result remaining)
        (.registering identifier requestId (.error error) remaining)
  | dispatched {event : TextureCallbackEvent} {continuation : Continuation} :
      Turn (.dispatching event [] continuation) continuation.activation

/-- A call drops a request that is not pending under its id. -/
inductive Drops (state : RegistryState) : Activation → Activation → Prop
  | unmatched {identifier : String} {requestId remaining : Nat}
      {result : Except TextureError DecodedImage} :
      takePending identifier requestId state = none →
      Drops state (.finishing identifier requestId result remaining) (.advancing remaining)
  | superseded {identifier : String} {requestId remaining : Nat}
      {result : Except TextureError TextureHandle} :
      takePending identifier requestId state = none →
      Drops state (.registering identifier requestId result remaining) (.advancing remaining)
  | gone {identifier : String} {requestId : Nat} {error : TextureError} {excluded : Option Nat}
      {outcome : Outcome} :
      takePending identifier requestId state = none →
      Drops state (.failing identifier requestId error excluded outcome)
        (.dispatching ⟨identifier, .error error⟩ [] (.leave outcome))

inductive Move (world : World) : World → Prop
  | answered {owner : RequestOwner} {registration : Option CallbackRegistration}
      {state : RegistryState} {outcome : Outcome} :
      Numbered owner world.calls.length world.state registration state →
      Move world (World.begin { world with state } (.returned outcome))
  | refused {outcome : Outcome} : Move world (world.begin (.returned outcome))
  | hit {owner : RequestOwner} {registration : Option CallbackRegistration}
      {state : RegistryState} {identifier : String} {texture : TextureHandle} :
      Numbered owner world.calls.length world.state registration state →
      Move world (World.begin { world with state }
        (.notifying owner identifier texture world.calls.length))
  | joined {owner : RequestOwner} {registration attached : Option CallbackRegistration}
      {state : RegistryState} {identifier : String} {pending : PendingRequest} :
      Numbered owner world.calls.length world.state registration state →
      attached = registration ∨ attached = none →
      world.state.pending.get? identifier = some pending →
      Move world (World.begin (World.record
        { world with state := joinRequest identifier pending owner attached state }
        (acceptances identifier pending.requestId attached)) (.returned (.loaded (.ok .joined))))
  | opened {owner : RequestOwner} {registration : Option CallbackRegistration}
      {state : RegistryState} {identifier : String} {shadowed : Option ShadowedTexture}
      {registry : SortedMap String TextureHandle} {source : Option TextureSource} :
      Numbered owner world.calls.length world.state registration state →
      world.state.pending.get? identifier = none →
      Move world (World.begin (World.record
        { world with
          state := openRequest identifier owner registration shadowed { state with registry } }
        (acceptances identifier world.state.nextRequestId registration))
        (.resolving identifier world.state.nextRequestId
          (registration.map CallbackRegistration.id) source))
  | advances {remaining : Nat} : Move world (world.begin (.advancing remaining))
  | cleans {owner : OwnerGeneration} {order : List String} :
      order.Perm (abandoned (forgetOwner (.addon owner) world.state)) →
      Move world (beginCleanup owner order world)
  | turned {call : Nat} {before after : Activation} :
      world.calls[call]? = some before → Turn before after → Move world (world.goOn call after)
  | dropped {call : Nat} {before after : Activation} :
      world.calls[call]? = some before → Drops world.state before after →
      Move world (world.goOn call after)
  | notified {call : Nat} {owner : RequestOwner} {identifier : String} {texture : TextureHandle}
      {callback : Nat} {outcome : Outcome} :
      world.calls[call]? = some (.notifying owner identifier texture callback) →
      Move world ((World.record
        { world with completions :=
            world.completions ++ [.callback owner ⟨identifier, .ok texture⟩ callback] }
        [.accepted callback owner (.cached identifier texture)]).goOn call (.returned outcome))
  | queuedWork {call : Nat} {identifier : String} {requestId : Nat} {source : ResolvedSource}
      {job : DecodeJob} {outcome : Outcome} :
      world.calls[call]? = some (.queueing identifier requestId source) →
      job.identifier = identifier → job.requestId = requestId →
      Move world (World.goOn { world with work := world.work ++ [job] } call (.returned outcome))
  | queuedDownload {call : Nat} {identifier : String} {requestId : Nat} {source : ResolvedSource}
      {job : DownloadJob} {outcome : Outcome} :
      world.calls[call]? = some (.queueing identifier requestId source) →
      job.identifier = identifier → job.requestId = requestId →
      Move world
        (World.goOn { world with downloads := world.downloads ++ [job] } call (.returned outcome))
  | popped {call remaining left : Nat} {completion : Completion} {rest : List Completion} :
      world.calls[call]? = some (.advancing remaining) → world.completions = completion :: rest →
      Move world
        (World.goOn { world with completions := rest } call (completion.activation left))
  | checked {call : Nat} {identifier : String} {requestId remaining : Nat}
      {result : Except TextureError DecodedImage} {pending : PendingRequest} :
      world.calls[call]? = some (.finishing identifier requestId result remaining) →
      world.state.pending.get? identifier = some pending → pending.requestId = requestId →
      Move world ((world.record [.matched identifier requestId]).goOn call
        (.uploading identifier requestId result remaining))
  | uploaded {call : Nat} {identifier : String} {requestId remaining nextAddress : Nat}
      {result : Except TextureError DecodedImage} {handle : Except TextureError TextureHandle} :
      world.calls[call]? = some (.uploading identifier requestId result remaining) →
      Move world ((World.record { world with nextAddress }
        [.uploaded identifier requestId]).goOn call
          (.registering identifier requestId handle remaining))
  | failed {call : Nat} {identifier : String} {requestId : Nat} {error : TextureError}
      {excluded : Option Nat} {outcome : Outcome} {pending : PendingRequest}
      {registry : SortedMap String TextureHandle} :
      world.calls[call]? = some (.failing identifier requestId error excluded outcome) →
      world.state.pending.get? identifier = some pending → pending.requestId = requestId →
      Move world ((World.record
        { world with
          state := { world.state with
            pending := world.state.pending.erase identifier, registry } }
        ((pending.callbacks.filter fun registration => some registration.id = excluded).map
          (fun registration => .excluded registration.callback call) ++
          [.resolved identifier requestId (.error error)])).goOn call
        (.dispatching ⟨identifier, .error error⟩
          (deliveries (pending.callbacks.filter fun registration =>
            some registration.id ≠ excluded)) (.leave outcome)))
  | finished {call : Nat} {identifier : String} {requestId remaining : Nat}
      {result : Except TextureError TextureHandle} {pending : PendingRequest}
      {registry : SortedMap String TextureHandle} :
      world.calls[call]? = some (.registering identifier requestId result remaining) →
      world.state.pending.get? identifier = some pending → pending.requestId = requestId →
      Move world ((World.record
        { world with
          state := { world.state with
            pending := world.state.pending.erase identifier, registry } }
        [.resolved identifier requestId result]).goOn call
        (.dispatching ⟨identifier, result⟩ (deliveries pending.callbacks) (.advance remaining)))
  | entered {call : Nat} {event : TextureCallbackEvent} {owner : RequestOwner} {callback : Nat}
      {rest : List (RequestOwner × Nat)} {continuation : Continuation} :
      world.calls[call]? = some (.dispatching event ((owner, callback) :: rest) continuation) →
      Move world ((world.record [.entered callback event]).goOn call
        (.dispatching event rest continuation))
  | swept {call removed : Nat} {owner : OwnerGeneration} :
      world.calls[call]? = some (.sweeping owner removed) → Move world (sweep call owner removed world)
  | decodeTaken {job : DecodeJob} {rest : List DecodeJob} :
      world.decodeWorker = .idle → world.work = job :: rest →
      Move world { world with work := rest, decodeWorker := .running job }
  | decodeRan {job : DecodeJob} {result : Except TextureError DecodedImage} :
      world.decodeWorker = .running job →
      Move world { world with decodeWorker := .pushing job.identifier job.requestId result }
  | decodePushed {identifier : String} {requestId : Nat}
      {result : Except TextureError DecodedImage} :
      world.decodeWorker = .pushing identifier requestId result →
      Move world { world with
        decodeWorker := .idle
        completions := world.completions ++ [.decoded identifier requestId result] }
  | downloadTaken {job : DownloadJob} {rest : List DownloadJob} :
      world.downloadWorker = .idle → world.downloads = job :: rest →
      Move world { world with downloads := rest, downloadWorker := .running job }
  | downloadRan {job : DownloadJob} {result : Except TextureError DecodedImage} :
      world.downloadWorker = .running job →
      Move world { world with downloadWorker := .pushing job.identifier job.requestId result }
  | downloadPushed {identifier : String} {requestId : Nat}
      {result : Except TextureError DecodedImage} :
      world.downloadWorker = .pushing identifier requestId result →
      Move world { world with
        downloadWorker := .idle
        completions := world.completions ++ [.decoded identifier requestId result] }

inductive Reserved (owner : RequestOwner) (registration : Option CallbackRegistration)
    (identifier : String) (attachJoinedCallback : Bool) (before counted : RegistryState) :
    Except TextureError Reservation → RegistryState → Prop
  | refused {error : TextureError} :
      Reserved owner registration identifier attachJoinedCallback before counted (.error error)
        counted
  | cached {texture : TextureHandle} :
      Reserved owner registration identifier attachJoinedCallback before counted
        (.ok (.cached texture)) counted
  | joined {pending : PendingRequest} : before.pending.get? identifier = some pending →
      Reserved owner registration identifier attachJoinedCallback before counted (.ok .joined)
        (joinRequest identifier pending owner
          (if attachJoinedCallback then registration else none) counted)
  | opened {shadowed : Option ShadowedTexture} {registry : SortedMap String TextureHandle} :
      before.pending.get? identifier = none →
      Reserved owner registration identifier attachJoinedCallback before counted
        (.ok (.new before.nextRequestId (registration.map CallbackRegistration.id)))
        (openRequest identifier owner registration shadowed { counted with registry })

theorem shadowTexture_snd (state : RegistryState) (identifier : String) :
    ∃ shadowed registry, shadowTexture state identifier = (shadowed, { state with registry }) := by
  rcases shadowTexture_cases state identifier with ⟨_, h⟩ | ⟨_, _, _, _, _, _, h⟩ <;>
    exact ⟨_, _, h⟩

theorem reserveRequest_reserved (maximumCallbacks : Nat) (identifier : String)
    (options : LoadOptions) (attachJoinedCallback hasCallback : Bool) (call : Nat)
    (state : RegistryState) :
    ∃ registration counted, Numbered options.owner call state registration counted ∧
      Reserved options.owner registration identifier attachJoinedCallback state counted
        (reserveRequest maximumCallbacks identifier options
          (if hasCallback then some call else none) attachJoinedCallback state).1
        (reserveRequest maximumCallbacks identifier options
          (if hasCallback then some call else none) attachJoinedCallback state).2 ∧
      registration.isSome = hasCallback := by
  have hnumbered := registerCallback_numbered options.owner hasCallback call state
  have hsome : (registerCallback options.owner (if hasCallback then some call else none)
      state).1.isSome = hasCallback := by cases hasCallback <;> rfl
  generalize hcallback : (if hasCallback then some call else none) = callback at *
  rcases hregistered : registerCallback options.owner callback state with ⟨registration, counted⟩
  rw [hregistered] at hnumbered hsome
  refine ⟨registration, counted, hnumbered, ?_, hsome⟩
  unfold reserveRequest
  rw [hregistered]
  dsimp only
  rw [hnumbered.pending, hnumbered.registry, hnumbered.nextRequestId]
  rcases hget : state.pending.get? identifier with _ | pending
  · dsimp only
    split
    · obtain ⟨_, registry, hshadow⟩ := shadowTexture_snd counted identifier
      rw [hshadow]
      exact .opened hget
    · split
      · exact .cached
      · exact .opened hget
  · dsimp only
    by_cases hlimit : (if attachJoinedCallback then registration else none).isSome ∧
        maximumCallbacks ≤ pending.callbacks.length
    · rw [if_pos hlimit]
      exact .refused
    · rw [if_neg hlimit]
      exact .joined hget

variable {state : RegistryState} {identifier : String} {owner : RequestOwner}
  {pending : PendingRequest}

theorem acceptedBy_eq {attached : Option CallbackRegistration}
    (hget : state.pending.get? identifier = some pending)
    (howner : ∀ found ∈ attached, found.owner = owner) :
    acceptedBy state identifier owner (attached.map CallbackRegistration.callback) =
      acceptances identifier pending.requestId attached := by
  unfold acceptedBy
  rw [hget]
  rcases attached with _ | found
  · rfl
  · rw [← howner found rfl]
    rfl

theorem Numbered.owned {call : Nat} {before after : RegistryState}
    {registration : Option CallbackRegistration}
    (h : Numbered owner call before registration after) :
    ∀ found ∈ registration, found.owner = owner := by
  intro found hfound
  rw [h.named found hfound]

theorem beginLoad_move (identifier : String) (source : Option TextureSource)
    (options : LoadOptions) (hasCallback attachJoinedCallback : Bool) (world : World) :
    Move world (beginLoad identifier source options hasCallback attachJoinedCallback world) := by
  unfold beginLoad
  split
  · exact .refused
  dsimp only
  obtain ⟨registration, counted, hnumbered, hreserved, hsome⟩ :=
    reserveRequest_reserved world.config.maxCallbacksPerTexture identifier options
      attachJoinedCallback hasCallback world.calls.length world.state
  have hcallback : (if hasCallback then some world.calls.length else none) =
      registration.map CallbackRegistration.callback := by
    rcases registration with _ | found
    · cases hsome
      rfl
    · cases hsome
      rw [hnumbered.named found rfl]
      rfl
  generalize (reserveRequest world.config.maxCallbacksPerTexture identifier options
    (if hasCallback then some world.calls.length else none) attachJoinedCallback world.state) =
    reserved at *
  rcases reserved with ⟨_, state⟩
  dsimp only at hreserved
  rw [hcallback]
  cases hreserved with
  | refused => exact .answered hnumbered
  | cached =>
    dsimp only
    rcases registration with _ | found
    · exact .answered hnumbered
    · rw [hnumbered.named found rfl]
      exact .hit hnumbered
  | @joined _ hget =>
    dsimp only
    have hattached : (if attachJoinedCallback then
        registration.map CallbackRegistration.callback else none) =
        (if attachJoinedCallback then registration else none).map
          CallbackRegistration.callback := by
      cases attachJoinedCallback <;> rfl
    rw [hattached, acceptedBy_eq (SortedMap.get?_put_self _ _ _)]
    · refine .joined hnumbered ?_ hget
      cases attachJoinedCallback
      · exact Or.inr rfl
      · exact Or.inl rfl
    · intro found hfound
      cases attachJoinedCallback
      · cases hfound
      · exact hnumbered.owned found hfound
  | @opened shadowed registry hget =>
    dsimp only
    rw [acceptedBy_eq (SortedMap.get?_put_self _ _ _) hnumbered.owned, ← hnumbered.nextRequestId]
    have hmove := @Move.opened world options.owner registration counted identifier shadowed
      registry source hnumbered hget
    rw [← hnumbered.nextRequestId] at hmove
    exact hmove

theorem acquired_turn (config : TextureConfig) (identifier : String) (requestId : Nat)
    (primary : Option Nat) (before : Option TextureSource) (png : Option (List UInt8))
    (source : TextureSource) :
    Turn (.resolving identifier requestId primary before)
      (acquired config identifier requestId png source) := by
  unfold acquired
  split
  · exact .resolved
  · exact .unresolved (Or.inl rfl)

theorem resolve_turn (config : TextureConfig) (identifier : String) (requestId : Nat)
    (primary : Option Nat) (source : Option TextureSource) (answers : Answers) :
    Turn (.resolving identifier requestId primary source)
      (resolve config identifier requestId primary source answers) := by
  unfold resolve
  split
  · exact .unresolved (Or.inl rfl)
  · exact .resolved
  split
  · exact acquired_turn ..
  split
  · exact .unwound
  next notifyProviderError _ =>
    cases notifyProviderError
    · exact .unresolved (Or.inr rfl)
    · exact .unresolved (Or.inl rfl)
  · exact acquired_turn ..

variable {requestId : Nat}

theorem takePending_eq (hget : state.pending.get? identifier = some pending)
    (hid : pending.requestId = requestId) :
    takePending identifier requestId state =
      some (pending, { state with pending := state.pending.erase identifier }) := by
  unfold takePending
  rw [hget]
  exact if_pos hid

theorem pendingMatches_iff :
    pendingMatches identifier requestId state = true ↔
      ∃ pending, state.pending.get? identifier = some pending ∧ pending.requestId = requestId := by
  unfold pendingMatches
  rw [Option.any_eq_true]
  constructor
  · rintro ⟨pending, hget, hid⟩
    exact ⟨pending, hget, of_decide_eq_true hid⟩
  · rintro ⟨pending, hget, hid⟩
    exact ⟨pending, hget, decide_eq_true hid⟩

theorem takePending_eq_none (h : ¬ pendingMatches identifier requestId state = true) :
    takePending identifier requestId state = none := by
  rcases htake : takePending identifier requestId state with _ | ⟨pending, _⟩
  · rfl
  · obtain ⟨hget, hid, _⟩ := takePending_cases htake
    exact absurd (pendingMatches_iff.mpr ⟨pending, hget, hid⟩) h

section Resume

variable {call : Nat}

theorem notify_move {owner : RequestOwner} {identifier : String} {texture : TextureHandle}
    {callback : Nat} (hcall : world.calls[call]? = some
      (.notifying owner identifier texture callback)) :
    Move world (notify call owner identifier texture callback world) := by
  unfold notify
  split
  · exact .notified hcall
  · exact .turned hcall .refused

theorem queueResolved_move {identifier : String} {requestId : Nat} {source : ResolvedSource}
    (hcall : world.calls[call]? = some (.queueing identifier requestId source)) :
    Move world (queueResolved call identifier requestId world source) := by
  cases source with
  | decode =>
    unfold queueResolved
    dsimp only
    split
    · exact .queuedWork hcall rfl rfl
    · exact .turned hcall .queueFull
  | download =>
    unfold queueResolved
    dsimp only
    split
    · exact .queuedDownload hcall rfl rfl
    · exact .turned hcall .queueFull

theorem failReserved_move {identifier : String} {requestId : Nat} {error : TextureError}
    {excluded : Option Nat} {outcome : Outcome} (hcall : world.calls[call]? = some
      (.failing identifier requestId error excluded outcome)) :
    Move world (failReserved call identifier requestId error excluded outcome world) := by
  unfold failReserved failPending failEvents
  rcases htake : takePending identifier requestId world.state with _ | ⟨_, state⟩
  · exact .dropped hcall (.gone htake)
  · obtain ⟨hget, hid, rfl⟩ := takePending_cases htake
    exact .failed hcall hget hid

variable {remaining : Nat}

theorem popCompletion_move (hcall : world.calls[call]? = some (.advancing remaining)) :
    Move world (popCompletion call remaining world) := by
  unfold popCompletion
  split
  next hcompletions => exact .popped hcall hcompletions
  next => exact .turned hcall .drained

variable {result : Except TextureError DecodedImage}

theorem checkPending_move {identifier : String} {requestId : Nat}
    (hcall : world.calls[call]? = some (.finishing identifier requestId result remaining)) :
    Move world (checkPending call identifier requestId result remaining world) := by
  unfold checkPending
  split
  next hmatches =>
    obtain ⟨_, hget, hid⟩ := pendingMatches_iff.mp hmatches
    exact .checked hcall hget hid
  next hmatches => exact .dropped hcall (.unmatched (takePending_eq_none hmatches))

theorem upload_move {identifier : String} {requestId : Nat} {gpu : Option Nat}
    (hcall : world.calls[call]? = some (.uploading identifier requestId result remaining)) :
    Move world (upload call identifier requestId result remaining gpu world) := by
  unfold upload
  split
  · exact .turned hcall .failed
  split
  · exact .turned hcall .failed
  split
  · exact .uploaded hcall
  · exact .uploaded hcall

theorem finishDecode_move {identifier : String} {requestId : Nat}
    {result : Except TextureError TextureHandle}
    (hcall : world.calls[call]? = some (.registering identifier requestId result remaining)) :
    Move world (finishDecode call identifier requestId result remaining world) := by
  unfold finishDecode registerResult
  rcases htake : takePending identifier requestId world.state with _ | ⟨_, state⟩
  · exact .dropped hcall (.superseded htake)
  · obtain ⟨hget, hid, rfl⟩ := takePending_cases htake
    cases result with
    | ok | error => exact .finished hcall hget hid

theorem dispatch_move {event : TextureCallbackEvent} {callbacks : List (RequestOwner × Nat)}
    {continuation : Continuation} (hcall : world.calls[call]? = some
      (.dispatching event callbacks continuation)) :
    Move world (dispatch call event continuation world callbacks) := by
  cases callbacks with
  | nil => exact .turned hcall .dispatched
  | cons => exact .entered hcall

theorem resume_move {answers : Answers} {activation : Activation}
    (hcall : world.calls[call]? = some activation)
    (h : resume call answers world activation = some next) : Move world next := by
  cases activation with
  | notifying =>
    cases h
    exact notify_move hcall
  | resolving =>
    cases h
    exact .turned hcall (resolve_turn ..)
  | unwound | returned => cases h
  | queueing =>
    cases h
    exact queueResolved_move hcall
  | failing =>
    cases h
    exact failReserved_move hcall
  | advancing =>
    cases h
    exact popCompletion_move hcall
  | finishing =>
    cases h
    exact checkPending_move hcall
  | uploading =>
    cases h
    exact upload_move hcall
  | registering =>
    cases h
    exact finishDecode_move hcall
  | dispatching =>
    cases h
    exact dispatch_move hcall
  | sweeping =>
    cases h
    exact .swept hcall

end Resume

theorem pushWait_cases {result : Except TextureError DecodedImage}
    (h : pushWait identifier requestId result world = some next) :
    next = { world with
      completions := world.completions ++ [.decoded identifier requestId result] } := by
  unfold pushWait at h
  split at h
  · exact (Option.some.inj h).symm
  · cases h

variable {decoded : Option DecodedImage}

theorem decodeStep_move {file : Option (List UInt8)}
    (h : decodeStep file decoded world = some next) : Move world next := by
  unfold decodeStep at h
  split at h
  next hidle =>
    split at h
    · cases h
    next hwork =>
      cases h
      exact .decodeTaken hidle hwork
  next hrunning =>
    cases h
    exact .decodeRan hrunning
  next hpushing =>
    rw [pushWait_cases h]
    exact .decodePushed hpushing

theorem downloadStep_move {fetched : Option (List UInt8)}
    (h : downloadStep fetched decoded world = some next) : Move world next := by
  unfold downloadStep at h
  split at h
  next hidle =>
    split at h
    · cases h
    next hdownloads =>
      cases h
      exact .downloadTaken hidle hdownloads
  next hrunning =>
    cases h
    exact .downloadRan hrunning
  next hpushing =>
    rw [pushWait_cases h]
    exact .downloadPushed hpushing

theorem step_move {action : Action} (h : step world action = some next) : Move world next := by
  cases action with
  | load | loadWithSource =>
    cases h
    exact beginLoad_move ..
  | advance =>
    cases h
    exact .advances
  | cleanup =>
    obtain ⟨hperm, rfl⟩ := step_cleanup h
    exact .cleans hperm
  | resume =>
    obtain ⟨_, hcall, hresume⟩ := Option.bind_eq_some_iff.mp h
    exact resume_move hcall hresume
  | decode => exact decodeStep_move h
  | download => exact downloadStep_move h

end Nexus.Textures
