import Nexus.StepRuns
import Nexus.TextureRegistry

namespace Nexus.Textures

structure TextureConfig where
  maxIdentifierBytes : Nat
  maxUrlBytes : Nat
  maxEncodedBytes : Nat
  maxWidth : Nat
  maxHeight : Nat
  maxPixels : Nat
  workQueueCapacity : Nat
  downloadQueueCapacity : Nat
  completionQueueCapacity : Nat
  maxCallbacksPerTexture : Nat
  maxCompletionsPerAdvance : Nat

structure DecodedImage where
  width : Nat
  height : Nat
  rgba8 : List UInt8
  deriving DecidableEq

inductive TextureSource where
  | file (path : String)
  | resource (module resourceId : Nat)
  | url (target : String)
  | memory (encoded : List UInt8)

inductive DecodeSource where
  | file (path : String)
  | encoded (encoded : List UInt8)

inductive ResolvedSource where
  | decode (source : DecodeSource)
  | download (target : String)

structure DecodeJob where
  identifier : String
  requestId : Nat
  source : DecodeSource

structure DownloadJob where
  identifier : String
  requestId : Nat
  target : String

structure TextureCallbackEvent where
  identifier : String
  result : Except TextureError TextureHandle

inductive Completion where
  | decoded (identifier : String) (requestId : Nat) (result : Except TextureError DecodedImage)
  | callback (owner : RequestOwner) (event : TextureCallbackEvent) (callback : Nat)

section Validation

variable (config : TextureConfig)

def validateIdentifier (identifier : String) : Except TextureError Unit :=
  if identifier.isEmpty ∨ config.maxIdentifierBytes < identifier.utf8ByteSize ∨
      '\x00' ∈ identifier.toList then
    .error .invalidIdentifier
  else .ok ()

def validateEncoded (encoded : List UInt8) : Except TextureError Unit :=
  if encoded.isEmpty then .error .decodeFailed
  else if config.maxEncodedBytes < encoded.length then .error .encodedTooLarge
  else .ok ()

def validateDecoded (image : DecodedImage) : Except TextureError Unit :=
  if image.width = 0 ∨ image.height = 0 then .error .invalidDecodedImage
  else if config.maxWidth < image.width ∨ config.maxHeight < image.height then
    .error .invalidDecodedImage
  else if config.maxPixels < image.width * image.height then .error .invalidDecodedImage
  else if 2 ^ 64 ≤ image.width * image.height * 4 then .error .invalidDecodedImage
  else if image.rgba8.length ≠ image.width * image.height * 4 then .error .invalidDecodedImage
  else .ok ()

/-- `decoded` is the decoder's answer, `none` where it failed or panicked. -/
def decodeBytes (encoded : List UInt8) (decoded : Option DecodedImage) :
    Except TextureError DecodedImage := do
  validateEncoded config encoded
  match decoded with
  | none => .error .decodeFailed
  | some image =>
    validateDecoded config image
    .ok image

/-- `answer` is the override provider's, `none` where it failed or panicked. -/
def resolveOverride (answer : Option (Option (List UInt8))) :
    Except TextureError (Option ResolvedSource) :=
  match answer with
  | none => .error .overrideUnavailable
  | some none => .ok none
  | some (some encoded) => do
    validateEncoded config encoded
    .ok (some (.decode (.encoded encoded)))

/-- `png` is the resource provider's answer, `none` where it failed or panicked. -/
def resolveSource (png : Option (List UInt8)) : TextureSource → Except TextureError ResolvedSource
  | .file path => .ok (.decode (.file path))
  | .memory encoded => do
    validateEncoded config encoded
    .ok (.decode (.encoded encoded))
  | .url target =>
    if target.isEmpty ∨ config.maxUrlBytes < target.utf8ByteSize then .error .urlTooLong
    else .ok (.download target)
  | .resource _ _ =>
    match png with
    | none => .error .resourceUnavailable
    | some encoded => do
      validateEncoded config encoded
      .ok (.decode (.encoded encoded))

end Validation

inductive Worker (Job : Type) where
  | idle
  | running (job : Job)
  | pushing (identifier : String) (requestId : Nat) (result : Except TextureError DecodedImage)

inductive RequestOutcome where
  | cached (texture : TextureHandle)
  | queued
  | joined

inductive Outcome where
  | loaded (result : Except TextureError RequestOutcome)
  | sourceFailed
  | advanced
  | cleaned (removed : Nat)

inductive Continuation where
  | leave (outcome : Outcome)
  | advance (remaining : Nat)

/-- A call in progress, at the next thing that it does under a lock or outside the service. -/
inductive Activation where
  | notifying (owner : RequestOwner) (identifier : String) (texture : TextureHandle)
      (callback : Nat)
  | resolving (identifier : String) (requestId : Nat) (primaryCallbackId : Option Nat)
      (source : Option TextureSource)
  | unwound (identifier : String) (requestId : Nat)
  | queueing (identifier : String) (requestId : Nat) (source : ResolvedSource)
  | failing (identifier : String) (requestId : Nat) (error : TextureError)
      (excludedCallbackId : Option Nat) (outcome : Outcome)
  | advancing (remaining : Nat)
  | finishing (identifier : String) (requestId : Nat) (result : Except TextureError DecodedImage)
      (remaining : Nat)
  | uploading (identifier : String) (requestId : Nat) (result : Except TextureError DecodedImage)
      (remaining : Nat)
  | registering (identifier : String) (requestId : Nat)
      (result : Except TextureError TextureHandle) (remaining : Nat)
  | dispatching (event : TextureCallbackEvent) (callbacks : List (RequestOwner × Nat))
      (next : Continuation)
  | sweeping (owner : OwnerGeneration) (removed : Nat)
  | returned (outcome : Outcome)

def Continuation.activation : Continuation → Activation
  | .leave outcome => .returned outcome
  | .advance remaining => .advancing remaining

inductive Target where
  | request (identifier : String) (requestId : Nat)
  | cached (identifier : String) (texture : TextureHandle)

/-- What happened, for the record only. -/
inductive Event where
  | accepted (callback : Nat) (owner : RequestOwner) (target : Target)
  | entered (callback : Nat) (event : TextureCallbackEvent)
  | removed (callback : Nat) (owner : RequestOwner)
  | excluded (callback call : Nat)
  | matched (identifier : String) (requestId : Nat)
  | uploaded (identifier : String) (requestId : Nat)
  | resolved (identifier : String) (requestId : Nat) (result : Except TextureError TextureHandle)
  | cancelled (identifier : String) (requestId : Nat)
  | cleaning (call : Nat) (owner : OwnerGeneration)
  | cleaned (call : Nat) (owner : OwnerGeneration)

structure World where
  config : TextureConfig
  state : RegistryState
  work : List DecodeJob
  downloads : List DownloadJob
  completions : List Completion
  decodeWorker : Worker DecodeJob
  downloadWorker : Worker DownloadJob
  nextAddress : Nat
  calls : List Activation
  log : List Event

def World.new (config : TextureConfig) : World where
  config
  state := ⟨1, 1, .empty, .empty⟩
  work := []
  downloads := []
  completions := []
  decodeWorker := .idle
  downloadWorker := .idle
  nextAddress := 0
  calls := []
  log := []

structure Answers where
  override : Option (Option (List UInt8))
  provided : Option (Except Bool TextureSource)
  png : Option (List UInt8)
  gpu : Option Nat

namespace World

def record (world : World) (events : List Event) : World :=
  { world with log := events ++ world.log }

def begin (world : World) (activation : Activation) : World :=
  { world with calls := world.calls ++ [activation] }

def goOn (world : World) (call : Nat) (activation : Activation) : World :=
  { world with calls := world.calls.set call activation }

end World

def acceptedBy (state : RegistryState) (identifier : String) (owner : RequestOwner)
    (callback : Option Nat) : List Event :=
  match callback, state.pending.get? identifier with
  | some callback, some pending =>
    [.accepted callback owner (.request identifier pending.requestId)]
  | _, _ => []

/-- The start of `load` and of `load_with_source`, which has no source yet. -/
def beginLoad (identifier : String) (source : Option TextureSource) (options : LoadOptions)
    (hasCallback attachJoinedCallback : Bool) (world : World) : World :=
  match validateIdentifier world.config identifier with
  | .error error => world.begin (.returned (.loaded (.error error)))
  | .ok () =>
    let callback := if hasCallback then some world.calls.length else none
    match reserveRequest world.config.maxCallbacksPerTexture identifier options callback
        attachJoinedCallback world.state with
    | (.error error, state) =>
      World.begin { world with state } (.returned (.loaded (.error error)))
    | (.ok .joined, state) =>
      let attached := if attachJoinedCallback then callback else none
      (World.record { world with state }
        (acceptedBy state identifier options.owner attached)).begin
          (.returned (.loaded (.ok .joined)))
    | (.ok (.cached texture), state) =>
      match callback with
      | none => World.begin { world with state } (.returned (.loaded (.ok (.cached texture))))
      | some callback =>
        World.begin { world with state } (.notifying options.owner identifier texture callback)
    | (.ok (.new requestId primaryCallbackId), state) =>
      (World.record { world with state }
        (acceptedBy state identifier options.owner callback)).begin
          (.resolving identifier requestId primaryCallbackId source)

/-- `finish_existing_reservation` for a cached texture with a callback. -/
def notify (call : Nat) (owner : RequestOwner) (identifier : String) (texture : TextureHandle)
    (callback : Nat) (world : World) : World :=
  if world.completions.length < world.config.completionQueueCapacity then
    let world : World := { world with
      completions := world.completions ++ [.callback owner ⟨identifier, .ok texture⟩ callback] }
    (world.record [.accepted callback owner (.cached identifier texture)]).goOn call
      (.returned (.loaded (.ok (.cached texture))))
  else world.goOn call (.returned (.loaded (.error (.queueFull .completion))))

section Resolving

variable (config : TextureConfig) (identifier : String) (requestId : Nat)

def acquired (png : Option (List UInt8)) (source : TextureSource) : Activation :=
  match resolveSource config png source with
  | .ok resolved => .queueing identifier requestId resolved
  | .error error => .failing identifier requestId error none (.loaded (.error error))

/-- What follows once the providers have answered. Only `load_with_source` asks for its source. -/
def resolve (primaryCallbackId : Option Nat) (source : Option TextureSource) (answers : Answers) :
    Activation :=
  match resolveOverride config answers.override with
  | .error error => .failing identifier requestId error none (.loaded (.error error))
  | .ok (some resolved) => .queueing identifier requestId resolved
  | .ok none =>
    match source with
    | some source => acquired config identifier requestId answers.png source
    | none =>
      match answers.provided with
      | none => .unwound identifier requestId
      | some (.error notifyProviderError) =>
        .failing identifier requestId .decodeFailed
          (if notifyProviderError then none else primaryCallbackId) .sourceFailed
      | some (.ok source) => acquired config identifier requestId answers.png source

end Resolving

def queueResolved (call : Nat) (identifier : String) (requestId : Nat) (world : World) :
    ResolvedSource → World
  | .decode source =>
    if world.work.length < world.config.workQueueCapacity then
      let world : World := { world with
        work := world.work ++ [⟨identifier, requestId, source⟩] }
      world.goOn call (.returned (.loaded (.ok .queued)))
    else
      world.goOn call (.failing identifier requestId (.queueFull .work) none
        (.loaded (.error (.queueFull .work))))
  | .download target =>
    if world.downloads.length < world.config.downloadQueueCapacity then
      let world : World := { world with
        downloads := world.downloads ++ [⟨identifier, requestId, target⟩] }
      world.goOn call (.returned (.loaded (.ok .queued)))
    else
      world.goOn call (.failing identifier requestId (.queueFull .download) none
        (.loaded (.error (.queueFull .download))))

def deliveries (callbacks : List CallbackRegistration) : List (RequestOwner × Nat) :=
  callbacks.map fun registration => (registration.owner, registration.callback)

def failEvents (call : Nat) (identifier : String) (requestId : Nat) (error : TextureError)
    (excludedCallbackId : Option Nat) (state : RegistryState) : List Event :=
  match takePending identifier requestId state with
  | none => []
  | some (pending, _) =>
    (pending.callbacks.filter fun registration => some registration.id = excludedCallbackId).map
      (fun registration => .excluded registration.callback call) ++
      [.resolved identifier requestId (.error error)]

/-- `fail_reserved_excluding`, up to its callbacks. -/
def failReserved (call : Nat) (identifier : String) (requestId : Nat) (error : TextureError)
    (excludedCallbackId : Option Nat) (outcome : Outcome) (world : World) : World :=
  let (callbacks, state) := failPending identifier requestId excludedCallbackId world.state
  (World.record { world with state }
    (failEvents call identifier requestId error excludedCallbackId world.state)).goOn call
      (.dispatching ⟨identifier, .error error⟩ (deliveries callbacks) (.leave outcome))

def Completion.activation (remaining : Nat) : Completion → Activation
  | .decoded identifier requestId result => .finishing identifier requestId result remaining
  | .callback owner event handler => .dispatching event [(owner, handler)] (.advance remaining)

def popCompletion (call remaining : Nat) (world : World) : World :=
  match remaining, world.completions with
  | remaining + 1, completion :: rest =>
    World.goOn { world with completions := rest } call (completion.activation remaining)
  | _, _ => world.goOn call (.returned .advanced)

/-- The first lock section of `finish_decode`. -/
def checkPending (call : Nat) (identifier : String) (requestId : Nat)
    (result : Except TextureError DecodedImage) (remaining : Nat) (world : World) : World :=
  if pendingMatches identifier requestId world.state then
    (world.record [.matched identifier requestId]).goOn call
      (.uploading identifier requestId result remaining)
  else world.goOn call (.advancing remaining)

/-- The GPU upload of `finish_decode`. `gpu` is the shader resource's address, `none` where the
backend failed or panicked. -/
def upload (call : Nat) (identifier : String) (requestId : Nat)
    (result : Except TextureError DecodedImage) (remaining : Nat) (gpu : Option Nat)
    (world : World) : World :=
  match result with
  | .error error => world.goOn call (.registering identifier requestId (.error error) remaining)
  | .ok image =>
    match validateDecoded world.config image with
    | .error error => world.goOn call (.registering identifier requestId (.error error) remaining)
    | .ok () =>
      match gpu with
      | none =>
        (world.record [.uploaded identifier requestId]).goOn call
          (.registering identifier requestId (.error .gpuUploadFailed) remaining)
      | some resource =>
        (World.record { world with nextAddress := world.nextAddress + 1 }
          [.uploaded identifier requestId]).goOn call (.registering identifier requestId
            (.ok ⟨world.nextAddress, image.width, image.height, resource⟩) remaining)

/-- The second lock section of `finish_decode`. -/
def finishDecode (call : Nat) (identifier : String) (requestId : Nat)
    (result : Except TextureError TextureHandle) (remaining : Nat) (world : World) : World :=
  match registerResult identifier requestId result world.state with
  | (none, state) => World.goOn { world with state } call (.advancing remaining)
  | (some callbacks, state) =>
    (World.record { world with state } [.resolved identifier requestId result]).goOn call
      (.dispatching ⟨identifier, result⟩ (deliveries callbacks) (.advance remaining))

def dispatch (call : Nat) (event : TextureCallbackEvent) (next : Continuation) (world : World) :
    List (RequestOwner × Nat) → World
  | [] => world.goOn call next.activation
  | (_, callback) :: rest =>
    (world.record [.entered callback event]).goOn call (.dispatching event rest next)

def cancelEvents (order : List String) (state : RegistryState) : List Event :=
  order.filterMap fun identifier =>
    (state.pending.get? identifier).map fun pending => .cancelled identifier pending.requestId

def cleanupEvents (call : Nat) (owner : OwnerGeneration) (order : List String)
    (state : RegistryState) : List Event :=
  ((ownedCallbacks (.addon owner) state).map fun registration =>
    .removed registration.callback registration.owner) ++ cancelEvents order state ++
      [.cleaning call owner]

/-- The first section of `cleanup_owner_generation`. -/
def beginCleanup (owner : OwnerGeneration) (order : List String) (world : World) : World :=
  (World.record { world with state := cleanupPending (.addon owner) order world.state }
    (cleanupEvents world.calls.length owner order world.state)).begin
      (.sweeping owner (ownedCallbacks (.addon owner) world.state).length)

def Completion.isOwned (target : RequestOwner) : Completion → Bool
  | .callback owner _ _ => owner = target
  | .decoded .. => false

def Completion.removal : Completion → List Event
  | .callback owner _ handler => [.removed handler owner]
  | .decoded .. => []

/-- The second section of `cleanup_owner_generation`. -/
def sweep (call : Nat) (owner : OwnerGeneration) (removed : Nat) (world : World) : World :=
  let swept := world.completions.filter fun completion => completion.isOwned (.addon owner)
  let kept := world.completions.filter fun completion => !completion.isOwned (.addon owner)
  (World.record { world with completions := kept }
    (.cleaned call owner :: swept.flatMap Completion.removal)).goOn call
      (.returned (.cleaned (removed + swept.length)))

def resume (call : Nat) (answers : Answers) (world : World) : Activation → Option World
  | .notifying owner identifier texture callback =>
    some (notify call owner identifier texture callback world)
  | .resolving identifier requestId primaryCallbackId source =>
    some (world.goOn call
      (resolve world.config identifier requestId primaryCallbackId source answers))
  | .unwound _ _ => none
  | .queueing identifier requestId source =>
    some (queueResolved call identifier requestId world source)
  | .failing identifier requestId error excludedCallbackId outcome =>
    some (failReserved call identifier requestId error excludedCallbackId outcome world)
  | .advancing remaining => some (popCompletion call remaining world)
  | .finishing identifier requestId result remaining =>
    some (checkPending call identifier requestId result remaining world)
  | .uploading identifier requestId result remaining =>
    some (upload call identifier requestId result remaining answers.gpu world)
  | .registering identifier requestId result remaining =>
    some (finishDecode call identifier requestId result remaining world)
  | .dispatching event callbacks next => some (dispatch call event next world callbacks)
  | .sweeping owner removed => some (sweep call owner removed world)
  | .returned _ => none

def pushWait (identifier : String) (requestId : Nat)
    (result : Except TextureError DecodedImage) (world : World) : Option World :=
  if world.completions.length < world.config.completionQueueCapacity then
    some { world with
      completions := world.completions ++ [.decoded identifier requestId result] }
  else none

def decodeJob (config : TextureConfig) (file : Option (List UInt8))
    (decoded : Option DecodedImage) : DecodeSource → Except TextureError DecodedImage
  | .encoded encoded => decodeBytes config encoded decoded
  | .file _ =>
    match file with
    | none => .error .fileUnavailable
    | some encoded => decodeBytes config encoded decoded

def decodeStep (file : Option (List UInt8)) (decoded : Option DecodedImage) (world : World) :
    Option World :=
  match world.decodeWorker with
  | .idle =>
    match world.work with
    | [] => none
    | job :: rest => some { world with work := rest, decodeWorker := .running job }
  | .running job =>
    let result := decodeJob world.config file decoded job.source
    some { world with decodeWorker := .pushing job.identifier job.requestId result }
  | .pushing identifier requestId result =>
    pushWait identifier requestId result { world with decodeWorker := .idle }

/-- `fetched` is the downloader's answer, `none` where it failed or panicked. -/
def downloadResult (config : TextureConfig) (fetched : Option (List UInt8))
    (decoded : Option DecodedImage) : Except TextureError DecodedImage :=
  match fetched with
  | none => .error .downloadFailed
  | some encoded =>
    if encoded.isEmpty ∨ config.maxEncodedBytes < encoded.length then .error .downloadFailed
    else decodeBytes config encoded decoded

def downloadStep (fetched : Option (List UInt8)) (decoded : Option DecodedImage) (world : World) :
    Option World :=
  match world.downloadWorker with
  | .idle =>
    match world.downloads with
    | [] => none
    | job :: rest => some { world with downloads := rest, downloadWorker := .running job }
  | .running job =>
    let result := downloadResult world.config fetched decoded
    some { world with downloadWorker := .pushing job.identifier job.requestId result }
  | .pushing identifier requestId result =>
    pushWait identifier requestId result { world with downloadWorker := .idle }

inductive Action where
  | load (identifier : String) (source : TextureSource) (options : LoadOptions)
      (hasCallback : Bool)
  | loadWithSource (identifier : String) (options : LoadOptions) (hasCallback : Bool)
  | advance
  | cleanup (owner : OwnerGeneration) (order : List String)
  | resume (call : Nat) (answers : Answers)
  | decode (file : Option (List UInt8)) (decoded : Option DecodedImage)
  | download (fetched : Option (List UInt8)) (decoded : Option DecodedImage)

def step (world : World) : Action → Option World
  | .load identifier source options hasCallback =>
    some (beginLoad identifier (some source) options hasCallback true world)
  | .loadWithSource identifier options hasCallback =>
    some (beginLoad identifier none options hasCallback false world)
  | .advance => some (world.begin (.advancing world.config.maxCompletionsPerAdvance))
  | .cleanup owner order =>
    -- the requests are cancelled in the order of the hash table
    if order.Perm (abandoned (forgetOwner (.addon owner) world.state)) then
      some (beginCleanup owner order world)
    else none
  | .resume call answers => world.calls[call]?.bind fun activation =>
    Textures.resume call answers world activation
  | .decode file decoded => decodeStep file decoded world
  | .download fetched decoded => downloadStep fetched decoded world

end Nexus.Textures
