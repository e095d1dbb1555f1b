import Nexus.Fallible

namespace Nexus

/-- A 32-bit float by its bits. -/
abbrev FloatBits := BitVec 32

namespace FloatBits

def isFinite (bits : FloatBits) : Bool := bits &&& 0x7F800000 ≠ 0x7F800000

/-- Positive floats are ordered like their bits. -/
def atLeastOne (bits : FloatBits) : Bool := bits.toNat < 2 ^ 31 ∧ 0x3F800000 ≤ bits.toNat

def isPositive (bits : FloatBits) : Bool := bits.toNat < 2 ^ 31 ∧ bits ≠ 0

end FloatBits

structure OwnerId where
  signature : Nat
  generation : Nat
  deriving DecidableEq

inductive FontAssetError where
  | notFound
  | unreadable
  | unsupported
  deriving DecidableEq

inductive FontBackendError where
  | rejectedInput
  | buildFailed
  | textureFailed
  deriving DecidableEq

inductive FontError where
  | invalidIdentifier
  | invalidSize
  | emptyData
  | invalidConfig
  | unknownFont
  | asset (source : FontAssetError)
  | backend (source : FontBackendError)
  | incompleteBuild
  deriving DecidableEq

structure FontConfig where
  fontNo : Int
  oversampleH : Int
  oversampleV : Int
  pixelSnapH : Bool
  glyphExtraSpacing : FloatBits × FloatBits
  glyphOffset : FloatBits × FloatBits
  glyphRanges : List Nat
  glyphMinAdvanceX : FloatBits
  glyphMaxAdvanceX : FloatBits
  mergeMode : Bool
  rasterizerFlags : Nat
  rasterizerMultiply : FloatBits
  ellipsisChar : Nat
  deriving DecidableEq

def FontConfig.default : FontConfig where
  fontNo := 0
  oversampleH := 3
  oversampleV := 1
  pixelSnapH := false
  glyphExtraSpacing := (0, 0)
  glyphOffset := (0, 0)
  glyphRanges := []
  glyphMinAdvanceX := 0
  glyphMaxAdvanceX := 0x7F7FFFFF
  mergeMode := false
  rasterizerFlags := 0
  rasterizerMultiply := 0x3F800000
  ellipsisChar := 0xFFFF

structure FontHandle where
  address : Nat
  deriving DecidableEq

inductive GlyphCoverage where
  | localized
  | hostDefault
  deriving DecidableEq

structure FontBuildRequest where
  identifier : String
  data : List UInt8
  size : FloatBits
  config : FontConfig
  coverage : GlyphCoverage

/-- A callback by the calls of it that panic. -/
structure FontCallback where
  panics : Nat → Bool

structure Subscriber where
  id : Nat
  owner : OwnerId
  callback : FontCallback
  seen : List (Option FontHandle)

namespace Subscriber

/-- `invoke_callback`: a panic is contained and the callback has seen the font all the same. -/
def invoke (subscriber : Subscriber) (font : Option FontHandle) : Bool × Subscriber :=
  (subscriber.callback.panics subscriber.seen.length,
    { subscriber with seen := subscriber.seen ++ [font] })

def last (subscriber : Subscriber) : Option (Option FontHandle) := subscriber.seen.getLast?

@[simp] theorem last_invoke (subscriber : Subscriber) (font : Option FontHandle) :
    (subscriber.invoke font).2.last = some font := List.getLast?_concat ..

end Subscriber

structure FontEntry where
  identifier : String
  size : FloatBits
  data : List UInt8
  config : FontConfig
  handle : Option FontHandle
  ownerClaims : List OwnerId
  subscribers : List Subscriber

namespace FontEntry

def isUnreferenced (entry : FontEntry) : Bool := entry.ownerClaims.isEmpty && entry.subscribers.isEmpty

def claim (entry : FontEntry) (owner : OwnerId) : FontEntry :=
  if owner ∈ entry.ownerClaims then entry
  else { entry with ownerClaims := entry.ownerClaims ++ [owner] }

def unclaim (entry : FontEntry) (owner : OwnerId) : FontEntry :=
  { entry with ownerClaims := entry.ownerClaims.filter fun other => other ≠ owner }

/-- Notifies every subscriber, and counts the panics. -/
def notify (entry : FontEntry) (font : Option FontHandle) : Nat × FontEntry :=
  (entry.subscribers.countP fun subscriber => (subscriber.invoke font).1,
    { entry with subscribers := entry.subscribers.map fun subscriber =>
      (subscriber.invoke font).2 })

end FontEntry

structure FontRegistration where
  subscription : Option Nat
  created : Bool
  deriving DecidableEq

structure FontMemoryReplacement where
  identifier : String
  size : FloatBits
  data : List UInt8
  config : FontConfig

structure FontOwnerReplaceReport where
  requested : Nat
  created : Nat
  updated : Nat
  removedClaims : Nat
  removedEntries : Nat
  retainedOmitted : Nat
  deriving DecidableEq

inductive FontOwnerReplaceError where
  | invalidRequest (requestIndex : Nat) (source : FontError)
  | duplicateIdentifier (requestIndex : Nat)
  | ownerConflict (requestIndex : Nat)
  deriving DecidableEq

structure FontGetResult where
  subscription : Option Nat
  callbackPanicked : Bool
  deriving DecidableEq

structure FontAdvance where
  rebuilt : Bool
  callbackPanics : Nat
  deriving DecidableEq

abbrev RebuildResult := Call (Except FontBackendError (List (Option FontHandle)))

/-- Font registry and atlas coordinator. The registries that rebuilds were entered with are kept
in order. -/
structure FontManager where
  registry : List FontEntry
  atlasBuilt : Bool
  nextSubscription : Nat
  rebuilds : List (List FontEntry)

namespace FontManager

def new : FontManager := ⟨[], false, 0, []⟩

def validateIdentifier (identifier : String) : Except FontError Unit :=
  if identifier = "" ∨ Char.ofNat 0 ∈ identifier.toList then .error .invalidIdentifier else .ok ()

def validateSize (size : FloatBits) : Except FontError Unit :=
  if size.isFinite && size.atLeastOne then .ok () else .error .invalidSize

def validRanges : List Nat → Bool
  | [last] => last = 0
  | first :: stop :: rest => first ≠ 0 ∧ first ≤ stop ∧ validRanges rest
  | [] => false

def validateConfig (config : FontConfig) : Except FontError Unit :=
  if config.oversampleH < 1 ∨ config.oversampleV < 1 ∨ config.glyphMinAdvanceX.isFinite = false ∨
      config.glyphMaxAdvanceX.isFinite = false ∨ config.rasterizerMultiply.isFinite = false ∨
      config.rasterizerMultiply.isPositive = false ∨
      config.glyphExtraSpacing.1.isFinite = false ∨ config.glyphExtraSpacing.2.isFinite = false ∨
      config.glyphOffset.1.isFinite = false ∨ config.glyphOffset.2.isFinite = false then
    .error .invalidConfig
  else if config.glyphRanges ≠ [] ∧ validRanges config.glyphRanges = false then
    .error .invalidConfig
  else .ok ()

def validateRegistration (identifier : String) (size : FloatBits) (data : List UInt8)
    (config : FontConfig) : Except FontError Unit := do
  validateIdentifier identifier
  validateSize size
  if data = [] then .error .emptyData else validateConfig config

def find (manager : FontManager) (identifier : String) : Option FontEntry :=
  manager.registry.find? fun entry => entry.identifier = identifier

def updateFirst (identifier : String) (f : FontEntry → FontEntry) : List FontEntry → List FontEntry
  | [] => []
  | entry :: rest =>
    if entry.identifier = identifier then f entry :: rest else entry :: updateFirst identifier f rest

/-- The counter saturates like the code's `u64`. -/
def allocated (manager : FontManager) : Nat := min (manager.nextSubscription + 1) (2 ^ 64 - 1)

def subscribe (subscriber : Subscriber) (entry : FontEntry) : FontEntry :=
  { entry with subscribers := entry.subscribers ++ [subscriber] }

/-- `register_owned`. A font that exists takes the callback, or the owner's claim without one. -/
def registerOwned (owner : OwnerId) (identifier : String) (size : FloatBits) (data : List UInt8)
    (config : FontConfig) (callback : Option FontCallback) (manager : FontManager) :
    FontRegistration × FontManager :=
  match manager.find identifier, callback with
  | some _, some callback =>
    (⟨some manager.allocated, false⟩, { manager with
      nextSubscription := manager.allocated
      registry := updateFirst identifier (subscribe ⟨manager.allocated, owner, callback, []⟩)
        manager.registry })
  | some _, none =>
    (⟨none, false⟩, { manager with
      registry := updateFirst identifier (·.claim owner) manager.registry })
  | none, some callback =>
    (⟨some manager.allocated, true⟩, { manager with
      nextSubscription := manager.allocated
      registry := manager.registry ++ [⟨identifier, size, data, config, none, [],
        [⟨manager.allocated, owner, callback, []⟩]⟩]
      atlasBuilt := false })
  | none, none =>
    (⟨none, true⟩, { manager with
      registry := manager.registry ++ [⟨identifier, size, data, config, none, [owner], []⟩]
      atlasBuilt := false })

def registerMemory (owner : OwnerId) (identifier : String) (size : FloatBits) (data : List UInt8)
    (config : FontConfig) (callback : Option FontCallback) :
    Fallible FontManager FontError FontRegistration := fun manager =>
  match validateRegistration identifier size data config with
  | .error error => (.error error, manager)
  | .ok () =>
    let (registration, next) := registerOwned owner identifier size data config callback manager
    (.ok registration, next)

def registerLoaded (loaded : Except FontAssetError (List UInt8)) (owner : OwnerId)
    (identifier : String) (size : FloatBits) (config : FontConfig)
    (callback : Option FontCallback) : Fallible FontManager FontError FontRegistration :=
  match loaded with
  | .error error => Fallible.fail (.asset error)
  | .ok data => registerMemory owner identifier size data config callback

/-- The immediate callback gets the current font or none, and is kept for an existing font. -/
def get (owner : OwnerId) (identifier : String) (callback : FontCallback) :
    Fallible FontManager FontError FontGetResult := fun manager =>
  match validateIdentifier identifier with
  | .error error => (.error error, manager)
  | .ok () =>
    match manager.find identifier with
    | none => (.ok ⟨none, callback.panics 0⟩, manager)
    | some entry =>
      let (panicked, subscriber) :=
        (⟨manager.allocated, owner, callback, []⟩ : Subscriber).invoke entry.handle
      (.ok ⟨some manager.allocated, panicked⟩, { manager with
        nextSubscription := manager.allocated
        registry := updateFirst identifier (subscribe subscriber) manager.registry })

def dropSubscription (subscription : Nat) (entry : FontEntry) : FontEntry :=
  { entry with subscribers := entry.subscribers.filter fun subscriber =>
      subscriber.id ≠ subscription }

def removeFirst (identifier : String) : List FontEntry → List FontEntry
  | [] => []
  | entry :: rest =>
    if entry.identifier = identifier then rest else entry :: removeFirst identifier rest

/-- Releases one callback, and the font with it when nothing else holds it. -/
def release (identifier : String) (subscription : Nat) (manager : FontManager) :
    Bool × FontManager :=
  match manager.find identifier with
  | none => (false, manager)
  | some entry =>
    let dropped := dropSubscription subscription entry
    let removed : Bool := entry.subscribers.length ≠ dropped.subscribers.length
    if removed && dropped.isUnreferenced then
      (removed, { manager with
        registry := removeFirst identifier manager.registry
        atlasBuilt := false })
    else
      (removed, { manager with
        registry := updateFirst identifier (dropSubscription subscription) manager.registry })

def dropOwner (owner : OwnerId) (entry : FontEntry) : FontEntry :=
  { entry with subscribers := entry.subscribers.filter fun subscriber => subscriber.owner ≠ owner }

def subscriberCount (registry : List FontEntry) : Nat :=
  (registry.map fun entry => entry.subscribers.length).sum

def cleanupOwnerCallbacks (owner : OwnerId) (manager : FontManager) : Nat × FontManager :=
  let registry := manager.registry.map (dropOwner owner)
  (subscriberCount manager.registry - subscriberCount registry, { manager with registry })

def cleanupOwnerResources (owner : OwnerId) (manager : FontManager) : Nat × FontManager :=
  let registry := (manager.registry.map (·.unclaim owner)).filter fun entry => !entry.isUnreferenced
  (manager.registry.countP fun entry => owner ∈ entry.ownerClaims, { manager with
    registry
    atlasBuilt := manager.atlasBuilt && decide (registry.length = manager.registry.length) })

def cleanupOwner (owner : OwnerId) (manager : FontManager) : Nat × FontManager :=
  let (callbacks, manager) := cleanupOwnerCallbacks owner manager
  let (resources, manager) := cleanupOwnerResources owner manager
  (callbacks + resources, manager)

def resize (identifier : String) (size : FloatBits) : Fallible FontManager FontError Bool :=
  fun manager =>
    match validateSize size with
    | .error error => (.error error, manager)
    | .ok () =>
      match manager.find identifier with
      | none => (.error .unknownFont, manager)
      | some entry =>
        if entry.size = size then (.ok false, manager)
        else (.ok true, { manager with
          registry := updateFirst identifier (fun entry => { entry with size }) manager.registry
          atlasBuilt := false })

def reload (manager : FontManager) : FontManager := { manager with atlasBuilt := false }

def buildRequest (entry : FontEntry) : FontBuildRequest :=
  ⟨entry.identifier, entry.data, entry.size, entry.config,
    if entry.identifier = "FONT_DEFAULT" then .hostDefault else .localized⟩

def notifyCallbacks (notifyNull : Bool) (registry : List FontEntry) : Nat × List FontEntry :=
  let handle := fun entry : FontEntry => if notifyNull then none else entry.handle
  ((registry.map fun entry => (entry.notify (handle entry)).1).sum,
    registry.map fun entry => (entry.notify (handle entry)).2)

/-- The registry that a rebuild is entered with: every subscriber was told that its font is gone,
and the handles are cleared. -/
def invalidated (registry : List FontEntry) : List FontEntry :=
  (notifyCallbacks true registry).2.map fun entry => { entry with handle := none }

def publish (registry : List FontEntry) (handles : List (Option FontHandle)) : List FontEntry :=
  (registry.zip handles).map fun (entry, handle) => { entry with handle }

def advance (rebuild : List FontBuildRequest → RebuildResult) :
    Fallible FontManager (Fault FontError) FontAdvance := fun manager =>
  if manager.atlasBuilt then (.ok ⟨false, 0⟩, manager)
  else
    let panics := (notifyCallbacks true manager.registry).1
    let registry := invalidated manager.registry
    let entered := { manager with registry, rebuilds := manager.rebuilds ++ [registry] }
    match rebuild (registry.map buildRequest) with
    | .unwound => (.error .unwound, entered)
    | .returned (.error error) => (.error (.error (.backend error)), entered)
    | .returned (.ok handles) =>
      if handles.length ≠ registry.length ∨ handles.any Option.isNone then
        (.error (.error .incompleteBuild), entered)
      else
        let (published, registry) := notifyCallbacks false (publish registry handles)
        (.ok ⟨true, panics + published⟩, { entered with registry, atlasBuilt := true })

def handle (manager : FontManager) (identifier : String) : Option FontHandle :=
  (manager.find identifier).bind FontEntry.handle

end FontManager

namespace FontManager

def checkRequests : Nat → List String → List FontMemoryReplacement →
    Except FontOwnerReplaceError Unit
  | _, _, [] => .ok ()
  | index, seen, request :: rest =>
    match validateRegistration request.identifier request.size request.data request.config with
    | .error source => .error (.invalidRequest index source)
    | .ok () =>
      if request.identifier ∈ seen then .error (.duplicateIdentifier index)
      else checkRequests (index + 1) (seen ++ [request.identifier]) rest

def checkClaims (manager : FontManager) (owner : OwnerId) : Nat → List FontMemoryReplacement →
    Except FontOwnerReplaceError Unit
  | _, [] => .ok ()
  | index, request :: rest =>
    if (manager.find request.identifier).any fun entry => owner ∉ entry.ownerClaims then
      .error (.ownerConflict index)
    else checkClaims manager owner (index + 1) rest

structure Omitted where
  remaining : List FontEntry
  insertionIndex : Nat
  report : FontOwnerReplaceReport

def omitEntry (owner : OwnerId) (requests : List FontMemoryReplacement) (anchor : Nat)
    (state : Omitted) (item : FontEntry × Nat) : Omitted :=
  let (entry, oldIndex) := item
  if requests.any fun request => entry.identifier = request.identifier then state
  else
    let claimed : Bool := owner ∈ entry.ownerClaims
    let entry := entry.unclaim owner
    if claimed && entry.isUnreferenced then
      { state with report := { state.report with
          removedClaims := state.report.removedClaims + 1
          removedEntries := state.report.removedEntries + 1 } }
    else
      { remaining := state.remaining ++ [entry]
        insertionIndex := state.insertionIndex + if oldIndex < anchor then 1 else 0
        report := if claimed then { state.report with
            removedClaims := state.report.removedClaims + 1
            retainedOmitted := state.report.retainedOmitted + 1 }
          else state.report }

/-- The entry of a request: the last one of the previous registry with its identifier, updated in
place, or a new one. -/
def desiredEntry (owner : OwnerId) (previous : List FontEntry) (request : FontMemoryReplacement) :
    FontEntry :=
  match previous.reverse.find? fun entry => entry.identifier = request.identifier with
  | some entry => { entry with
      identifier := request.identifier
      size := request.size
      data := request.data
      config := request.config }
  | none => ⟨request.identifier, request.size, request.data, request.config, none, [owner], []⟩

def ownerAnchor (owner : OwnerId) (registry : List FontEntry) : Nat :=
  registry.findIdx fun entry => owner ∈ entry.ownerClaims

/-- Replaces every memory-backed font claimed by one owner, in the order of the requests. -/
def replaceOwnerMemory (owner : OwnerId) (requests : List FontMemoryReplacement) :
    Fallible FontManager FontOwnerReplaceError FontOwnerReplaceReport := fun manager =>
  match checkRequests 0 [] requests with
  | .error error => (.error error, manager)
  | .ok () =>
    match checkClaims manager owner 0 requests with
    | .error error => (.error error, manager)
    | .ok () =>
      let omitted := manager.registry.zipIdx.foldl
        (omitEntry owner requests (ownerAnchor owner manager.registry))
        ⟨[], 0, ⟨requests.length, 0, 0, 0, 0, 0⟩⟩
      let updated := requests.countP fun request =>
        manager.registry.any fun entry => entry.identifier = request.identifier
      (.ok { omitted.report with updated, created := requests.length - updated }, { manager with
        registry := omitted.remaining.take omitted.insertionIndex ++
          requests.map (desiredEntry owner manager.registry) ++
          omitted.remaining.drop omitted.insertionIndex
        atlasBuilt := false })

end FontManager

end Nexus
