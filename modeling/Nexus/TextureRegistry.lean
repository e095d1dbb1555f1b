import Mathlib.Data.Nat.Find
import Mathlib.Data.Set.Finite.Basic
import Mathlib.Data.String.Basic
import Nexus.Fallible
import Nexus.SortedMap

namespace Nexus.Textures

structure OwnerGeneration where
  owner : Nat
  generation : Nat
  deriving DecidableEq

inductive RequestOwner where
  | host
  | addon (owner : OwnerGeneration)
  deriving DecidableEq

structure LoadOptions where
  owner : RequestOwner
  shadowExisting : Bool
  deriving DecidableEq

inductive QueueKind where
  | work
  | download
  | completion
  deriving DecidableEq

inductive TextureError where
  | invalidIdentifier
  | urlTooLong
  | encodedTooLarge
  | invalidDecodedImage
  | queueFull (queue : QueueKind)
  | fileUnavailable
  | resourceUnavailable
  | overrideUnavailable
  | downloadFailed
  | decodeFailed
  | gpuUploadFailed
  | callbackLimit
  | serviceStopped
  deriving DecidableEq

/-- A lease of one registry allocation. The address tells allocations apart, so that equal handles are
what `Arc::ptr_eq` finds equal. -/
structure TextureHandle where
  address : Nat
  width : Nat
  height : Nat
  resource : Nat
  deriving DecidableEq

structure CallbackRegistration where
  id : Nat
  owner : RequestOwner
  callback : Nat
  deriving DecidableEq

structure ShadowedTexture where
  shadowAlias : String
  texture : TextureHandle
  deriving DecidableEq

structure PendingRequest where
  requestId : Nat
  owners : List RequestOwner
  callbacks : List CallbackRegistration
  shadowed : Option ShadowedTexture
  deriving DecidableEq

structure RegistryState where
  nextRequestId : Nat
  nextCallbackId : Nat
  registry : SortedMap String TextureHandle
  pending : SortedMap String PendingRequest

/-- `wrapping_add(1).max(1)` of a `u64`. -/
def nextId (id : Nat) : Nat := if id + 1 = 2 ^ 64 then 1 else id + 1

def aliasName (identifier : String) (suffix : Nat) : String := identifier ++ "_" ++ suffix.repr

theorem aliasName_injective (identifier : String) : Function.Injective (aliasName identifier) := by
  intro a b h
  have hdigits : Nat.toDigits 10 a = Nat.toDigits 10 b := by
    have hlist := congrArg String.toList h
    simp only [aliasName, String.toList_append] at hlist
    have hrepr := List.append_cancel_left hlist
    rw [Nat.toList_repr, Nat.toList_repr] at hrepr
    exact hrepr
  rw [← Nat.ofDigitChars_toDigits (b := 10) (n := a) (by decide) (by decide), hdigits,
    Nat.ofDigitChars_toDigits (by decide) (by decide)]

theorem aliasName_ne (identifier : String) (suffix : Nat) :
    aliasName identifier suffix ≠ identifier := by
  intro h
  have hlength := congrArg (fun text => text.toList.length) h
  unfold aliasName at hlength
  simp at hlength

def RegistryState.isFree (state : RegistryState) (identifier : String) : Prop :=
  state.registry.get? identifier = none ∧ state.pending.get? identifier = none

instance (state : RegistryState) (identifier : String) : Decidable (state.isFree identifier) :=
  inferInstanceAs (Decidable (_ ∧ _))

theorem exists_free (state : RegistryState) (identifier : String) :
    ∃ suffix, state.isFree (aliasName identifier (suffix + 1)) := by
  let taken := state.registry.toList.map Prod.fst ++ state.pending.toList.map Prod.fst
  have hinjective : Function.Injective fun suffix => aliasName identifier (suffix + 1) :=
    fun a b h => Nat.succ_injective (aliasName_injective identifier h)
  obtain ⟨_, ⟨suffix, rfl⟩, hnot⟩ :=
    (Set.infinite_range_of_injective hinjective).exists_notMem_finset taken.toFinset
  rw [List.mem_toFinset, List.mem_append, not_or] at hnot
  exact ⟨suffix, SortedMap.find_eq_none hnot.1, SortedMap.find_eq_none hnot.2⟩

def shadowTexture (state : RegistryState) (identifier : String) :
    Option ShadowedTexture × RegistryState :=
  match state.registry.get? identifier with
  | none => (none, state)
  | some texture =>
    let removed := { state with registry := state.registry.erase identifier }
    let shadowAlias := aliasName identifier (Nat.find (exists_free removed identifier) + 1)
    (some ⟨shadowAlias, texture⟩,
      { removed with registry := removed.registry.put shadowAlias texture })

def restoreShadow (registry : SortedMap String TextureHandle) (identifier : String) :
    Option ShadowedTexture → SortedMap String TextureHandle
  | none => registry
  | some shadowed =>
    if (registry.get? identifier).isSome then registry
    else
      let registry :=
        if registry.get? shadowed.shadowAlias = some shadowed.texture then
          registry.erase shadowed.shadowAlias
        else registry
      registry.put identifier shadowed.texture

inductive Reservation where
  | new (requestId : Nat) (primaryCallbackId : Option Nat)
  | cached (texture : TextureHandle)
  | joined
  deriving DecidableEq

def registerCallback (owner : RequestOwner) (callback : Option Nat) (state : RegistryState) :
    Option CallbackRegistration × RegistryState :=
  match callback with
  | none => (none, state)
  | some callback =>
    (some ⟨state.nextCallbackId, owner, callback⟩,
      { state with nextCallbackId := nextId state.nextCallbackId })

def joinRequest (identifier : String) (pending : PendingRequest) (owner : RequestOwner)
    (registration : Option CallbackRegistration) (state : RegistryState) : RegistryState :=
  { state with
    pending := state.pending.put identifier { pending with
      owners := pending.owners.insert owner
      callbacks := pending.callbacks ++ registration.toList } }

def openRequest (identifier : String) (owner : RequestOwner)
    (registration : Option CallbackRegistration) (shadowed : Option ShadowedTexture)
    (state : RegistryState) : RegistryState :=
  { state with
    nextRequestId := nextId state.nextRequestId
    pending := state.pending.put identifier
      ⟨state.nextRequestId, [owner], registration.toList, shadowed⟩ }

def reserveRequest (maximumCallbacks : Nat) (identifier : String) (options : LoadOptions)
    (callback : Option Nat) (attachJoinedCallback : Bool) (state : RegistryState) :
    Except TextureError Reservation × RegistryState :=
  let (registration, state) := registerCallback options.owner callback state
  match state.pending.get? identifier with
  | some pending =>
    let registration := if attachJoinedCallback then registration else none
    if registration.isSome ∧ maximumCallbacks ≤ pending.callbacks.length then
      (.error .callbackLimit, state)
    else (.ok .joined, joinRequest identifier pending options.owner registration state)
  | none =>
    if options.shadowExisting then
      let (shadowed, shadowing) := shadowTexture state identifier
      (.ok (.new state.nextRequestId (registration.map CallbackRegistration.id)),
        openRequest identifier options.owner registration shadowed shadowing)
    else
      match state.registry.get? identifier with
      | some texture => (.ok (.cached texture), state)
      | none =>
        (.ok (.new state.nextRequestId (registration.map CallbackRegistration.id)),
          openRequest identifier options.owner registration none state)

def pendingMatches (identifier : String) (requestId : Nat) (state : RegistryState) : Bool :=
  (state.pending.get? identifier).any fun pending => pending.requestId = requestId

def takePending (identifier : String) (requestId : Nat) (state : RegistryState) :
    Option (PendingRequest × RegistryState) :=
  match state.pending.get? identifier with
  | none => none
  | some pending =>
    if pending.requestId = requestId then
      some (pending, { state with pending := state.pending.erase identifier })
    else none

/-- The locked end of `finish_decode`. -/
def registerResult (identifier : String) (requestId : Nat)
    (result : Except TextureError TextureHandle) (state : RegistryState) :
    Option (List CallbackRegistration) × RegistryState :=
  match takePending identifier requestId state with
  | none => (none, state)
  | some (pending, state) =>
    match result with
    | .ok texture =>
      (some pending.callbacks, { state with registry := state.registry.put identifier texture })
    | .error _ =>
      (some pending.callbacks, { state with
        registry := restoreShadow state.registry identifier pending.shadowed })

def failPending (identifier : String) (requestId : Nat) (excludedCallbackId : Option Nat)
    (state : RegistryState) : List CallbackRegistration × RegistryState :=
  match takePending identifier requestId state with
  | none => ([], state)
  | some (pending, state) =>
    (pending.callbacks.filter fun registration => some registration.id ≠ excludedCallbackId,
      { state with registry := restoreShadow state.registry identifier pending.shadowed })

def PendingRequest.withoutOwner (target : RequestOwner) (pending : PendingRequest) :
    PendingRequest :=
  { pending with
    callbacks := pending.callbacks.filter fun registration => registration.owner ≠ target
    owners := pending.owners.filter fun owner => owner ≠ target }

def PendingRequest.isAbandoned (pending : PendingRequest) : Bool :=
  pending.owners.isEmpty && pending.callbacks.isEmpty

def cancelPending (state : RegistryState) (identifier : String) : RegistryState :=
  match state.pending.get? identifier with
  | none => state
  | some pending =>
    { state with
      pending := state.pending.erase identifier
      registry := restoreShadow state.registry identifier pending.shadowed }

def ownedCallbacks (target : RequestOwner) (state : RegistryState) : List CallbackRegistration :=
  state.pending.values.flatMap fun pending =>
    pending.callbacks.filter fun registration => registration.owner = target

def forgetOwner (target : RequestOwner) (state : RegistryState) : RegistryState :=
  { state with pending := state.pending.mapValues (PendingRequest.withoutOwner target) }

def abandoned (state : RegistryState) : List String :=
  (state.pending.toList.filter fun entry => entry.2.isAbandoned).map Prod.fst

/-- The locked part of `cleanup_owner_generation`. `order` is the order in which the table lists the
cancelled requests. -/
def cleanupPending (target : RequestOwner) (order : List String) (state : RegistryState) :
    RegistryState := order.foldl cancelPending (forgetOwner target state)

end Nexus.Textures
