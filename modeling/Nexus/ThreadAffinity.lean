import Nexus.Fallible
import Nexus.StepRuns

namespace Nexus.Overlay

inductive AffinityClaimError where
  | foreign
  | busy
  | staleProof
  | exhausted
  | invalidState
  deriving DecidableEq

structure AffinityProof where
  generation : Nat
  presentSequence : Nat
  deriving DecidableEq

def AffinityProof.isStrictlyAfter (proof other : AffinityProof) : Bool :=
  other.generation ≤ proof.generation ∧ other.presentSequence < proof.presentSequence

structure AffinityOwner where
  thread : Nat
  token : Nat
  claims : Nat
  leases : Nat
  guards : Nat
  deriving DecidableEq

structure AffinityState where
  owner : Option AffinityOwner
  nextToken : Nat
  latestProof : Option AffinityProof
  deriving DecidableEq

def AffinityState.default : AffinityState := ⟨none, 0, none⟩

inductive HandleKind where
  | claim
  | lease
  | guard
  deriving DecidableEq

namespace AffinityOwner

def count (owner : AffinityOwner) : HandleKind → Nat
  | .claim => owner.claims
  | .lease => owner.leases
  | .guard => owner.guards

def withCount (owner : AffinityOwner) (count : Nat) : HandleKind → AffinityOwner
  | .claim => { owner with claims := count }
  | .lease => { owner with leases := count }
  | .guard => { owner with guards := count }

@[simp] theorem withCount_thread (owner : AffinityOwner) (count : Nat) (kind : HandleKind) :
    (owner.withCount count kind).thread = owner.thread := by cases kind <;> rfl

@[simp] theorem withCount_token (owner : AffinityOwner) (count : Nat) (kind : HandleKind) :
    (owner.withCount count kind).token = owner.token := by cases kind <;> rfl

theorem count_withCount (owner : AffinityOwner) (count : Nat) (kind other : HandleKind) :
    (owner.withCount count kind).count other = if other = kind then count else owner.count other := by
  cases kind <;> cases other <;> rfl

end AffinityOwner

/-- The counters are `usize` and the tokens `u64`. -/
def checkedAdd (count : Nat) : Option Nat := if count + 1 < 2 ^ 64 then some (count + 1) else none

theorem checkedAdd_eq_some {count next : Nat} (h : checkedAdd count = some next) :
    next = count + 1 := by
  unfold checkedAdd at h
  split at h
  next => exact (Option.some.inj h).symm
  next => cases h

namespace AffinityState

def issueToken : Fallible AffinityState AffinityClaimError Nat := fun state =>
  match checkedAdd state.nextToken with
  | none => (.error .exhausted, state)
  | some token => (.ok token, { state with nextToken := token })

def openEpoch (thread : Nat) : Fallible AffinityState AffinityClaimError Nat := do
  let token ← issueToken
  Fallible.modify fun state => { state with owner := some ⟨thread, token, 1, 0, 0⟩ }
  return token

def claimToken (thread : Nat) (proof : Option AffinityProof) :
    Fallible AffinityState AffinityClaimError Nat := fun state =>
  match state.owner with
  | some owner =>
    if owner.thread = thread then
      match checkedAdd owner.claims with
      | none => (.error .exhausted, state)
      | some claims => (.ok owner.token, { state with owner := some { owner with claims } })
    else if proof.isNone then (.error .foreign, state)
    else if owner.claims ≠ 0 ∨ owner.guards ≠ 0 then (.error .busy, state)
    else openEpoch thread state
  | none =>
    if proof.isNone ∧ state.latestProof.isSome then (.error .foreign, state)
    else openEpoch thread state

def isStale (proof : Option AffinityProof) (state : AffinityState) : Bool :=
  match proof, state.latestProof with
  | some proof, some latest => !proof.isStrictlyAfter latest
  | _, _ => false

def beginClaimWithProof (thread : Nat) (proof : Option AffinityProof) :
    Fallible AffinityState AffinityClaimError Nat := fun state =>
  if isStale proof state then (.error .staleProof, state)
  else
    match claimToken thread proof state with
    | (.error error, next) => (.error error, next)
    | (.ok token, next) => (.ok token, { next with latestProof := proof.or next.latestProof })

def beginClaim (thread : Nat) : Fallible AffinityState AffinityClaimError Nat :=
  beginClaimWithProof thread none

def beginPresentClaim (thread : Nat) (proof : AffinityProof) :
    Fallible AffinityState AffinityClaimError Nat :=
  beginClaimWithProof thread (some proof)

def clearReleasedOwner (state : AffinityState) : AffinityState :=
  match state.owner with
  | some owner =>
    if owner.claims = 0 ∧ owner.leases = 0 ∧ owner.guards = 0 then { state with owner := none }
    else state
  | none => state

def release (kind : HandleKind) (thread token : Nat) (state : AffinityState) : AffinityState :=
  match state.owner with
  | some owner =>
    if owner.thread = thread ∧ owner.token = token then
      if owner.count kind = 0 then state
      else
        clearReleasedOwner
          { state with owner := some (owner.withCount (owner.count kind - 1) kind) }
    else state
  | none => state

def releaseClaim (thread token : Nat) (state : AffinityState) : AffinityState :=
  release .claim thread token state

def releaseLease (thread token : Nat) (state : AffinityState) : AffinityState :=
  release .lease thread token state

def releaseGuard (thread token : Nat) (state : AffinityState) : AffinityState :=
  release .guard thread token state

/-- A commit that fails says whether its claim is still active, to be released when it drops. -/
inductive CommitResult where
  | committed
  | refused (error : AffinityClaimError) (active : Bool)

def commitInner (guarded : Bool) (thread token : Nat) (state : AffinityState) :
    CommitResult × AffinityState :=
  match state.owner with
  | none => (.refused .foreign false, state)
  | some owner =>
    if owner.thread = thread ∧ owner.token = token then
      if owner.claims = 0 then (.refused .invalidState false, state)
      else
        match checkedAdd owner.leases,
          if guarded then checkedAdd owner.guards else some owner.guards with
        | some leases, some guards =>
          let owner := { owner with claims := owner.claims - 1, leases, guards }
          (.committed, { state with owner := some owner })
        | _, _ => (.refused .exhausted true, state)
    else (.refused .foreign false, state)

end AffinityState

/-- A live claim, lease or guard. A claim whose commit failed can only be dropped. -/
structure AffinityHandle where
  kind : HandleKind
  thread : Nat
  token : Nat
  failed : Bool
  deriving DecidableEq

namespace AffinityHandle

def carries (kind : HandleKind) (token : Nat) (handle : AffinityHandle) : Bool :=
  handle.kind = kind ∧ handle.token = token

def drop (handle : AffinityHandle) (state : AffinityState) : AffinityState :=
  match handle.kind with
  | .claim => state.releaseClaim handle.thread handle.token
  | .lease => state.releaseLease handle.thread handle.token
  | .guard => state.releaseGuard handle.thread handle.token

theorem drop_eq (handle : AffinityHandle) (state : AffinityState) :
    handle.drop state = state.release handle.kind handle.thread handle.token := by
  unfold drop
  cases handle.kind <;> rfl

end AffinityHandle

structure Epoch where
  token : Nat
  thread : Nat
  deriving DecidableEq

def AffinityOwner.epoch (owner : AffinityOwner) : Epoch := ⟨owner.token, owner.thread⟩

def AffinityHandle.epoch (handle : AffinityHandle) : Epoch := ⟨handle.token, handle.thread⟩

/-- One affinity with the handles that its threads hold, and what was accepted so far, newest
first. -/
structure AffinityWorld where
  state : AffinityState
  handles : List AffinityHandle
  proofs : List AffinityProof
  epochs : List Epoch

inductive AffinityAction where
  | beginClaim (thread : Nat)
  | beginPresentClaim (thread : Nat) (proof : AffinityProof)
  | commit (claim : AffinityHandle)
  | commitGuarded (claim : AffinityHandle)
  | drop (handle : AffinityHandle)

namespace AffinityWorld

def start : AffinityWorld := ⟨.default, [], [], []⟩

def live (world : AffinityWorld) (kind : HandleKind) (token : Nat) : Nat :=
  world.handles.countP (·.carries kind token)

def claimed (thread : Nat) (proof : Option AffinityProof)
    (result : Except AffinityClaimError Nat × AffinityState) (world : AffinityWorld) :
    AffinityWorld :=
  match result with
  | (.error _, state) => { world with state }
  | (.ok token, state) =>
    { state
      handles := ⟨.claim, thread, token, false⟩ :: world.handles
      proofs := proof.toList ++ world.proofs
      epochs := if world.state.owner.map AffinityOwner.epoch = some ⟨token, thread⟩ then world.epochs
        else ⟨token, thread⟩ :: world.epochs }

def granted (guarded : Bool) (claim : AffinityHandle) : List AffinityHandle :=
  let lease : AffinityHandle := { claim with kind := .lease }
  if guarded then [lease, { claim with kind := .guard }] else [lease]

def committed (guarded : Bool) (claim : AffinityHandle) (world : AffinityWorld) : AffinityWorld :=
  let (result, state) := world.state.commitInner guarded claim.thread claim.token
  let others := world.handles.erase claim
  { world with
    state
    handles := match result with
      | .committed => granted guarded claim ++ others
      | .refused _ active => if active then { claim with failed := true } :: others else others }

def dropped (handle : AffinityHandle) (world : AffinityWorld) : AffinityWorld :=
  { world with state := handle.drop world.state, handles := world.handles.erase handle }

def step (world : AffinityWorld) : AffinityAction → Option AffinityWorld
  | .beginClaim thread => some (world.claimed thread none (world.state.beginClaim thread))
  | .beginPresentClaim thread proof =>
    some (world.claimed thread (some proof) (world.state.beginPresentClaim thread proof))
  | .commit claim =>
    if claim ∈ world.handles ∧ claim.kind = .claim ∧ claim.failed = false then
      some (world.committed false claim)
    else none
  | .commitGuarded claim =>
    if claim ∈ world.handles ∧ claim.kind = .claim ∧ claim.failed = false then
      some (world.committed true claim)
    else none
  | .drop handle => if handle ∈ world.handles then some (world.dropped handle) else none

end AffinityWorld

end Nexus.Overlay
