import Nexus.TextureRegistry

namespace Nexus.Textures

def Separate (state : RegistryState) : Prop :=
  ∀ identifier texture, state.registry.get? identifier = some texture →
    state.pending.get? identifier = none

/-- Every texture of the first registry is in the second under some identifier. -/
def Keeps (before after : SortedMap String TextureHandle) : Prop :=
  ∀ identifier texture, before.get? identifier = some texture →
    ∃ other, after.get? other = some texture

theorem Keeps.refl (registry : SortedMap String TextureHandle) : Keeps registry registry :=
  fun identifier _ h => ⟨identifier, h⟩

theorem Keeps.trans {first second third : SortedMap String TextureHandle}
    (h : Keeps first second) (h' : Keeps second third) : Keeps first third := by
  intro identifier texture hget
  obtain ⟨other, hother⟩ := h identifier texture hget
  exact h' other texture hother

theorem Keeps.put {registry : SortedMap String TextureHandle} {identifier : String}
    (h : registry.get? identifier = none) (texture : TextureHandle) :
    Keeps registry (registry.put identifier texture) := by
  intro other found hfound
  refine ⟨other, ?_⟩
  rw [SortedMap.get?_put, if_neg]
  · exact hfound
  · rintro rfl
    rw [h] at hfound
    cases hfound

variable {registry : SortedMap String TextureHandle} {texture : TextureHandle}

theorem Keeps.moved {source target : String} (hsource : registry.get? source = some texture)
    (htarget : registry.get? target = none) :
    Keeps registry ((registry.erase source).put target texture) := by
  intro other found hfound
  by_cases hother : other = source
  · refine ⟨target, ?_⟩
    rw [SortedMap.get?_put, if_pos rfl, ← hsource, ← hother, hfound]
  · have hne : other ≠ target := by
      rintro rfl
      rw [htarget] at hfound
      cases hfound
    exact ⟨other, by rw [SortedMap.get?_put, if_neg hne, SortedMap.get?_erase, if_neg hother, hfound]⟩

variable {state : RegistryState} {identifier : String}

theorem shadowTexture_cases (state : RegistryState) (identifier : String) :
    state.registry.get? identifier = none ∧ shadowTexture state identifier = (none, state) ∨
      ∃ texture target, state.registry.get? identifier = some texture ∧
        state.registry.get? target = none ∧ state.pending.get? target = none ∧
        target ≠ identifier ∧
        shadowTexture state identifier = (some ⟨target, texture⟩, { state with
          registry := (state.registry.erase identifier).put target texture }) := by
  rcases hget : state.registry.get? identifier with _ | texture
  · exact Or.inl ⟨rfl, by simp only [shadowTexture, hget]⟩
  · have hfree := Nat.find_spec (exists_free { state with
      registry := state.registry.erase identifier } identifier)
    obtain ⟨hregistry, hpending⟩ := hfree
    rw [SortedMap.get?_erase, if_neg (aliasName_ne _ _)] at hregistry
    exact Or.inr ⟨texture, _, rfl, hregistry, hpending, aliasName_ne _ _, by
      simp only [shadowTexture, hget]⟩

theorem shadowTexture_keeps (state : RegistryState) (identifier : String) :
    Keeps state.registry (shadowTexture state identifier).2.registry := by
  rcases shadowTexture_cases state identifier with
    ⟨_, h⟩ | ⟨texture, target, hsource, htarget, _, _, h⟩
  · rw [h]
    exact .refl _
  · rw [h]
    exact .moved hsource htarget

theorem shadowTexture_registry (state : RegistryState) (identifier : String) :
    (shadowTexture state identifier).2.registry.get? identifier = none := by
  rcases shadowTexture_cases state identifier with ⟨hnone, h⟩ | ⟨_, _, _, _, _, hne, h⟩
  · rw [h]
    exact hnone
  · rw [h]
    dsimp only
    rw [SortedMap.get?_put, if_neg hne.symm, SortedMap.get?_erase, if_pos rfl]

theorem shadowTexture_separate (h : Separate state) (identifier : String) :
    Separate (shadowTexture state identifier).2 := by
  rcases shadowTexture_cases state identifier with ⟨_, heq⟩ | ⟨_, _, _, _, hpending, _, heq⟩
  · rw [heq]
    exact h
  · rw [heq]
    dsimp only
    intro other found hfound
    rw [SortedMap.get?_put] at hfound
    split at hfound
    next hother => rw [hother, hpending]
    next =>
      rw [SortedMap.get?_erase] at hfound
      split at hfound
      · cases hfound
      · exact h other found hfound

theorem restoreShadow_keeps (registry : SortedMap String TextureHandle) (identifier : String)
    (shadowed : Option ShadowedTexture) :
    Keeps registry (restoreShadow registry identifier shadowed) := by
  rcases shadowed with _ | shadowed
  · exact .refl _
  unfold restoreShadow
  dsimp only
  split
  · exact .refl _
  next hfree =>
  rw [Option.not_isSome_iff_eq_none] at hfree
  split
  next hshadow => exact .moved hshadow hfree
  next => exact .put hfree _

theorem restoreShadow_found {identifier : String} {shadowed : Option ShadowedTexture}
    {other : String} (h : (restoreShadow registry identifier shadowed).get? other = some texture)
    (hne : other ≠ identifier) : registry.get? other = some texture := by
  rcases shadowed with _ | shadowed
  · exact h
  unfold restoreShadow at h
  dsimp only at h
  split at h
  · exact h
  rw [SortedMap.get?_put, if_neg hne] at h
  split at h
  · rw [SortedMap.get?_erase] at h
    split at h
    · cases h
    · exact h
  · exact h

/-- A step of the registry that keeps its textures and the separation from the requests. -/
structure Preserves (before after : RegistryState) : Prop where
  separate : Separate before → Separate after
  keeps : Separate before → Keeps before.registry after.registry

theorem Preserves.refl (state : RegistryState) : Preserves state state :=
  ⟨fun h => h, fun _ => .refl _⟩

theorem Preserves.trans {first second third : RegistryState} (h : Preserves first second)
    (h' : Preserves second third) : Preserves first third :=
  ⟨fun hs => h'.separate (h.separate hs), fun hs => (h.keeps hs).trans (h'.keeps (h.separate hs))⟩

theorem Preserves.pending {before after : RegistryState} (hregistry : after.registry = before.registry)
    (hpending : ∀ identifier, before.registry.get? identifier ≠ none →
      before.pending.get? identifier = none → after.pending.get? identifier = none) :
    Preserves before after where
  separate := fun h identifier texture hget => by
    rw [hregistry] at hget
    exact hpending identifier (by rw [hget]; exact Option.some_ne_none texture)
      (h identifier texture hget)
  keeps := fun _ => by
    rw [hregistry]
    exact .refl _

variable {pending : PendingRequest}

theorem takePending_cases {requestId : Nat} {next : RegistryState}
    (h : takePending identifier requestId state = some (pending, next)) :
    state.pending.get? identifier = some pending ∧ pending.requestId = requestId ∧
      next = { state with pending := state.pending.erase identifier } := by
  unfold takePending at h
  split at h
  · cases h
  next hget =>
    split at h
    next hid =>
      cases h
      exact ⟨hget, hid, rfl⟩
    · cases h

theorem preserves_erase (hget : state.pending.get? identifier = some pending)
    (hkeeps : state.registry.get? identifier = none → Keeps state.registry registry)
    (hfound : ∀ other texture, registry.get? other = some texture → other ≠ identifier →
      state.registry.get? other = some texture) :
    Preserves state { state with pending := state.pending.erase identifier, registry } where
  separate := by
    intro h other texture hother
    rw [SortedMap.get?_erase]
    split
    · rfl
    next hne => exact h other texture (hfound other texture hother hne)
  keeps := by
    intro h
    refine hkeeps ?_
    rcases htexture : state.registry.get? identifier with _ | texture
    · rfl
    · rw [h identifier texture htexture] at hget
      cases hget

theorem registerResult_preserves (identifier : String) (requestId : Nat)
    (result : Except TextureError TextureHandle) (state : RegistryState) :
    Preserves state (registerResult identifier requestId result state).2 := by
  unfold registerResult
  split
  · exact .refl state
  next htake =>
    obtain ⟨hget, _, rfl⟩ := takePending_cases htake
    cases result with
    | ok texture =>
      refine preserves_erase hget (fun hfree => .put hfree texture) fun other found hfound hne => ?_
      rw [SortedMap.get?_put, if_neg hne] at hfound
      exact hfound
    | error =>
      exact preserves_erase hget (fun _ => restoreShadow_keeps _ _ _)
        fun _ _ hfound hne => restoreShadow_found hfound hne

theorem failPending_preserves (identifier : String) (requestId : Nat) (excluded : Option Nat)
    (state : RegistryState) :
    Preserves state (failPending identifier requestId excluded state).2 := by
  unfold failPending
  split
  · exact .refl state
  next htake =>
    obtain ⟨hget, _, rfl⟩ := takePending_cases htake
    exact preserves_erase hget (fun _ => restoreShadow_keeps _ _ _)
      fun _ _ hfound hne => restoreShadow_found hfound hne

theorem cancelPending_preserves (state : RegistryState) (identifier : String) :
    Preserves state (cancelPending state identifier) := by
  unfold cancelPending
  split
  · exact .refl state
  next hget =>
    exact preserves_erase hget (fun _ => restoreShadow_keeps _ _ _)
      fun _ _ hfound hne => restoreShadow_found hfound hne

theorem cleanupPending_preserves (target : RequestOwner) (order : List String)
    (state : RegistryState) : Preserves state (cleanupPending target order state) := by
  have hforget : Preserves state (forgetOwner target state) := by
    refine .pending rfl fun identifier _ hnone => ?_
    show (state.pending.mapValues _).get? identifier = none
    rw [SortedMap.get?_mapValues, hnone, Option.map_none]
  unfold cleanupPending
  refine List.foldlRecOn order cancelPending hforget fun next hnext identifier _ => ?_
  exact hnext.trans (cancelPending_preserves next identifier)

theorem registerCallback_preserves (owner : RequestOwner) (callback : Option Nat)
    (state : RegistryState) : Preserves state (registerCallback owner callback state).2 := by
  cases callback with
  | none => exact .refl state
  | some => exact .pending rfl fun _ _ h => h

theorem joinRequest_preserves (hget : state.pending.get? identifier = some pending)
    (owner : RequestOwner) (registration : Option CallbackRegistration) :
    Preserves state (joinRequest identifier pending owner registration state) := by
  refine .pending rfl fun other _ hnone => ?_
  show (state.pending.put identifier _).get? other = none
  rw [SortedMap.get?_put, if_neg]
  · exact hnone
  · rintro rfl
    rw [hget] at hnone
    cases hnone

theorem openRequest_preserves (hfree : state.registry.get? identifier = none)
    (owner : RequestOwner) (registration : Option CallbackRegistration)
    (shadowed : Option ShadowedTexture) :
    Preserves state (openRequest identifier owner registration shadowed state) := by
  refine .pending rfl fun other hother hnone => ?_
  show (state.pending.put identifier _).get? other = none
  rw [SortedMap.get?_put, if_neg]
  · exact hnone
  · rintro rfl
    exact hother hfree

theorem reserveRequest_preserves (maximumCallbacks : Nat) (identifier : String)
    (options : LoadOptions) (callback : Option Nat) (attachJoinedCallback : Bool)
    (state : RegistryState) :
    Preserves state (reserveRequest maximumCallbacks identifier options callback
      attachJoinedCallback state).2 := by
  unfold reserveRequest
  rcases hregistered : registerCallback options.owner callback state with ⟨registration, counted⟩
  have hcounted := registerCallback_preserves options.owner callback state
  rw [hregistered] at hcounted
  refine hcounted.trans ?_
  dsimp only
  split
  next pending hget =>
    by_cases hlimit : (if attachJoinedCallback then registration else none).isSome ∧
        maximumCallbacks ≤ pending.callbacks.length
    · rw [if_pos hlimit]
      exact .refl counted
    · rw [if_neg hlimit]
      exact joinRequest_preserves hget ..
  next =>
  split
  · have hshadow : Preserves counted (shadowTexture counted identifier).2 :=
      ⟨fun h => shadowTexture_separate h identifier, fun _ => shadowTexture_keeps counted identifier⟩
    exact hshadow.trans (openRequest_preserves (shadowTexture_registry counted identifier) ..)
  · split
    · exact .refl counted
    next hmiss => exact openRequest_preserves hmiss ..

end Nexus.Textures
