import Nexus.ManagedInputBinds

namespace Nexus

namespace ManagedInputBinds

def bindingOf (state : ManagedInputBinds) (identifier : String) : Option InputBind :=
  (state.registry.get? identifier).map Mapping.binding

inductive RegistryMove (before after : ManagedInputBinds) : Prop where
  | keep (registry : after.registry = before.registry) (slots : after.jsonSlots = before.jsonSlots)
  | put (identifier : String) (mapping : Mapping)
      (known : validIdentifier identifier = true ∨ (before.registry.get? identifier).isSome = true)
      (binding : before.bindingOf identifier = some mapping.binding ∨
        (mapping.binding.normalized = mapping.binding ∧
          findConflict before.registry identifier mapping.binding = none))
      (extras : mapping.extraJson =
        ((before.registry.get? identifier).map Mapping.extraJson).getD [])
      (registry : after.registry = before.registry.put identifier mapping)
      (slots : after.jsonSlots = before.jsonSlots)
  | erase (identifier : String) (registry : after.registry = before.registry.erase identifier)
      (slots : after.jsonSlots = before.jsonSlots)

abbrev RegistryMoves : ManagedInputBinds → ManagedInputBinds → Prop :=
  Relation.ReflTransGen RegistryMove

end ManagedInputBinds

namespace ManagedWorld

open ManagedInputBinds

section Frames

variable (platform : ManagedPlatform)

theorem dispatchAsync_state (registration : RegisteredCallback) (release : Bool)
    (world : ManagedWorld) :
    (dispatchAsync platform registration release world).2.toManagedInputBinds =
      world.toManagedInputBinds := by
  unfold dispatchAsync
  split <;> rfl

theorem dispatchNow_state (registration : RegisteredCallback) (release : Bool)
    (world : ManagedWorld) :
    (dispatchNow platform registration release world).2.toManagedInputBinds =
      world.toManagedInputBinds := by
  unfold dispatchNow
  split <;> rfl

theorem invokeCallback_state (release : Bool) (registration : RegisteredCallback)
    (world : ManagedWorld) :
    (invokeCallback platform release registration world).2.toManagedInputBinds =
      world.toManagedInputBinds := by
  unfold invokeCallback
  split
  · rfl
  · split
    · split
      · rfl
      · exact dispatchAsync_state platform _ _ world
    · exact dispatchAsync_state platform _ _ world
    · exact dispatchNow_state platform _ _ world

theorem invokeReleases_state (callbacks : List (Option RegisteredCallback)) :
    ∀ (result : RouteOutcome) (world : ManagedWorld),
      (invokeReleases platform callbacks result world).2.toManagedInputBinds =
        world.toManagedInputBinds := by
  induction callbacks with
  | nil => exact fun _ _ => rfl
  | cons callback _ ih =>
    intro result world
    cases callback with
    | none => exact ih result world
    | some =>
      simp only [invokeReleases]
      rw [ih, invokeCallback_state]

theorem releaseIdentifiers_state (identifiers : List String) (world : ManagedWorld) :
    (releaseIdentifiers platform identifiers world).2.toManagedInputBinds =
      { world.toManagedInputBinds with held := identifiers.foldl SortedMap.erase world.held } :=
  invokeReleases_state platform _ _ _

theorem invoke_state (identifier : String) (release : Bool) (world : ManagedWorld) :
    (invoke platform identifier release world).2.toManagedInputBinds =
      world.toManagedInputBinds := by
  unfold invoke
  split
  · exact invokeCallback_state platform release _ world
  · rfl

theorem press_state (binding : InputBind) (world : ManagedWorld) :
    (press platform binding world).2.toManagedInputBinds = world.toManagedInputBinds ∨
      ∃ identifier mapping, selected world.toManagedInputBinds binding =
          some (identifier, mapping) ∧ world.held.get? identifier = none ∧
        (press platform binding world).2.toManagedInputBinds =
          { world.toManagedInputBinds with held := world.held.put identifier binding } := by
  unfold press
  split
  next => exact Or.inl rfl
  next identifier mapping hselected =>
    split
    next => exact Or.inl rfl
    next hheld =>
      refine Or.inr ⟨identifier, mapping, hselected, by simpa using hheld, ?_⟩
      split
      · rfl
      · exact invokeCallback_state platform false _ _

theorem route_registry (message : InputMessage) (world : ManagedWorld) :
    (route platform message world).2.registry = world.registry ∧
      (route platform message world).2.jsonSlots = world.jsonSlots := by
  have hrelease : ∀ identifiers (w : ManagedWorld),
      (releaseIdentifiers platform identifiers w).2.registry = w.registry ∧
        (releaseIdentifiers platform identifiers w).2.jsonSlots = w.jsonSlots := by
    intro identifiers w
    rw [releaseIdentifiers_state]
    exact ⟨rfl, rfl⟩
  have hpress : ∀ binding (w : ManagedWorld),
      (press platform binding w).2.registry = w.registry ∧
        (press platform binding w).2.jsonSlots = w.jsonSlots := by
    intro binding w
    rcases press_state platform binding w with h | ⟨_, _, _, _, h⟩
    · rw [h]
      exact ⟨rfl, rfl⟩
    · rw [h]
      exact ⟨rfl, rfl⟩
  unfold route
  simp only
  split
  · exact ⟨rfl, rfl⟩
  · split
    · exact hrelease _ _
    · split
      · exact hpress _ _
      · exact ⟨rfl, rfl⟩
    · split
      · exact hpress _ _
      · exact ⟨rfl, rfl⟩
    · exact ⟨(hrelease _ _).1.trans (hrelease _ _).1, (hrelease _ _).2.trans (hrelease _ _).2⟩
    · exact hrelease _ _
    · exact hrelease _ _

end Frames

variable {identifier : String} {binding : InputBind}

theorem findConflict_unbound {registry : SortedMap String Mapping} (h : binding.isBound = false) :
    findConflict registry identifier binding = none := by
  unfold findConflict
  rw [h]
  rfl

theorem default_unbound : InputBind.default.isBound = false := rfl

theorem findConflict_normalized (registry : SortedMap String Mapping) (identifier : String)
    (h : findConflict registry identifier binding = none) :
    findConflict registry identifier binding.normalized = none := by
  unfold InputBind.normalized
  split
  · exact findConflict_unbound default_unbound
  · exact h

theorem defaultBinding_spec (registry : SortedMap String Mapping) (identifier : String)
    (binding : InputBind) :
    (defaultBinding registry identifier binding).2.normalized =
        (defaultBinding registry identifier binding).2 ∧
      findConflict registry identifier (defaultBinding registry identifier binding).2 = none := by
  unfold defaultBinding
  split
  next => exact ⟨rfl, findConflict_unbound default_unbound⟩
  next h =>
    have hnone : findConflict registry identifier binding = none := by simpa using h
    exact ⟨InputBind.normalized_normalized _, findConflict_normalized registry identifier hnone⟩

theorem validateIdentifier_ok {result : Unit} (h : validateIdentifier identifier = .ok result) :
    validIdentifier identifier = true := by
  unfold validateIdentifier at h
  split at h
  next hv => exact hv
  next => cases h

theorem register_moves (identifier : String) (owner : OwnerGeneration) (callback : Callback)
    (binding : InputBind) (world : ManagedWorld) :
    RegistryMoves world.toManagedInputBinds
      (register identifier owner callback binding world).2.toManagedInputBinds := by
  unfold register
  split
  next => exact .refl
  next hvalid =>
    have hvalid := validateIdentifier_ok hvalid
    simp only
    split
    next existing hexisting =>
      split
      · exact .refl
      · refine .single (.put identifier
          { existing with callback := some ⟨owner, callback, world.markers⟩ } (Or.inl hvalid)
          (Or.inl ?_) ?_ rfl rfl)
        · exact congrArg (Option.map Mapping.binding) hexisting
        · have hextra : world.registry.get? identifier = some existing := hexisting
          rw [hextra]
          rfl
    next hmissing =>
      have hmissing : world.registry.get? identifier = none := hmissing
      refine .single (.put identifier { Mapping.default with
        binding := (defaultBinding world.registry identifier binding).2
        callback := some ⟨owner, callback, world.markers⟩ } (Or.inl hvalid)
        (Or.inr (defaultBinding_spec _ _ _)) ?_ rfl rfl)
      rw [hmissing]
      rfl

variable {state next : ManagedInputBinds}

theorem registerDefault_moves {outcome : RegisterOutcome}
    (h : registerDefault identifier binding state = .ok (outcome, next)) :
    RegistryMoves state next := by
  obtain ⟨_, hvalid, h⟩ := except_bind_ok h
  split at h
  next => cases h; exact .refl
  next hmissing =>
    cases h
    refine .single (.put identifier { Mapping.default with
      binding := (defaultBinding state.registry identifier binding).2 }
      (Or.inl (validateIdentifier_ok hvalid)) (Or.inr (defaultBinding_spec _ _ _)) ?_ rfl rfl)
    rw [hmissing]
    rfl

theorem set_moves (h : set identifier binding state = .ok next) : RegistryMoves state next := by
  obtain ⟨_, hvalid, h⟩ := except_bind_ok h
  split at h
  next => cases h
  next hnone =>
    cases h
    refine .single (.put identifier { (state.registry.get? identifier).getD .default with
      binding := binding.normalized } (Or.inl (validateIdentifier_ok hvalid))
      (Or.inr ⟨InputBind.normalized_normalized _, findConflict_normalized _ _ hnone⟩) ?_ rfl rfl)
    rcases state.registry.get? identifier with _ | _
    · rfl
    · rfl

theorem relabel_moves {mapping : Mapping} (changed : Mapping) {before after : ManagedInputBinds}
    (h : before.registry.get? identifier = some mapping)
    (hbinding : changed.binding = mapping.binding)
    (hextras : changed.extraJson = mapping.extraJson)
    (hregistry : after.registry = before.registry.put identifier changed)
    (hslots : after.jsonSlots = before.jsonSlots) : RegistryMoves before after := by
  refine .single (.put identifier changed (Or.inr ?_) (Or.inl ?_) ?_ hregistry hslots)
  · rw [h]
    rfl
  · unfold bindingOf
    rw [h, hbinding]
    rfl
  · rw [h]
    exact hextras

theorem dropHandler_moves (identifier : String) (state : ManagedInputBinds) :
    RegistryMoves state (dropHandler identifier state) := by
  rcases h : state.registry.get? identifier with _ | mapping
  · exact .single (.keep (by simp [dropHandler, h]) rfl)
  · exact relabel_moves { mapping with callback := none } h rfl rfl
      (by simp [dropHandler, h]) rfl

theorem dropHandlerIf_moves (identifier : String) (asked : RegisteredCallback → Bool)
    (state : ManagedInputBinds) : RegistryMoves state (dropHandlerIf identifier asked state).2 := by
  unfold dropHandlerIf
  split
  · exact dropHandler_moves identifier state
  · exact .refl

theorem dropHandlers_moves (identifiers : List String) :
    ∀ state, RegistryMoves state
      (identifiers.foldl (fun state identifier => dropHandler identifier state) state) := by
  induction identifiers with
  | nil => exact fun _ => .refl
  | cons identifier _ ih =>
    intro state
    exact (dropHandler_moves identifier state).trans (ih _)

theorem setPassthrough_moves (identifier : String) (passthrough : Bool)
    (state : ManagedInputBinds) :
    RegistryMoves state (setPassthrough identifier passthrough state).2 := by
  unfold setPassthrough
  split
  next mapping h => exact relabel_moves { mapping with passthrough } h rfl rfl rfl rfl
  next => exact .refl

end ManagedWorld

namespace ManagedOp

open ManagedInputBinds ManagedWorld

theorem step_moves (platform : ManagedPlatform) (world : ManagedWorld) {op : ManagedOp}
    (hop : ∀ source, op ≠ .loadJson source) :
    RegistryMoves world.toManagedInputBinds (op.step platform world).toManagedInputBinds := by
  cases op with
  | register => exact register_moves _ _ _ _ world
  | registerDefault =>
    simp only [step]
    split
    next h => exact registerDefault_moves h
    next => exact .refl
  | set =>
    simp only [step]
    split
    next h => exact set_moves h
    next => exact .refl
  | setPassthrough => exact setPassthrough_moves _ _ _
  | deregister => exact dropHandler_moves _ _
  | deregisterForOwner | removeRegistration =>
    exact dropHandlerIf_moves _ _ _
  | cleanupOwnerGeneration => exact dropHandlers_moves _ _
  | delete identifier => exact .single (.erase identifier rfl rfl)
  | startCapture | stopCapture | jobsPanicked => exact .single (.keep rfl rfl)
  | invoke identifier release =>
    have h := invoke_state platform identifier release world
    simp only [step]
    rw [h]
  | route message =>
    obtain ⟨hr, hs⟩ := route_registry platform message world
    exact .single (.keep hr hs)
  | releaseAll =>
    have h := releaseIdentifiers_state platform (world.held.toList.map Prod.fst) world
    have hr := congrArg ManagedInputBinds.registry h
    have hs := congrArg ManagedInputBinds.jsonSlots h
    exact .single (.keep hr hs)
  | loadJson source => exact absurd rfl (hop source)

theorem step_load (platform : ManagedPlatform) (world : ManagedWorld) (source : String) :
    ((loadJson source).step platform world).toManagedInputBinds =
      match parseDocument platform.json source with
      | .ok entries => applyEntries entries [] { world.toManagedInputBinds with jsonSlots := [] }
      | .error _ => world.toManagedInputBinds := by
  rcases h : parseDocument platform.json source with error | entries
  · have hload : ManagedWorld.loadJson platform.json source world.toManagedInputBinds =
        .error error := by
      rw [ManagedWorld.loadJson, h]
      rfl
    simp only [step, hload]
  · have hload : ManagedWorld.loadJson platform.json source world.toManagedInputBinds =
        .ok (reportOf entries,
          applyEntries entries [] { world.toManagedInputBinds with jsonSlots := [] }) := by
      rw [ManagedWorld.loadJson, h]
      rfl
    simp only [step, hload]
    rfl

end ManagedOp

end Nexus
