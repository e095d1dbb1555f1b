import Nexus.ManagedMoves
import Mathlib.Data.List.Induction

namespace Nexus

namespace ManagedWorld

open InputCapture

def Presses (binding : InputBind) : InputMessage → Bool
  | .keyDown _ scanCode false => isKey scanCode binding
  | .mouseDown button => isButton button binding
  | _ => false

def Releases (binding : InputBind) : InputMessage → Bool
  | .activateApp => true
  | .keyUp modifier scanCode => modifier.any binding.requires || isKey scanCode binding
  | .mouseUp button => isButton button binding
  | _ => false

section Route

variable (platform : ManagedPlatform)

theorem held_releaseIdentifiers (identifiers : List String) (world : ManagedWorld)
    (identifier : String) :
    (releaseIdentifiers platform identifiers world).2.held.get? identifier =
      if identifier ∈ identifiers then none else world.held.get? identifier := by
  rw [releaseIdentifiers_state]
  exact SortedMap.get?_foldl_erase identifiers identifier world.held

theorem held_releaseMatching {predicate : InputBind → Bool} {world : ManagedWorld}
    {identifier : String} {binding : InputBind}
    (h : (releaseMatching platform predicate world).2.held.get? identifier = some binding) :
    world.held.get? identifier = some binding ∧ predicate binding = false := by
  unfold releaseMatching at h
  rw [held_releaseIdentifiers] at h
  split at h
  next => cases h
  next hnot =>
    refine ⟨h, ?_⟩
    rcases hp : predicate binding
    · rfl
    · refine absurd (List.mem_map_of_mem (f := Prod.fst) (a := (identifier, binding)) ?_) hnot
      exact List.mem_filter.mpr ⟨SortedMap.get?_mem h, hp⟩

theorem held_releaseAll (world : ManagedWorld) (identifier : String) :
    (releaseAll platform world).2.held.get? identifier = none := by
  unfold releaseAll
  rw [held_releaseIdentifiers]
  split
  · rfl
  next hnot =>
    rcases hget : world.held.get? identifier with _ | _
    · rfl
    · exact absurd (List.mem_map_of_mem (f := Prod.fst) (SortedMap.get?_mem hget)) hnot

theorem capture_press (binding : InputBind) (world : ManagedWorld) :
    (press platform binding world).2.capture = world.capture := by
  rcases press_state platform binding world with h | ⟨_, _, _, _, h⟩
  · rw [h]
  · rw [h]

theorem capture_releaseIdentifiers (identifiers : List String) (world : ManagedWorld) :
    (releaseIdentifiers platform identifiers world).2.capture = world.capture := by
  rw [releaseIdentifiers_state]

theorem held_press {binding : InputBind} {world : ManagedWorld} {identifier : String}
    {found : InputBind} (h : (press platform binding world).2.held.get? identifier = some found) :
    world.held.get? identifier = some found ∨ found = binding := by
  rcases press_state platform binding world with hs | ⟨name, _, _, _, hs⟩
  · rw [hs] at h
    exact Or.inl h
  · rw [hs] at h
    have hput := SortedMap.get?_put world.held name identifier binding
    rw [hput] at h
    split at h
    next => exact Or.inr (Option.some.inj h).symm
    next => exact Or.inl h

theorem presses_of_candidate {capture : InputCapture} {message : InputMessage}
    (h : (capture.process message).1.pressCandidate = true) :
    Presses (capture.process message).1.binding message = true := by
  cases message with
  | activateApp | keyUp | mouseUp => cases h
  | keyDown _ _ isRepeat =>
    cases isRepeat with
    | true => cases h
    | false =>
      simp only [Presses, isKey, decide_eq_true_eq]
      exact ⟨rfl, rfl⟩
  | mouseDown =>
    simp only [process] at h ⊢
    split at h
    next hb =>
      simp only [Presses, isButton, decide_eq_true_eq, if_pos hb]
      exact ⟨rfl, rfl⟩
    next => cases h

/-- Routing tracks the modifiers, and keeps held only what the message does not release or what
it presses with all required modifiers down. -/
theorem route_held (message : InputMessage) (world : ManagedWorld) :
    (route platform message world).2.capture.modifiers = track world.capture.modifiers message ∧
    ∀ identifier binding, (route platform message world).2.held.get? identifier = some binding →
      (world.held.get? identifier = some binding ∧ Releases binding message = false) ∨
      (Presses binding message = true ∧ ∀ modifier, binding.requires modifier = true →
        (track world.capture.modifiers message).get modifier = true) := by
  have hmodifiers := process_modifiers world.capture message
  unfold route
  simp only
  split
  next hconsumed =>
    refine ⟨hmodifiers, fun identifier binding h => Or.inl ⟨h, ?_⟩⟩
    cases message with
    | activateApp | keyUp | mouseUp => cases hconsumed
    | keyDown | mouseDown => rfl
  next =>
    -- a press that goes ahead holds the captured combination
    have hpress : ∀ identifier binding,
        (Releases binding message = false) →
        (world.capture.process message).1.pressCandidate = true →
        (press platform (world.capture.process message).1.binding
          (world.modify fun state => { state with
            capture := (world.capture.process message).2 })).2.held.get? identifier =
          some binding →
        (world.held.get? identifier = some binding ∧ Releases binding message = false) ∨
        (Presses binding message = true ∧ ∀ modifier, binding.requires modifier = true →
          (track world.capture.modifiers message).get modifier = true) := by
      intro identifier binding hreleases hcandidate h
      rcases held_press platform h with hold | rfl
      · exact Or.inl ⟨hold, hreleases⟩
      · refine Or.inr ⟨presses_of_candidate hcandidate, fun modifier hreq => ?_⟩
        rw [← process_modifiers]
        exact process_requires hcandidate hreq
    cases message with
    | activateApp =>
      refine ⟨?_, fun identifier binding h => ?_⟩
      · exact (congrArg InputCapture.modifiers (capture_releaseIdentifiers platform _ _)).trans
          hmodifiers
      · have hnone := held_releaseAll platform (world.modify fun state => { state with
          capture := (world.capture.process .activateApp).2 }) identifier
        simp only at h
        rw [hnone] at h
        cases h
    | keyDown | mouseDown =>
      simp only
      split
      next hcandidate =>
        refine ⟨(congrArg InputCapture.modifiers (capture_press platform _ _)).trans hmodifiers,
          fun identifier binding h => hpress identifier binding rfl ?_ h⟩
        exact (Bool.and_eq_true_iff.mp hcandidate).1
      next => exact ⟨hmodifiers, fun identifier binding h => Or.inl ⟨h, rfl⟩⟩
    | mouseUp =>
      refine ⟨?_, fun identifier binding h => Or.inl ?_⟩
      · exact (congrArg InputCapture.modifiers (capture_releaseIdentifiers platform _ _)).trans
          hmodifiers
      · obtain ⟨hold, hnot⟩ := held_releaseMatching platform h
        exact ⟨hold, hnot⟩
    | keyUp modifier =>
      cases modifier with
      | none =>
        refine ⟨?_, fun identifier binding h => Or.inl ?_⟩
        · exact (congrArg InputCapture.modifiers (capture_releaseIdentifiers platform _ _)).trans
            hmodifiers
        · obtain ⟨hold, hnot⟩ := held_releaseMatching platform h
          exact ⟨hold, by simp [Releases, hnot]⟩
      | some =>
        refine ⟨?_, fun identifier binding h => Or.inl ?_⟩
        · exact (congrArg InputCapture.modifiers ((capture_releaseIdentifiers platform _ _).trans
            (capture_releaseIdentifiers platform _ _))).trans hmodifiers
        · obtain ⟨hfirst, hkey⟩ := held_releaseMatching platform h
          obtain ⟨hold, hmodifier⟩ := held_releaseMatching platform hfirst
          exact ⟨hold, by simp [Releases, hkey, hmodifier]⟩

end Route

theorem track_keeps {binding : InputBind} {message : InputMessage} {modifiers : ModifierState}
    {modifier : Modifier} (hreleases : Releases binding message = false)
    (hreq : binding.requires modifier = true) (hdown : modifiers.get modifier = true) :
    (track modifiers message).get modifier = true := by
  cases message with
  | activateApp => cases hreleases
  | mouseDown | mouseUp => exact hdown
  | keyDown which _ isRepeat =>
    cases which with
    | none => exact hdown
    | some =>
      cases isRepeat with
      | true => exact hdown
      | false =>
        simp only [track, ModifierState.get_set]
        split
        · rfl
        · exact hdown
  | keyUp which =>
    cases which with
    | none => exact hdown
    | some =>
      simp only [track, ModifierState.get_set]
      split
      next heq =>
        simp [Releases, ← heq, hreq] at hreleases
      next => exact hdown

theorem held_dropHandler {identifier name : String} {binding : InputBind}
    {state : ManagedInputBinds}
    (h : (dropHandler name state).held.get? identifier = some binding) :
    state.held.get? identifier = some binding := by
  have herase := SortedMap.get?_erase state.held name identifier
  unfold dropHandler at h
  rw [herase] at h
  split at h
  next => cases h
  next => exact h

def HeldShrinks (before after : ManagedInputBinds) : Prop :=
  after.capture.modifiers = before.capture.modifiers ∧
    ∀ identifier binding, after.held.get? identifier = some binding →
      before.held.get? identifier = some binding

theorem HeldShrinks.refl (state : ManagedInputBinds) : HeldShrinks state state :=
  ⟨rfl, fun _ _ h => h⟩

theorem HeldShrinks.of_eq {before after : ManagedInputBinds}
    (hc : after.capture.modifiers = before.capture.modifiers) (hh : after.held = before.held) :
    HeldShrinks before after := ⟨hc, fun identifier binding h => by rwa [hh] at h⟩

theorem heldShrinks_dropHandler (name : String) (state : ManagedInputBinds) :
    HeldShrinks state (dropHandler name state) :=
  ⟨rfl, fun _ _ h => held_dropHandler h⟩

theorem heldShrinks_dropHandlerIf (name : String) (asked : RegisteredCallback → Bool)
    (state : ManagedInputBinds) : HeldShrinks state (dropHandlerIf name asked state).2 := by
  unfold dropHandlerIf
  split
  · exact heldShrinks_dropHandler name state
  · exact .refl state

theorem heldShrinks_dropHandlers (names : List String) :
    ∀ state, HeldShrinks state
      (names.foldl (fun state identifier => dropHandler identifier state) state) := by
  induction names with
  | nil => exact fun state => .refl state
  | cons name _ ih =>
    intro state
    obtain ⟨hc, hh⟩ := ih (dropHandler name state)
    exact ⟨hc, fun identifier binding h => held_dropHandler (hh identifier binding h)⟩

theorem applyEntries_held (entries : List JsonParsed) :
    ∀ (seen : List String) (state : ManagedInputBinds),
      (applyEntries entries seen state).held = state.held ∧
        (applyEntries entries seen state).capture = state.capture := by
  induction entries with
  | nil => exact fun _ _ => ⟨rfl, rfl⟩
  | cons entry _ ih =>
    intro seen state
    simp only [applyEntries]
    obtain ⟨hh, hc⟩ := ih (applyParsed state seen entry).2 (applyParsed state seen entry).1
    cases entry with
    | known | opaqueValue => exact ⟨hh, hc⟩

theorem register_held (identifier : String) (owner : OwnerGeneration) (callback : Callback)
    (binding : InputBind) (world : ManagedWorld) :
    (register identifier owner callback binding world).2.held = world.held ∧
      (register identifier owner callback binding world).2.capture = world.capture := by
  unfold register
  split
  · exact ⟨rfl, rfl⟩
  · simp only
    split
    · split
      · exact ⟨rfl, rfl⟩
      · exact ⟨rfl, rfl⟩
    · exact ⟨rfl, rfl⟩

end ManagedWorld

namespace ManagedOp

open ManagedWorld InputCapture

theorem step_heldShrinks (platform : ManagedPlatform) (world : ManagedWorld) {op : ManagedOp}
    (hop : ∀ message, op ≠ .route message) :
    HeldShrinks world.toManagedInputBinds (op.step platform world).toManagedInputBinds := by
  cases op with
  | register identifier owner callback binding =>
    obtain ⟨hh, hc⟩ := register_held identifier owner callback binding world
    exact .of_eq (congrArg InputCapture.modifiers hc) hh
  | registerDefault =>
    simp only [step]
    split
    next h =>
      obtain ⟨_, _, h⟩ := except_bind_ok h
      split at h
      next => cases h; exact .refl _
      next => cases h; exact .of_eq rfl rfl
    next => exact .refl _
  | set =>
    simp only [step]
    split
    next h =>
      obtain ⟨_, _, h⟩ := except_bind_ok h
      split at h
      next => cases h
      next => cases h; exact .of_eq rfl rfl
    next => exact .refl _
  | setPassthrough identifier passthrough =>
    show HeldShrinks _ (ManagedWorld.setPassthrough identifier passthrough
      world.toManagedInputBinds).2
    unfold ManagedWorld.setPassthrough
    split
    · exact .of_eq rfl rfl
    · exact .refl _
  | deregister => exact heldShrinks_dropHandler _ _
  | deregisterForOwner | removeRegistration =>
    exact heldShrinks_dropHandlerIf _ _ _
  | cleanupOwnerGeneration => exact heldShrinks_dropHandlers _ _
  | delete identifier =>
    refine ⟨rfl, fun name binding h => ?_⟩
    have herase := SortedMap.get?_erase world.held identifier name
    have h : (world.held.erase identifier).get? name = some binding := h
    rw [herase] at h
    split at h
    next => cases h
    next => exact h
  | startCapture =>
    refine .of_eq ?_ rfl
    simp only [step, ManagedWorld.modify, InputCapture.start]
    split <;> rfl
  | stopCapture => exact .of_eq rfl rfl
  | invoke identifier release =>
    have h := invoke_state platform identifier release world
    simp only [step]
    rw [h]
    exact .refl _
  | route message => exact absurd rfl (hop message)
  | releaseAll =>
    refine ⟨?_, fun name binding h => ?_⟩
    · exact congrArg InputCapture.modifiers (capture_releaseIdentifiers platform _ world)
    · have hnone := held_releaseAll platform world name
      simp only [step] at h
      rw [hnone] at h
      cases h
  | loadJson source =>
    have hload := step_load platform world source
    rw [hload]
    split
    next entries _ =>
      obtain ⟨hh, hc⟩ := applyEntries_held entries []
        { world.toManagedInputBinds with jsonSlots := [] }
      exact .of_eq (congrArg InputCapture.modifiers hc) hh
    next => exact .refl _
  | jobsPanicked => exact .refl _

/-- Each held binding has its modifiers down, and since the message that pressed it none released
its key or a modifier of it. -/
theorem held_down (platform : ManagedPlatform) (ops : List ManagedOp) :
    ∀ identifier binding, (run platform ops).held.get? identifier = some binding →
      (∀ modifier, binding.requires modifier = true →
        (run platform ops).capture.modifiers.get modifier = true) ∧
      ∃ before message after, ops = before ++ .route message :: after ∧
        Presses binding message = true ∧
        ∀ later, ManagedOp.route later ∈ after → Releases binding later = false := by
  induction ops using List.reverseRecOn with
  | nil =>
    intro identifier binding h
    cases h
  | append_singleton ops op ih =>
    intro identifier binding h
    rw [run_append] at h ⊢
    by_cases hroute : ∃ message, op = .route message
    · obtain ⟨message, rfl⟩ := hroute
      obtain ⟨hmodifiers, hheld⟩ := route_held platform message (run platform ops)
      have hmodifiers : ((ManagedOp.route message).step platform (run platform ops)).capture.modifiers =
        track (run platform ops).capture.modifiers message := hmodifiers
      rcases hheld identifier binding h with ⟨hold, hkept⟩ | ⟨hpresses, hdown⟩
      · obtain ⟨hdown, before, first, after, heq, hpresses, hlater⟩ := ih identifier binding hold
        refine ⟨fun modifier hreq => ?_, before, first, after ++ [.route message], ?_, hpresses, ?_⟩
        · rw [hmodifiers]
          exact track_keeps hkept hreq (hdown modifier hreq)
        · rw [heq, List.append_assoc]
          rfl
        · intro later hmem
          rcases List.mem_append.mp hmem with hmem | hmem
          · exact hlater later hmem
          · cases List.mem_singleton.mp hmem
            exact hkept
      · refine ⟨fun modifier hreq => ?_, ops, message, [], rfl, hpresses, fun later hmem => ?_⟩
        · rw [hmodifiers]
          exact hdown modifier hreq
        · cases hmem
    · have hother : ∀ message, op ≠ .route message := fun message heq => hroute ⟨message, heq⟩
      obtain ⟨hmodifiers, hheld⟩ := step_heldShrinks platform (run platform ops) hother
      obtain ⟨hdown, before, first, after, heq, hpresses, hlater⟩ :=
        ih identifier binding (hheld identifier binding h)
      refine ⟨fun modifier hreq => ?_, before, first, after ++ [op], ?_, hpresses, ?_⟩
      · rw [hmodifiers]
        exact hdown modifier hreq
      · rw [heq, List.append_assoc]
        rfl
      · intro later hmem
        rcases List.mem_append.mp hmem with hmem | hmem
        · exact hlater later hmem
        · exact absurd (List.mem_singleton.mp hmem).symm (hother later)

end ManagedOp

end Nexus
