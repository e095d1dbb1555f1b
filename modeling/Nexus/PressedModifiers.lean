import Nexus.DeliveredKeys

namespace Nexus

def pending (deliveries : List GameDelivery) : List InputBind :=
  deliveries.foldl (fun bindings delivery =>
    match delivery with
    | .press binding _ => bindings ++ [binding]
    | .release .. => []) []

/-- At each delivered down message of a binding the game sees the binding's own modifiers. -/
def ExactModifiers (physical : ModifierState) (deliveries : List GameDelivery) : Prop :=
  ∀ before binding messages after, deliveries = before ++ .press binding messages :: after →
    ∀ earlier main later, messages = earlier ++ main :: later →
      (∃ key, main.transition = some (key, true)) →
      visible physical (before.flatMap GameDelivery.messages ++ earlier) = binding.modifiers

/-- Each delivered press meets no binding, pressed since the last release, with a modifier that
is neither its own nor physically held. -/
def Compatible (physical : ModifierState) (deliveries : List GameDelivery) : Prop :=
  ∀ before binding messages after, deliveries = before ++ .press binding messages :: after →
    ∀ other ∈ pending before, ∀ modifier, other.requires modifier = true →
      binding.requires modifier = true ∨ physical.get modifier = true

/-- The deliveries as the messages of presses and of releases under one physical state. -/
inductive Genuine (physical : ModifierState) : List GameDelivery → Prop where
  | nil : Genuine physical []
  | press {deliveries : List GameDelivery} (binding : InputBind) (messages : List GameMessage)
      (earlier : Genuine physical deliveries)
      (pressed : pressMessages binding physical = .ok messages) :
      Genuine physical (deliveries ++ [.press binding messages])
  | release {deliveries : List GameDelivery} (bindings : List InputBind)
      (messages : List GameMessage) (earlier : Genuine physical deliveries)
      (nonempty : bindings ≠ []) (released : releaseEach physical bindings = .ok messages) :
      Genuine physical (deliveries ++ [.release physical messages])

theorem pending_press (deliveries : List GameDelivery) (binding : InputBind)
    (messages : List GameMessage) :
    pending (deliveries ++ [.press binding messages]) = pending deliveries ++ [binding] := by
  unfold pending
  rw [List.foldl_append]
  rfl

theorem pending_release (deliveries : List GameDelivery) (physical : ModifierState)
    (messages : List GameMessage) :
    pending (deliveries ++ [.release physical messages]) = [] := by
  unfold pending
  rw [List.foldl_append]
  rfl

theorem visible_pressModifiers (initial desired physical : ModifierState) (modifier : Modifier) :
    (visible initial (pressModifiers desired physical)).get modifier =
      if desired.get modifier = true then true
      else if physical.get modifier = true then false
      else initial.get modifier := by
  obtain ⟨d₁, d₂, d₃⟩ := desired
  obtain ⟨p₁, p₂, p₃⟩ := physical
  cases d₁ <;> cases d₂ <;> cases d₃ <;> cases p₁ <;> cases p₂ <;> cases p₃ <;>
    cases modifier <;> rfl

def seen (physical : ModifierState) (bindings : List InputBind) (modifier : Modifier) : Bool :=
  if physical.get modifier = true then (bindings.getLast?.map (·.requires modifier)).getD true
  else bindings.any (·.requires modifier)

variable {physical : ModifierState} {deliveries : List GameDelivery}

theorem visible_of_genuine (h : Genuine physical deliveries) (modifier : Modifier) :
    (visible physical (deliveries.flatMap GameDelivery.messages)).get modifier =
      seen physical (pending deliveries) modifier := by
  induction h with
  | nil =>
    have hstart : (visible physical []).get modifier = physical.get modifier := rfl
    rw [List.flatMap_nil, hstart]
    unfold seen
    cases physical.get modifier <;> rfl
  | @press deliveries binding messages _ hm ih =>
    obtain ⟨main, hmain, rfl⟩ := pressMessages_ok hm
    obtain ⟨_, happly⟩ := mainMessage_ok hmain
    rw [List.flatMap_append, visible_append, pending_press]
    have hmessages : visible (visible physical (deliveries.flatMap GameDelivery.messages))
        ([GameDelivery.press binding (pressModifiers binding.modifiers physical ++ [main])].flatMap
          GameDelivery.messages) =
        visible (visible physical (deliveries.flatMap GameDelivery.messages))
          (pressModifiers binding.modifiers physical) := by
      simp only [List.flatMap_cons, List.flatMap_nil, List.append_nil, GameDelivery.messages]
      rw [visible_append]
      exact happly _
    rw [hmessages, visible_pressModifiers, ih, InputBind.modifiers_get]
    unfold seen
    rw [List.getLast?_append, List.any_append]
    by_cases hp : physical.get modifier = true
    · cases hb : binding.requires modifier <;> simp [hp, hb]
    · cases hb : binding.requires modifier <;> simp [hp, hb]
  | @release deliveries _ messages _ hne hm =>
    rw [List.flatMap_append, visible_append, pending_release]
    have hmessages : visible (visible physical (deliveries.flatMap GameDelivery.messages))
        ([GameDelivery.release physical messages].flatMap GameDelivery.messages) = physical := by
      simp only [List.flatMap_cons, List.flatMap_nil, List.append_nil, GameDelivery.messages]
      exact visible_releaseEach _ hne hm
    rw [hmessages]
    unfold seen
    cases physical.get modifier <;> rfl

theorem Genuine.split (h : Genuine physical deliveries) :
    ∀ before binding messages after, deliveries = before ++ .press binding messages :: after →
      Genuine physical before ∧ pressMessages binding physical = .ok messages := by
  induction h with
  | nil =>
    intro before binding messages after heq
    exact absurd heq.symm (List.append_ne_nil_of_right_ne_nil _ (List.cons_ne_nil _ _))
  | @press _ _ _ hbefore hm ih =>
    intro before binding messages after heq
    rcases List.eq_nil_or_concat after with rfl | ⟨rest, final, rfl⟩
    · obtain ⟨rfl, hsame⟩ := List.append_inj' heq rfl
      cases hsame
      exact ⟨hbefore, hm⟩
    · rw [List.concat_eq_append, ← List.cons_append, ← List.append_assoc] at heq
      obtain ⟨hinit, _⟩ := List.append_inj' heq rfl
      exact ih before binding messages rest hinit
  | @release _ _ _ _ _ _ ih =>
    intro before binding messages after heq
    rcases List.eq_nil_or_concat after with rfl | ⟨rest, final, rfl⟩
    · obtain ⟨_, hsame⟩ := List.append_inj' heq rfl
      cases hsame
    · rw [List.concat_eq_append, ← List.cons_append, ← List.append_assoc] at heq
      obtain ⟨hinit, _⟩ := List.append_inj' heq rfl
      exact ih before binding messages rest hinit

theorem visible_at_press {before : List GameDelivery} (h : Genuine physical before)
    (binding : InputBind) (modifier : Modifier) :
    (visible physical (before.flatMap GameDelivery.messages ++
      pressModifiers binding.modifiers physical)).get modifier =
      (binding.requires modifier ||
        !physical.get modifier && (pending before).any (·.requires modifier)) := by
  rw [visible_append, visible_pressModifiers, visible_of_genuine h, InputBind.modifiers_get]
  unfold seen
  cases hb : binding.requires modifier <;> cases hp : physical.get modifier <;> simp

theorem press_main {binding : InputBind} {messages earlier later : List GameMessage}
    {main : GameMessage} {key : GameKey} (h : pressMessages binding physical = .ok messages)
    (hsplit : messages = earlier ++ main :: later) (hmain : main.transition = some (key, true)) :
    earlier = pressModifiers binding.modifiers physical := by
  obtain ⟨_, _, rfl⟩ := pressMessages_ok h
  rcases List.eq_nil_or_concat later with rfl | ⟨_, _, rfl⟩
  · exact (List.append_inj' hsplit rfl).1.symm
  · rw [List.concat_eq_append, ← List.cons_append, ← List.append_assoc] at hsplit
    obtain ⟨hinit, _⟩ := List.append_inj' hsplit rfl
    have hm : main ∈ pressModifiers binding.modifiers physical := by
      rw [hinit]
      exact List.mem_append_right _ (List.mem_cons_self ..)
    rw [pressModifiers_transition _ _ main hm] at hmain
    cases hmain

theorem exactModifiers_iff (h : Genuine physical deliveries) :
    ExactModifiers physical deliveries ↔ Compatible physical deliveries := by
  constructor
  · intro hexact before binding messages after hd other hother modifier hreq
    obtain ⟨hbefore, hm⟩ := h.split before binding messages after hd
    obtain ⟨main, hmain, hmessages⟩ := pressMessages_ok hm
    obtain ⟨⟨key, _, htransition⟩, _⟩ := mainMessage_ok hmain
    have hview := hexact before binding messages after hd _ main [] hmessages ⟨key, htransition⟩
    have hget := visible_at_press hbefore binding modifier
    rw [hview, InputBind.modifiers_get] at hget
    have hany : (pending before).any (·.requires modifier) = true :=
      List.any_eq_true.mpr ⟨other, hother, hreq⟩
    rw [hany] at hget
    rcases hp : physical.get modifier
    · rw [hp] at hget
      exact Or.inl (by simpa using hget)
    · exact Or.inr rfl
  · intro hcompatible before binding messages after hd earlier main later hmessages hmain
    obtain ⟨key, htransition⟩ := hmain
    obtain ⟨hbefore, hm⟩ := h.split before binding messages after hd
    rw [press_main hm hmessages htransition]
    refine ModifierState.ext_get fun modifier => ?_
    rw [visible_at_press hbefore, InputBind.modifiers_get]
    rcases hany : (pending before).any (·.requires modifier)
    · simp
    · obtain ⟨other, hother, hreq⟩ := List.any_eq_true.mp hany
      rcases hcompatible before binding messages after hd other hother modifier hreq with hb | hp
      · simp [hb]
      · simp [hp]

/-- The deliveries of a run under one physical state, with the records never empty. -/
structure GenuineWorld (physical : ModifierState) (world : GameWorld) : Prop where
  nonempty : ∀ action bindings, world.recorded action = some bindings → bindings ≠ []
  genuine : Genuine physical world.delivered

theorem genuine_step {platform : GamePlatform}
    (hconstant : ∀ number state, platform.physical number = .returned state → state = physical)
    {before after : GameWorld} (hmove : GameMove platform before after)
    (h : GenuineWorld physical before) : GenuineWorld physical after := by
  cases hmove with
  | idle hr hd =>
    refine ⟨fun action bindings hrec => h.nonempty action bindings (hr action ▸ hrec), ?_⟩
    rw [hd]
    exact h.genuine
  | press number polled binding messages _ _ hpolled hm hd hkept hr =>
    obtain rfl := hconstant number polled hpolled
    constructor
    · intro other found hrec
      rw [hr] at hrec
      split at hrec
      next =>
        cases hrec
        exact List.ne_nil_of_mem ((hkept binding).mpr (Or.inl rfl))
      next => exact h.nonempty other found hrec
    · rw [hd]
      exact .press binding messages h.genuine hm
  | release number polled bindings messages action hpolled hm hd htracked huntracked hr =>
    obtain rfl := hconstant number polled hpolled
    have hne : bindings ≠ [] := by
      rcases hrec : before.recorded action with _ | old
      · exact huntracked hrec
      · rw [htracked old hrec]
        exact h.nonempty action old hrec
    constructor
    · intro other found hrec
      rw [hr] at hrec
      split at hrec
      next => cases hrec
      next => exact h.nonempty other found hrec
    · rw [hd]
      exact .release bindings.reverse messages h.genuine (List.reverse_ne_nil_iff.mpr hne) hm

theorem genuine_run {platform : GamePlatform}
    (hconstant : ∀ number state, platform.physical number = .returned state → state = physical)
    (registry : GameBindRegistry) (ops : List GameOp) :
    GenuineWorld physical (GameOp.run platform registry ops) := by
  have hmoves := GameOp.run_moves platform registry ops
  generalize GameOp.run platform registry ops = world at hmoves ⊢
  induction hmoves with
  | refl =>
    constructor
    · intro action bindings hrec
      cases hrec
    · exact .nil
  | tail _ hmove ih => exact genuine_step hconstant hmove ih

/-- Under a constant physical state every pressed binding is seen with its own modifiers exactly
when no press meets a foreign modifier of a binding pressed since the last release. -/
theorem pressed_with_own_modifiers_iff (platform : GamePlatform) (physical : ModifierState)
    (hconstant : ∀ number state, platform.physical number = .returned state → state = physical)
    (registry : GameBindRegistry) (ops : List GameOp) :
    ExactModifiers physical (GameOp.run platform registry ops).delivered ↔
      Compatible physical (GameOp.run platform registry ops).delivered :=
  exactModifiers_iff (genuine_run hconstant registry ops).genuine

theorem pressed_with_own_modifiers_iff_held_shift :
    ExactModifiers ⟨false, false, true⟩ (GameOp.run
        ⟨fun _ => .returned ⟨false, false, true⟩, fun _ => .returned (.ok ())⟩
        .withDefaults [.press 94, .release 94, .press 0]).delivered ↔
      Compatible ⟨false, false, true⟩ (GameOp.run
        ⟨fun _ => .returned ⟨false, false, true⟩, fun _ => .returned (.ok ())⟩
        .withDefaults [.press 94, .release 94, .press 0]).delivered :=
  pressed_with_own_modifiers_iff _ _ (fun _ _ h => (Call.returned.inj h).symm) _ _

/-- Alt and Shift stay down for the marker action when the forward key is pressed. -/
theorem forward_seen_with_held_modifiers :
    ¬ExactModifiers .default (GameOp.run ⟨fun _ => .returned .default, fun _ => .returned (.ok ())⟩
      .withDefaults [.press 94, .press 0]).delivered := by
  intro hexact
  have hrun : (GameOp.run ⟨fun _ => .returned .default, fun _ => .returned (.ok ())⟩
      .withDefaults [.press 94, .press 0]).delivered =
    [.press ⟨true, false, true, .keyboard, 0x02⟩ [.modifier .alt true true,
        .modifier .shift true false, .keyboard 0x02 true true],
      .press ⟨false, false, false, .keyboard, 0x11⟩ [.keyboard 0x11 true false]] := by
    decide +kernel
  rw [hrun] at hexact
  have hview := hexact [_] _ _ [] rfl [] _ [] rfl ⟨.keyboard 0x11, rfl⟩
  cases hview

end Nexus
