import Nexus.GameInvokerMoves

namespace Nexus

inductive GameKey where
  | keyboard (scanCode : Fin (2 ^ 16))
  | mouse (button : MouseButton)
  deriving DecidableEq

def InputBind.gameKey (binding : InputBind) : Option GameKey :=
  if binding.device = .keyboard then some (.keyboard binding.code)
  else if binding.device = .mouse then
    ((MouseButton.fromCode binding.code).filter fun button => button ≠ .none).map .mouse
  else none

namespace GameMessage

def transition : GameMessage → Option (GameKey × Bool)
  | .modifier .. => none
  | .keyboard scanCode pressed _ => some (.keyboard scanCode, pressed)
  | .mouse button pressed _ => some (.mouse button, pressed)

def apply (state : ModifierState) : GameMessage → ModifierState
  | .modifier changed pressed _ => state.set changed pressed
  | .keyboard .. => state
  | .mouse .. => state

end GameMessage

def transitions (key : GameKey) (messages : List GameMessage) : List Bool :=
  messages.filterMap fun message =>
    message.transition.bind fun (other, pressed) => if other = key then some pressed else none

def lastTransition (key : GameKey) (messages : List GameMessage) : Option Bool :=
  (transitions key messages).getLast?

def visible (initial : ModifierState) (messages : List GameMessage) : ModifierState :=
  messages.foldl GameMessage.apply initial

theorem transitions_append (key : GameKey) (xs ys : List GameMessage) :
    transitions key (xs ++ ys) = transitions key xs ++ transitions key ys :=
  List.filterMap_append

theorem visible_append (initial : ModifierState) (xs ys : List GameMessage) :
    visible initial (xs ++ ys) = visible (visible initial xs) ys :=
  List.foldl_append

variable {messages : List GameMessage}

theorem transitions_modifiers (key : GameKey)
    (h : ∀ message ∈ messages, message.transition = none) : transitions key messages = [] := by
  refine List.filterMap_eq_nil_iff.mpr fun message hm => ?_
  rw [h message hm]
  rfl

theorem pressModifiers_transition (desired physical : ModifierState) :
    ∀ message ∈ pressModifiers desired physical, message.transition = none := by
  intro message hm
  obtain ⟨_, _, hsome⟩ := List.mem_filterMap.mp hm
  split at hsome
  next => cases hsome; rfl
  next =>
    split at hsome
    next => cases hsome; rfl
    next => cases hsome

theorem restoreModifiers_transition (physical : ModifierState) :
    ∀ message ∈ restoreModifiers physical, message.transition = none := by
  intro message hm
  obtain ⟨_, _, rfl⟩ := List.mem_map.mp hm
  rfl

variable {binding : InputBind}

theorem mainMessage_ok {pressed : Bool} {message : GameMessage}
    (h : mainMessage binding pressed = .ok message) :
    (∃ key, binding.gameKey = some key ∧ message.transition = some (key, pressed)) ∧
      ∀ state, message.apply state = state := by
  unfold mainMessage at h
  unfold InputBind.gameKey
  by_cases hk : binding.device = .keyboard
  · rw [if_pos hk] at h
    rw [if_pos hk]
    cases h
    exact ⟨⟨_, rfl, rfl⟩, fun _ => rfl⟩
  · rw [if_neg hk] at h
    rw [if_neg hk]
    by_cases hm : binding.device = .mouse
    · rw [if_pos hm] at h
      rw [if_pos hm]
      split at h
      next hb =>
        cases h
        rw [hb]
        exact ⟨⟨_, rfl, rfl⟩, fun _ => rfl⟩
      next => cases h
    · rw [if_neg hm] at h
      cases h

variable {physical : ModifierState}

theorem pressMessages_ok (h : pressMessages binding physical = .ok messages) :
    ∃ main, mainMessage binding true = .ok main ∧
      messages = pressModifiers binding.modifiers physical ++ [main] := by
  obtain ⟨main, hmain, hok⟩ := except_bind_ok h
  exact ⟨main, hmain, (Except.ok.inj hok).symm⟩

theorem releaseMessages_ok (h : releaseMessages binding physical = .ok messages) :
    ∃ main, mainMessage binding false = .ok main ∧ messages = main :: restoreModifiers physical := by
  obtain ⟨main, hmain, hok⟩ := except_bind_ok h
  exact ⟨main, hmain, (Except.ok.inj hok).symm⟩

theorem releaseEach_cons {rest : List InputBind}
    (h : releaseEach physical (binding :: rest) = .ok messages) :
    ∃ first others, releaseMessages binding physical = .ok first ∧
      releaseEach physical rest = .ok others ∧ messages = first ++ others := by
  obtain ⟨first, hfirst, h⟩ := except_bind_ok h
  obtain ⟨others, hothers, h⟩ := except_bind_ok h
  exact ⟨first, others, hfirst, hothers, (Except.ok.inj h).symm⟩

theorem transitions_main (key : GameKey) {message : GameMessage} {other : GameKey}
    {pressed : Bool} (h : message.transition = some (other, pressed)) :
    transitions key [message] = if other = key then [pressed] else [] := by
  by_cases heq : other = key
  · simp [transitions, h, heq]
  · simp [transitions, h, heq]

theorem transitions_pressMessages (key : GameKey)
    (h : pressMessages binding physical = .ok messages) :
    transitions key messages = if binding.gameKey = some key then [true] else [] := by
  obtain ⟨_, hmain, rfl⟩ := pressMessages_ok h
  obtain ⟨⟨_, hkey, htransition⟩, _⟩ := mainMessage_ok hmain
  rw [transitions_append, transitions_modifiers key (pressModifiers_transition _ _),
    transitions_main key htransition, hkey]
  simp

theorem transitions_releaseMessages (key : GameKey)
    (h : releaseMessages binding physical = .ok messages) :
    transitions key messages = if binding.gameKey = some key then [false] else [] := by
  obtain ⟨_, hmain, rfl⟩ := releaseMessages_ok h
  obtain ⟨⟨_, hkey, htransition⟩, _⟩ := mainMessage_ok hmain
  rw [← List.singleton_append, transitions_append,
    transitions_modifiers key (restoreModifiers_transition _),
    transitions_main key htransition, hkey]
  simp

theorem transitions_releaseEach (key : GameKey) :
    ∀ {bindings : List InputBind} {messages : List GameMessage},
      releaseEach physical bindings = .ok messages →
      (∀ pressed ∈ transitions key messages, pressed = false) ∧
        ((∃ binding ∈ bindings, binding.gameKey = some key) → transitions key messages ≠ []) := by
  intro bindings
  induction bindings with
  | nil =>
    intro messages h
    cases h
    refine ⟨fun pressed hm => ?_, fun hex => ?_⟩
    · cases hm
    · obtain ⟨_, hm, _⟩ := hex
      cases hm
  | cons _ _ ih =>
    intro messages h
    obtain ⟨_, _, hfirst, hothers, rfl⟩ := releaseEach_cons h
    obtain ⟨hup, hkeys⟩ := ih hothers
    have hone := transitions_releaseMessages key hfirst
    rw [transitions_append]
    constructor
    · intro pressed hm
      rcases List.mem_append.mp hm with hm | hm
      · rw [hone] at hm
        split at hm
        next => simpa using hm
        next => cases hm
      · exact hup pressed hm
    · rintro ⟨other, hm, hkey⟩ hnil
      obtain ⟨hnil₁, hnil₂⟩ := List.append_eq_nil_iff.mp hnil
      rcases List.mem_cons.mp hm with rfl | hm
      · rw [hone, if_pos hkey] at hnil₁
        cases hnil₁
      · exact hkeys ⟨other, hm, hkey⟩ hnil₂

theorem visible_restoreModifiers (initial physical : ModifierState) :
    visible initial (restoreModifiers physical) = physical := rfl

theorem visible_releaseMessages (initial : ModifierState)
    (h : releaseMessages binding physical = .ok messages) :
    visible initial messages = physical := by
  obtain ⟨main, hmain, rfl⟩ := releaseMessages_ok h
  obtain ⟨_, _⟩ := mainMessage_ok hmain
  have hrest := visible_restoreModifiers (main.apply initial) physical
  exact hrest

theorem visible_releaseEach :
    ∀ {bindings : List InputBind} {messages : List GameMessage} (initial : ModifierState),
      bindings ≠ [] → releaseEach physical bindings = .ok messages →
      visible initial messages = physical := by
  intro bindings
  induction bindings with
  | nil => exact fun _ hne _ => absurd rfl hne
  | cons _ rest ih =>
    intro messages initial _ h
    obtain ⟨_, _, hfirst, hothers, rfl⟩ := releaseEach_cons h
    rw [visible_append, visible_releaseMessages initial hfirst]
    cases rest with
    | nil =>
      cases hothers
      rfl
    | cons => exact ih physical (List.cons_ne_nil _ _) hothers

end Nexus
