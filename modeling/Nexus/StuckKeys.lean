import Nexus.DeliveredKeys

namespace Nexus

namespace GameWorld

def lastRelease (world : GameWorld) : Option ModifierState :=
  world.delivered.reverse.findSome? fun delivery =>
    match delivery with
    | .press .. => none
    | .release physical _ => some physical

/-- A key that is down is in the record of an active action, and a press is recorded until its
release was delivered. -/
structure Tracked (world : GameWorld) : Prop where
  nonempty : ∀ action bindings, world.recorded action = some bindings → bindings ≠ []
  held : ∀ key, lastTransition key world.messages = some true →
    ∃ action bindings, world.recorded action = some bindings ∧
      ∃ binding ∈ bindings, binding.gameKey = some key
  settled : (∀ action, world.recorded action = none) → world.delivered = [] ∨
    ∃ physical, world.lastRelease = some physical ∧
      ∀ initial, visible initial world.messages = physical

variable {before after : GameWorld}

theorem messages_of_delivered {delivery : GameDelivery}
    (h : after.delivered = before.delivered ++ [delivery]) :
    after.messages = before.messages ++ delivery.messages := by
  unfold messages
  rw [h, List.flatMap_append]
  simp

theorem lastRelease_release {physical : ModifierState} {messages : List GameMessage}
    (h : after.delivered = before.delivered ++ [.release physical messages]) :
    after.lastRelease = some physical := by
  unfold lastRelease
  rw [h, List.reverse_append]
  rfl

theorem tracked_new (registry : GameBindRegistry) : (GameInvoker.new registry).Tracked where
  nonempty := fun action bindings h => by cases h
  held := fun key h => by cases h
  settled := fun _ => Or.inl rfl

theorem lastTransition_append (key : GameKey) (xs ys : List GameMessage) :
    lastTransition key (xs ++ ys) = (lastTransition key ys).or (lastTransition key xs) := by
  unfold lastTransition
  rw [transitions_append, List.getLast?_append]

theorem Tracked.idle (ht : before.Tracked)
    (hr : ∀ action, after.recorded action = before.recorded action)
    (hd : after.delivered = before.delivered) : after.Tracked := by
  have hm : after.messages = before.messages := by
    unfold messages
    rw [hd]
  have hlast : after.lastRelease = before.lastRelease := by
    unfold lastRelease
    rw [hd]
  refine ⟨fun action bindings h => ht.nonempty action bindings (hr action ▸ h), ?_, ?_⟩
  · intro key h
    rw [hm] at h
    obtain ⟨action, bindings, hrec, hkey⟩ := ht.held key h
    exact ⟨action, bindings, (hr action).trans hrec, hkey⟩
  · intro hnone
    rw [hd, hlast, hm]
    exact ht.settled fun action => (hr action).symm.trans (hnone action)

theorem Tracked.press {before after : GameWorld} (ht : before.Tracked) {physical : ModifierState}
    {binding : InputBind} {messages : List GameMessage} {action : GameBindId}
    {bindings : List InputBind} (hm : pressMessages binding physical = .ok messages)
    (hd : after.delivered = before.delivered ++ [.press binding messages])
    (hkept : ∀ bind, bind ∈ bindings ↔ bind = binding ∨ bind ∈ (before.recorded action).getD [])
    (hr : ∀ other, after.recorded other =
      if other = action then some bindings else before.recorded other) : after.Tracked := by
  have hself : after.recorded action = some bindings := by rw [hr, if_pos rfl]
  have hin : binding ∈ bindings := (hkept binding).mpr (Or.inl rfl)
  refine ⟨?_, ?_, ?_⟩
  · intro other found h
    rw [hr] at h
    split at h
    next =>
      cases h
      exact List.ne_nil_of_mem hin
    next => exact ht.nonempty other found h
  · intro key h
    rw [messages_of_delivered hd, lastTransition_append] at h
    by_cases hkey : binding.gameKey = some key
    · exact ⟨action, bindings, hself, binding, hin, hkey⟩
    · have hnone : lastTransition key messages = none := by
        unfold lastTransition
        rw [transitions_pressMessages key hm, if_neg hkey]
        rfl
      have hbefore : lastTransition key before.messages = some true := by
        have hmsg : lastTransition key (GameDelivery.press binding messages).messages = none := hnone
        rw [hmsg, Option.none_or] at h
        exact h
      obtain ⟨other, found, hrec, bind, hmem, hbind⟩ := ht.held key hbefore
      by_cases heq : other = action
      · subst heq
        refine ⟨other, bindings, hself, bind, (hkept bind).mpr (Or.inr ?_), hbind⟩
        rw [hrec]
        exact hmem
      · exact ⟨other, found, by rw [hr, if_neg heq, hrec], bind, hmem, hbind⟩
  · intro hnone
    rw [hnone action] at hself
    cases hself

theorem Tracked.release {before after : GameWorld} (ht : before.Tracked)
    {physical : ModifierState} {bindings : List InputBind} {messages : List GameMessage}
    {action : GameBindId} (hm : releaseEach physical bindings.reverse = .ok messages)
    (hd : after.delivered = before.delivered ++ [.release physical messages])
    (htracked : ∀ old, before.recorded action = some old → bindings = old)
    (huntracked : before.recorded action = none → bindings ≠ [])
    (hr : ∀ other, after.recorded other =
      if other = action then none else before.recorded other) : after.Tracked := by
  have hne : bindings ≠ [] := by
    rcases hrec : before.recorded action with _ | old
    · exact huntracked hrec
    · rw [htracked old hrec]
      exact ht.nonempty action old hrec
  refine ⟨?_, ?_, ?_⟩
  · intro other found h
    rw [hr] at h
    split at h
    next => cases h
    next => exact ht.nonempty other found h
  · intro key h
    obtain ⟨hup, hkeys⟩ := transitions_releaseEach key hm
    rw [messages_of_delivered hd, lastTransition_append] at h
    have hlast : lastTransition key (GameDelivery.release physical messages).messages =
        (transitions key messages).getLast? := rfl
    rw [hlast] at h
    rcases hnil : (transitions key messages).getLast? with _ | pressed
    · rw [hnil, Option.none_or] at h
      obtain ⟨other, found, hrec, bind, hmem, hbind⟩ := ht.held key h
      -- the released action has no binding for the key, so another action holds it
      have hother : other ≠ action := by
        rintro rfl
        rw [← htracked found hrec] at hmem
        exact hkeys ⟨bind, List.mem_reverse.mpr hmem, hbind⟩ (List.getLast?_eq_none_iff.mp hnil)
      exact ⟨other, found, by rw [hr, if_neg hother, hrec], bind, hmem, hbind⟩
    · rw [hnil, Option.some_or] at h
      have hfalse := hup pressed (List.mem_of_getLast? hnil)
      rw [hfalse] at h
      cases h
  · intro _
    refine Or.inr ⟨physical, lastRelease_release hd, fun initial => ?_⟩
    rw [messages_of_delivered hd, visible_append]
    exact visible_releaseEach _ (List.reverse_ne_nil_iff.mpr hne) hm

theorem tracked_step {platform : GamePlatform} (hmove : GameMove platform before after)
    (ht : before.Tracked) : after.Tracked := by
  cases hmove with
  | idle hr hd => exact ht.idle hr hd
  | press _ _ _ _ _ _ _ pressed hd hkept hr =>
    exact ht.press pressed hd hkept hr
  | release _ _ _ _ _ _ released hd htracked huntracked hr =>
    exact ht.release released hd htracked huntracked hr

theorem tracked_run (platform : GamePlatform) (registry : GameBindRegistry) (ops : List GameOp) :
    (GameOp.run platform registry ops).Tracked := by
  have hmoves := GameOp.run_moves platform registry ops
  generalize GameOp.run platform registry ops = world at hmoves ⊢
  induction hmoves with
  | refl => exact tracked_new registry
  | tail _ hmove ih => exact tracked_step hmove ih

end GameWorld

/-- A key whose last transition is down belongs to the record of an active action. Without an
active action every key is up, and the game sees the modifiers polled for the last release. -/
theorem no_key_left_stuck (platform : GamePlatform) (registry : GameBindRegistry)
    (ops : List GameOp) :
    (∀ key, lastTransition key (GameOp.run platform registry ops).messages = some true →
      ∃ action active,
        (GameOp.run platform registry ops).invoker.active.get? action = some active ∧
        ∃ binding ∈ active.bindings, binding.gameKey = some key) ∧
    ((GameOp.run platform registry ops).invoker.active.toList = [] →
      (∀ key, lastTransition key (GameOp.run platform registry ops).messages ≠ some true) ∧
      match (GameOp.run platform registry ops).lastRelease with
      | none => (GameOp.run platform registry ops).delivered = []
      | some physical => ∀ initial,
          visible initial (GameOp.run platform registry ops).messages = physical) := by
  have ht := GameWorld.tracked_run platform registry ops
  generalize GameOp.run platform registry ops = world at ht
  constructor
  · intro key h
    obtain ⟨action, bindings, hrec, hkey⟩ := ht.held key h
    obtain ⟨active, ha, rfl⟩ := Option.map_eq_some_iff.mp hrec
    exact ⟨action, active, ha, hkey⟩
  · intro hempty
    have hnone : ∀ action, world.recorded action = none := by
      intro action
      unfold GameWorld.recorded SortedMap.get?
      rw [hempty]
      rfl
    constructor
    · intro key h
      obtain ⟨action, bindings, hrec, _⟩ := ht.held key h
      rw [hnone action] at hrec
      cases hrec
    · rcases ht.settled hnone with hd | ⟨physical, hlast, hview⟩
      · have hlast : world.lastRelease = none := by
          unfold GameWorld.lastRelease
          rw [hd]
          rfl
        rw [hlast]
        exact hd
      · rw [hlast]
        exact hview

end Nexus
