import Nexus.GameInvoker

namespace Nexus

open Fallible

namespace GameWorld

def recorded (world : GameWorld) (action : GameBindId) : Option (List InputBind) :=
  (world.invoker.active.get? action).map ActivePress.bindings

def messages (world : GameWorld) : List GameMessage := world.delivered.flatMap GameDelivery.messages

end GameWorld

inductive GameMove (platform : GamePlatform) (before after : GameWorld) : Prop where
  | idle (recorded : ∀ action, after.recorded action = before.recorded action)
      (delivered : after.delivered = before.delivered)
  | press (number : Nat) (physical : ModifierState) (binding : InputBind)
      (messages : List GameMessage) (action : GameBindId) (bindings : List InputBind)
      (polled : platform.physical number = .returned physical)
      (pressed : pressMessages binding physical = .ok messages)
      (delivered : after.delivered = before.delivered ++ [.press binding messages])
      (kept : ∀ bind, bind ∈ bindings ↔ bind = binding ∨ bind ∈ (before.recorded action).getD [])
      (recorded : ∀ other, after.recorded other =
        if other = action then some bindings else before.recorded other)
  | release (number : Nat) (physical : ModifierState) (bindings : List InputBind)
      (messages : List GameMessage) (action : GameBindId)
      (polled : platform.physical number = .returned physical)
      (released : releaseEach physical bindings.reverse = .ok messages)
      (delivered : after.delivered = before.delivered ++ [.release physical messages])
      (tracked : ∀ old, before.recorded action = some old → bindings = old)
      (untracked : before.recorded action = none → bindings ≠ [])
      (recorded : ∀ other, after.recorded other =
        if other = action then none else before.recorded other)

abbrev GameMoves (platform : GamePlatform) : GameWorld → GameWorld → Prop :=
  Relation.ReflTransGen (GameMove platform)

namespace GameInvoker

variable {platform : GamePlatform} {world : GameWorld} {next : GameWorld}

theorem quiet_moves (hi : next.invoker.active = world.invoker.active)
    (hd : next.delivered = world.delivered) : GameMoves platform world next := by
  refine .single (.idle (fun action => ?_) hd)
  unfold GameWorld.recorded
  rw [hi]

theorem pollModifiers_cases (platform : GamePlatform) (world : GameWorld) :
    (∃ physical, platform.physical world.polls = .returned physical ∧
      pollModifiers platform world = (.ok physical, { world with polls := world.polls + 1 })) ∨
    pollModifiers platform world =
      (.error .sinkPanicked, { world with polls := world.polls + 1 }) := by
  unfold pollModifiers
  rcases h : platform.physical world.polls with physical | _
  · exact Or.inl ⟨physical, rfl, rfl⟩
  · exact Or.inr rfl

theorem send_cases (platform : GamePlatform) (delivery : GameDelivery) (world : GameWorld) :
    send platform delivery world = (.ok (), { world with
      batches := world.batches + 1
      delivered := world.delivered ++ [delivery] }) ∨
    ∃ error, send platform delivery world =
      (.error error, { world with batches := world.batches + 1 }) := by
  unfold send
  rcases h : platform.sink world.batches with (_ | _) | _
  · exact Or.inr ⟨.sinkFailed, rfl⟩
  · exact Or.inl rfl
  · exact Or.inr ⟨.sinkPanicked, rfl⟩

theorem sendPress_cases (platform : GamePlatform) (binding : InputBind) (world : GameWorld) :
    (∃ error next, sendPress platform binding world = (.error error, next) ∧
      next.invoker = world.invoker ∧ next.delivered = world.delivered) ∨
    ∃ physical messages next, platform.physical world.polls = .returned physical ∧
      pressMessages binding physical = .ok messages ∧
      sendPress platform binding world = (.ok messages, next) ∧
      next.invoker = world.invoker ∧ next.markers = world.markers ∧
      next.delivered = world.delivered ++ [.press binding messages] := by
  unfold sendPress
  rcases pollModifiers_cases platform world with ⟨physical, hp, hpoll⟩ | hpoll
  · rw [bind_of_ok hpoll]
    rcases hm : pressMessages binding physical with error | messages
    · exact Or.inl ⟨error, _, rfl, rfl, rfl⟩
    · rw [ofExcept_ok, pure_bind']
      rcases send_cases platform (.press binding messages) { world with polls := world.polls + 1 }
        with hsend | ⟨error, hsend⟩
      · rw [bind_of_ok hsend]
        exact Or.inr ⟨physical, messages, _, hp, hm, rfl, rfl, rfl, rfl⟩
      · rw [bind_of_error hsend]
        exact Or.inl ⟨error, _, rfl, rfl, rfl⟩
  · rw [bind_of_error hpoll]
    exact Or.inl ⟨_, _, rfl, rfl, rfl⟩

theorem recorded_setActive_put (world : GameWorld) (action other : GameBindId)
    (active : ActivePress) :
    (setActive (world.invoker.active.put action active) world).recorded other =
      if other = action then some active.bindings else world.recorded other := by
  unfold GameWorld.recorded setActive
  rw [SortedMap.get?_put]
  split <;> rfl

theorem recorded_setActive_erase (world : GameWorld) (action other : GameBindId) :
    (setActive (world.invoker.active.erase action) world).recorded other =
      if other = action then none else world.recorded other := by
  unfold GameWorld.recorded setActive
  rw [SortedMap.get?_erase]
  split <;> rfl

variable {active : ActivePress} {action : GameBindId}

theorem recorded_of_active (h : world.invoker.active.get? action = some active) :
    world.recorded action = some active.bindings := by
  unfold GameWorld.recorded
  rw [h]
  rfl

theorem recorded_of_inactive (h : world.invoker.active.get? action = none) :
    world.recorded action = none := by
  unfold GameWorld.recorded
  rw [h]
  rfl

theorem recorded_congr (h : next.invoker = world.invoker) (action : GameBindId) :
    next.recorded action = world.recorded action := by
  unfold GameWorld.recorded
  rw [h]

theorem pressNewTracked_moves (platform : GamePlatform) (action : GameBindId)
    (world : GameWorld) :
    GameMoves platform world (pressNewTracked platform action world).2 := by
  unfold pressNewTracked
  rw [bind_of_ok (read_apply world)]
  by_cases hnone : world.invoker.active.get? action.canonical = none
  · rw [ensure_true hnone, pure_bind']
    rcases hb : boundNow world action.canonical with _ | binding
    · exact .refl
    · rw [require_some, pure_bind']
      rcases sendPress_cases platform binding world with
        ⟨error, next, hsend, hi, hd⟩ | ⟨physical, messages, next, hp, hm, hsend, hi, _, hd⟩
      · rw [bind_of_error hsend]
        exact quiet_moves (by rw [hi]) hd
      · rw [bind_of_ok hsend, bind_of_ok (read_apply next), bind_of_ok (modify_apply _ next)]
        refine .single (.press world.polls physical binding messages action.canonical [binding]
          hp hm hd (fun bind => ?_) fun other => ?_)
        · rw [recorded_of_inactive hnone]
          simp
        · have hput := recorded_setActive_put next action.canonical other
            ⟨[binding], none, next.markers⟩
          rw [recorded_congr hi] at hput
          exact hput
  · rw [ensure_false hnone]
    exact .refl

theorem press_moves (platform : GamePlatform) (action : GameBindId) (world : GameWorld) :
    GameMoves platform world (press platform action world).2 := by
  have h := pressNewTracked_moves platform action world
  unfold press
  rw [bind_apply]
  rcases hx : pressNewTracked platform action world with ⟨_ | _, _⟩
  · rw [hx] at h
    exact h
  · rw [hx] at h
    exact h

theorem recorded_recordRepeat (binding : InputBind)
    (h : world.invoker.active.get? action = some active) :
    ∃ bindings, (∀ bind, bind ∈ bindings ↔ bind = binding ∨ bind ∈ active.bindings) ∧
      (recordRepeat action binding world).delivered = world.delivered ∧
      ∀ other, (recordRepeat action binding world).recorded other =
        if other = action then some bindings else world.recorded other := by
  unfold recordRepeat
  simp only [h]
  by_cases hmem : binding ∈ active.bindings
  · rw [if_pos hmem]
    refine ⟨active.bindings, fun bind => ?_, rfl, fun other => ?_⟩
    · constructor
      · exact Or.inr
      · rintro (rfl | hb)
        · exact hmem
        · exact hb
    · split
      next heq => rw [heq, recorded_of_active h]
      next => rfl
  · rw [if_neg hmem]
    refine ⟨active.bindings ++ [binding], fun bind => ?_, rfl, fun other => ?_⟩
    · simp [or_comm]
    · exact recorded_setActive_put world action other _

theorem pressRepeated_moves (platform : GamePlatform) (action : GameBindId) (world : GameWorld) :
    GameMoves platform world (pressRepeated platform action world).2 := by
  unfold pressRepeated
  rw [bind_of_ok (read_apply world)]
  rcases ha : world.invoker.active.get? action.canonical with _ | active
  · exact pressNewTracked_moves platform action.canonical world
  · simp only
    rcases hb : boundNow world action.canonical with _ | binding
    · exact .refl
    · rw [require_some, pure_bind']
      rcases sendPress_cases platform binding world with
        ⟨error, next, hsend, hi, hd⟩ | ⟨physical, messages, next, hp, hm, hsend, hi, _, hd⟩
      · rw [bind_of_error hsend]
        exact quiet_moves (by rw [hi]) hd
      · rw [bind_of_ok hsend, bind_of_ok (modify_apply _ next)]
        have ha' : next.invoker.active.get? action.canonical = some active := by rw [hi, ha]
        obtain ⟨bindings, hmem, hdel, hrec⟩ := recorded_recordRepeat binding ha'
        refine .single (.press world.polls physical binding messages action.canonical bindings
          hp hm (hdel.trans hd) (fun bind => ?_) fun other => ?_)
        · rw [recorded_of_active ha]
          exact hmem bind
        · have hother := hrec other
          rw [recorded_congr hi] at hother
          exact hother

theorem release_moves (platform : GamePlatform) (action : GameBindId) (world : GameWorld) :
    GameMoves platform world (release platform action world).2 := by
  unfold release
  rw [bind_of_ok (read_apply world)]
  rcases hb : bindingsToRelease world action.canonical with _ | bindings
  · exact .refl
  · rw [require_some, pure_bind']
    rcases pollModifiers_cases platform world with ⟨physical, hp, hpoll⟩ | hpoll
    · rw [bind_of_ok hpoll]
      rcases hm : releaseEach physical bindings.reverse with error | messages
      · exact quiet_moves rfl rfl
      · rw [ofExcept_ok, pure_bind']
        rcases send_cases platform (.release physical messages)
          { world with polls := world.polls + 1 } with hsend | ⟨error, hsend⟩
        · rw [bind_of_ok hsend]
          refine .single (.release world.polls physical bindings messages action.canonical hp hm
            rfl (fun old hold => ?_) (fun hnone => ?_) fun other => ?_)
          · unfold bindingsToRelease at hb
            have hmap : (world.invoker.active.get? action.canonical).map ActivePress.bindings =
              some old := hold
            rw [hmap] at hb
            exact (Option.some.inj hb).symm
          · unfold bindingsToRelease at hb
            have hmap : (world.invoker.active.get? action.canonical).map ActivePress.bindings =
              none := hnone
            rw [hmap, Option.none_or] at hb
            obtain ⟨_, _, rfl⟩ := Option.map_eq_some_iff.mp hb
            exact List.cons_ne_nil _ _
          · exact recorded_setActive_erase _ action.canonical other
        · rw [bind_of_error hsend]
          exact quiet_moves rfl rfl
    · rw [bind_of_error hpoll]
      exact quiet_moves rfl rfl

theorem releaseTracked_moves (platform : GamePlatform) (action : GameBindId)
    (token : GamePressToken) (world : GameWorld) :
    GameMoves platform world (releaseTracked platform action token world).2 := by
  have h := release_moves platform action.canonical world
  unfold releaseTracked
  rw [bind_of_ok (read_apply world)]
  split
  · rw [bind_apply]
    rcases hx : release platform action.canonical world with ⟨_ | _, _⟩
    · rw [hx] at h
      exact h
    · rw [hx] at h
      exact h
  · exact .refl

theorem schedule_moves (platform : GamePlatform) (action : GameBindId) (due : Nat)
    (world : GameWorld) : GameMoves platform world (schedule action due world) := by
  unfold schedule
  split
  next ha =>
    refine .single (.idle (fun other => ?_) rfl)
    rw [recorded_setActive_put]
    split
    next heq => rw [heq, recorded_of_active ha]
    next => rfl
  next => exact .refl

theorem moves_trans (a b c : GameWorld) (h₁ : GameMoves platform a b)
    (h₂ : GameMoves platform b c) : GameMoves platform a c := h₁.trans h₂

theorem invoke_moves (platform : GamePlatform) (action : GameBindId)
    (durationMillis nowMillis : Nat) :
    Follows (GameMoves platform) (invoke platform action durationMillis nowMillis) := by
  refine Follows.bind moves_trans (press_moves platform action) fun pressed => ?_
  split
  · refine Follows.bind moves_trans (release_moves platform pressed.action) fun released => ?_
    exact Follows.pure (fun _ => .refl) _
  · intro world
    exact schedule_moves platform pressed.action _ world

theorem releaseDue_moves (platform : GamePlatform) (actions : List GameBindId) :
    Follows (GameMoves platform) (releaseDue platform actions) := by
  induction actions with
  | nil => exact Follows.pure (fun _ => .refl) _
  | cons action _ ih =>
    refine Follows.bind moves_trans (release_moves platform action) fun dispatch => ?_
    refine Follows.bind moves_trans ih fun others => ?_
    exact Follows.pure (fun _ => .refl) _

theorem releaseActions_moves (platform : GamePlatform) (actions : List GameBindId) :
    ∀ dispatches firstError,
      Follows (GameMoves platform) (releaseActions platform actions dispatches firstError) := by
  induction actions with
  | nil =>
    intro dispatches firstError
    cases firstError with
    | none => exact Follows.pure (fun _ => .refl) _
    | some => exact Follows.fail (fun _ => .refl) _
  | cons action _ ih =>
    intro dispatches firstError
    refine Follows.bind moves_trans (Follows.attempt (release_moves platform action)) fun r => ?_
    cases r with
    | ok | error => exact ih _ _

end GameInvoker

inductive GameOp where
  | press (action : GameBindId)
  | pressRepeated (action : GameBindId)
  | release (action : GameBindId)
  | releaseTracked (action : GameBindId) (token : GamePressToken)
  | invoke (action : GameBindId) (durationMillis nowMillis : Nat)
  | advance (nowMillis : Nat)
  | releaseAll
  | registryMut (registry : GameBindRegistry)

namespace GameOp

def step (platform : GamePlatform) (world : GameWorld) : GameOp → GameWorld
  | press action => (GameInvoker.press platform action world).2
  | pressRepeated action => (GameInvoker.pressRepeated platform action world).2
  | release action => (GameInvoker.release platform action world).2
  | releaseTracked action token => (GameInvoker.releaseTracked platform action token world).2
  | invoke action duration now => (GameInvoker.invoke platform action duration now world).2
  | advance now => (GameInvoker.advance platform now world).2
  | releaseAll => (GameInvoker.releaseAll platform world).2
  | registryMut registry => { world with invoker := { world.invoker with registry } }

def run (platform : GamePlatform) (registry : GameBindRegistry) (ops : List GameOp) : GameWorld :=
  ops.foldl (step platform) (GameInvoker.new registry)

theorem step_moves (platform : GamePlatform) (world : GameWorld) (op : GameOp) :
    GameMoves platform world (op.step platform world) := by
  cases op with
  | press action => exact GameInvoker.press_moves platform action world
  | pressRepeated action => exact GameInvoker.pressRepeated_moves platform action world
  | release action => exact GameInvoker.release_moves platform action world
  | releaseTracked action token => exact GameInvoker.releaseTracked_moves platform action token world
  | invoke action duration now => exact GameInvoker.invoke_moves platform action duration now world
  | advance => exact GameInvoker.releaseDue_moves platform _ world
  | releaseAll => exact GameInvoker.releaseActions_moves platform _ [] none world
  | registryMut => exact GameInvoker.quiet_moves rfl rfl

theorem run_moves (platform : GamePlatform) (registry : GameBindRegistry) (ops : List GameOp) :
    GameMoves platform (GameInvoker.new registry) (run platform registry ops) := by
  suffices h : ∀ world, GameMoves platform world (ops.foldl (step platform) world) from h _
  induction ops with
  | nil => exact fun _ => .refl
  | cons op _ ih =>
    intro world
    exact (step_moves platform world op).trans (ih _)

end GameOp

end Nexus
