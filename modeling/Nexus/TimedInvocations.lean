import Nexus.GameInvokerMoves

namespace Nexus

open Fallible

def InputBind.Sendable (binding : InputBind) : Prop :=
  ∃ message, mainMessage binding true = .ok message

theorem InputBind.Sendable.released {binding : InputBind} (h : binding.Sendable) :
    ∃ message, mainMessage binding false = .ok message := by
  obtain ⟨message, hmessage⟩ := h
  unfold mainMessage at hmessage ⊢
  split
  next => exact ⟨_, rfl⟩
  next hkeyboard =>
    rw [if_neg hkeyboard] at hmessage
    split
    next hmouse =>
      rw [if_pos hmouse] at hmessage
      split at hmessage
      next => exact ⟨_, rfl⟩
      next => cases hmessage
    next hmouse =>
      rw [if_neg hmouse] at hmessage
      cases hmessage

theorem sendable_of_pressMessages {binding : InputBind} {physical : ModifierState}
    {messages : List GameMessage} (h : pressMessages binding physical = .ok messages) :
    binding.Sendable := by
  obtain ⟨main, hmain, _⟩ := except_bind_ok h
  exact ⟨main, hmain⟩

theorem releaseEach_ok (physical : ModifierState) {bindings : List InputBind}
    (h : ∀ binding ∈ bindings, binding.Sendable) :
    ∃ messages, releaseEach physical bindings = .ok messages := by
  induction bindings with
  | nil => exact ⟨[], rfl⟩
  | cons binding _ ih =>
    obtain ⟨main, hmain⟩ := (h binding List.mem_cons_self).released
    obtain ⟨others, hothers⟩ := ih fun other hother => h other (List.mem_cons_of_mem _ hother)
    refine ⟨(main :: restoreModifiers physical) ++ others, ?_⟩
    unfold releaseEach releaseMessages
    rw [hmain, hothers]
    rfl

namespace GameWorld

/-- Active actions are canonical, and the game takes the messages of their bindings. -/
structure Kept (world : GameWorld) : Prop where
  canonical : ∀ action active, world.invoker.active.get? action = some active →
    action.canonical = action
  sendable : ∀ action active, world.invoker.active.get? action = some active →
    ∀ binding ∈ active.bindings, binding.Sendable

variable {world next : GameWorld}

theorem Kept.congr (h : world.Kept) (hactive : next.invoker.active = world.invoker.active) :
    next.Kept :=
  ⟨hactive ▸ h.canonical, hactive ▸ h.sendable⟩

theorem Kept.put (h : world.Kept) {action : GameBindId} {active : ActivePress}
    (hcanonical : action.canonical = action)
    (hsendable : ∀ binding ∈ active.bindings, binding.Sendable)
    (hactive : next.invoker.active = world.invoker.active.put action active) : next.Kept := by
  constructor
  · intro other found hget
    rw [hactive, SortedMap.get?_put] at hget
    split at hget
    next heq => exact heq ▸ hcanonical
    next => exact h.canonical other found hget
  · intro other found hget
    rw [hactive, SortedMap.get?_put] at hget
    split at hget
    next => exact Option.some.inj hget ▸ hsendable
    next => exact h.sendable other found hget

theorem Kept.erase (h : world.Kept) {action : GameBindId}
    (hactive : next.invoker.active = world.invoker.active.erase action) : next.Kept := by
  constructor
  · intro other found hget
    rw [hactive, SortedMap.get?_erase] at hget
    split at hget
    next => cases hget
    next => exact h.canonical other found hget
  · intro other found hget
    rw [hactive, SortedMap.get?_erase] at hget
    split at hget
    next => cases hget
    next => exact h.sendable other found hget

abbrev Keeps (before after : GameWorld) : Prop := before.Kept → after.Kept

theorem keeps_trans (a b c : GameWorld) (h₁ : Keeps a b) (h₂ : Keeps b c) : Keeps a c :=
  fun h => h₂ (h₁ h)

end GameWorld

namespace GameInvoker

open GameWorld

variable {platform : GamePlatform} {world : GameWorld}

theorem pressNewTracked_keeps (platform : GamePlatform) (action : GameBindId) :
    Follows Keeps (pressNewTracked platform action) := by
  intro world h
  unfold pressNewTracked
  rw [bind_of_ok (read_apply world)]
  by_cases hnone : world.invoker.active.get? action.canonical = none
  · rw [ensure_true hnone, pure_bind']
    rcases boundNow world action.canonical with _ | binding
    · exact h
    · rw [require_some, pure_bind']
      rcases sendPress_cases platform binding world with
        ⟨error, next, hsend, hi, _⟩ | ⟨physical, messages, next, _, hm, hsend, hi, _, _⟩
      · rw [bind_of_error hsend]
        exact h.congr (by rw [hi])
      · rw [bind_of_ok hsend, bind_of_ok (read_apply next), bind_of_ok (modify_apply _ next)]
        have hnext : next.Kept := h.congr (by rw [hi])
        refine hnext.put action.canonical_canonical ?_ rfl
        intro bind hbind
        exact List.mem_singleton.mp hbind ▸ sendable_of_pressMessages hm
  · rw [ensure_false hnone]
    exact h

theorem press_keeps (platform : GamePlatform) (action : GameBindId) :
    Follows Keeps (press platform action) :=
  Follows.bind keeps_trans (pressNewTracked_keeps platform action) fun _ =>
    Follows.pure (fun _ => id) _

theorem pressRepeated_keeps (platform : GamePlatform) (action : GameBindId) :
    Follows Keeps (pressRepeated platform action) := by
  intro world h
  unfold pressRepeated
  rw [bind_of_ok (read_apply world)]
  rcases hget : world.invoker.active.get? action.canonical with _ | active
  · exact pressNewTracked_keeps platform action.canonical world h
  · simp only
    rcases boundNow world action.canonical with _ | binding
    · exact h
    · rw [require_some, pure_bind']
      rcases sendPress_cases platform binding world with
        ⟨error, next, hsend, hi, _⟩ | ⟨physical, messages, next, _, hm, hsend, hi, _, _⟩
      · rw [bind_of_error hsend]
        exact h.congr (by rw [hi])
      · rw [bind_of_ok hsend, bind_of_ok (modify_apply _ next)]
        have hnext : next.Kept := h.congr (by rw [hi])
        have hnextGet : next.invoker.active.get? action.canonical = some active := by rw [hi, hget]
        change (recordRepeat action.canonical binding next).Kept
        unfold recordRepeat
        rw [hnextGet]
        dsimp only
        split
        next => exact hnext
        next =>
          refine hnext.put action.canonical_canonical ?_ rfl
          intro bind hbind
          rcases List.mem_append.mp hbind with hold | hnew
          · exact hnext.sendable _ active hnextGet bind hold
          · exact List.mem_singleton.mp hnew ▸ sendable_of_pressMessages hm

theorem release_cases (platform : GamePlatform) (action : GameBindId) (world : GameWorld) :
    (∃ dispatch next, release platform action world = (.ok dispatch, next) ∧
      next.invoker.active = world.invoker.active.erase action.canonical) ∨
    ∃ error next, release platform action world = (.error error, next) ∧
      next.invoker = world.invoker := by
  unfold release
  rw [bind_of_ok (read_apply world)]
  rcases bindingsToRelease world action.canonical with _ | bindings
  · exact Or.inr ⟨_, _, rfl, rfl⟩
  · rw [require_some, pure_bind']
    rcases pollModifiers_cases platform world with ⟨physical, _, hpoll⟩ | hpoll
    · rw [bind_of_ok hpoll]
      rcases releaseEach physical bindings.reverse with error | messages
      · exact Or.inr ⟨_, _, rfl, rfl⟩
      · rw [ofExcept_ok, pure_bind']
        rcases send_cases platform (.release physical messages)
          { world with polls := world.polls + 1 } with hsend | ⟨error, hsend⟩
        · rw [bind_of_ok hsend]
          exact Or.inl ⟨_, _, rfl, rfl⟩
        · rw [bind_of_error hsend]
          exact Or.inr ⟨_, _, rfl, rfl⟩
    · rw [bind_of_error hpoll]
      exact Or.inr ⟨_, _, rfl, rfl⟩

theorem release_keeps (platform : GamePlatform) (action : GameBindId) :
    Follows Keeps (release platform action) := by
  intro world h
  rcases release_cases platform action world with
    ⟨dispatch, next, hrelease, hnext⟩ | ⟨error, next, hrelease, hnext⟩
  · rw [hrelease]
    exact h.erase hnext
  · rw [hrelease]
    exact h.congr (by rw [hnext])

theorem releaseTracked_keeps (platform : GamePlatform) (action : GameBindId)
    (token : GamePressToken) : Follows Keeps (releaseTracked platform action token) := by
  intro world
  unfold releaseTracked
  rw [bind_of_ok (read_apply world)]
  split
  · exact Follows.bind keeps_trans (release_keeps platform action.canonical)
      (fun _ => Follows.pure (fun _ => id) _) world
  · exact id

theorem schedule_keeps (action : GameBindId) (due : Nat) (world : GameWorld) :
    Keeps world (schedule action due world) := by
  intro h
  unfold schedule
  split
  next active hget =>
    have hsendable := h.sendable action active hget
    exact @Kept.put world _ h action { active with releaseDueMillis := some due }
      (h.canonical action active hget) hsendable rfl
  next => exact h

theorem invoke_keeps (platform : GamePlatform) (action : GameBindId)
    (durationMillis nowMillis : Nat) :
    Follows Keeps (invoke platform action durationMillis nowMillis) := by
  refine Follows.bind keeps_trans (press_keeps platform action) fun pressed => ?_
  split
  · refine Follows.bind keeps_trans (release_keeps platform pressed.action) fun _ => ?_
    exact Follows.pure (fun _ => id) _
  · exact schedule_keeps pressed.action _

theorem releaseDue_keeps (platform : GamePlatform) (actions : List GameBindId) :
    Follows Keeps (releaseDue platform actions) := by
  induction actions with
  | nil => exact Follows.pure (fun _ => id) _
  | cons action _ ih =>
    refine Follows.bind keeps_trans (release_keeps platform action) fun _ => ?_
    refine Follows.bind keeps_trans ih fun _ => ?_
    exact Follows.pure (fun _ => id) _

theorem releaseActions_keeps (platform : GamePlatform) (actions : List GameBindId) :
    ∀ dispatches firstError,
      Follows Keeps (releaseActions platform actions dispatches firstError) := by
  induction actions with
  | nil =>
    intro dispatches firstError
    cases firstError with
    | none => exact Follows.pure (fun _ => id) _
    | some => exact Follows.fail (fun _ => id) _
  | cons action _ ih =>
    intro dispatches firstError
    refine Follows.bind keeps_trans (Follows.attempt (release_keeps platform action)) fun r => ?_
    cases r with
    | ok | error => exact ih _ _

end GameInvoker

theorem GameOp.step_keeps (platform : GamePlatform) (world : GameWorld) (op : GameOp) :
    GameWorld.Keeps world (op.step platform world) := by
  cases op with
  | press action => exact GameInvoker.press_keeps platform action world
  | pressRepeated action => exact GameInvoker.pressRepeated_keeps platform action world
  | release action => exact GameInvoker.release_keeps platform action world
  | releaseTracked action token => exact GameInvoker.releaseTracked_keeps platform action token world
  | invoke action duration now => exact GameInvoker.invoke_keeps platform action duration now world
  | advance => exact GameInvoker.releaseDue_keeps platform _ world
  | releaseAll => exact GameInvoker.releaseActions_keeps platform _ [] none world
  | registryMut => exact fun h => h.congr rfl

theorem GameOp.run_kept (platform : GamePlatform) (registry : GameBindRegistry)
    (ops : List GameOp) : (run platform registry ops).Kept := by
  suffices h : ∀ world : GameWorld, world.Kept → (ops.foldl (step platform) world).Kept from
    h _ ⟨nofun, nofun⟩
  induction ops with
  | nil => exact fun _ => id
  | cons op _ ih => exact fun world h => ih _ (step_keeps platform world op h)

namespace GameInvoker

open GameWorld

variable {platform : GamePlatform} {world : GameWorld}

/-- The boundaries let the release with these call numbers through. -/
def Answered (platform : GamePlatform) (poll batch : Nat) : Prop :=
  (platform.physical poll).value?.isSome = true ∧ platform.sink batch = .returned (.ok ())

instance (platform : GamePlatform) (poll batch : Nat) : Decidable (Answered platform poll batch) :=
  inferInstanceAs (Decidable (_ ∧ _))

variable {action : GameBindId}

theorem bindingsToRelease_of_active {active : ActivePress}
    (hget : world.invoker.active.get? action = some active) :
    bindingsToRelease world action = some active.bindings := by
  unfold bindingsToRelease
  rw [hget]
  rfl

theorem release_spec (h : world.Kept) {action : GameBindId} {active : ActivePress}
    (hget : world.invoker.active.get? action = some active) :
    (Answered platform world.polls world.batches → ∃ dispatch next,
      release platform action world = (.ok dispatch, next) ∧
      next.invoker.active = world.invoker.active.erase action ∧
      next.polls = world.polls + 1 ∧ next.batches = world.batches + 1) ∧
    (¬Answered platform world.polls world.batches → ∃ error next,
      release platform action world = (.error error, next) ∧ next.invoker = world.invoker) := by
  have hcanonical := h.canonical action active hget
  unfold release
  rw [bind_of_ok (read_apply world), hcanonical, bindingsToRelease_of_active hget, require_some,
    pure_bind']
  have hreleased (physical : ModifierState) :
      ∃ messages, releaseEach physical active.bindings.reverse = .ok messages :=
    releaseEach_ok physical fun binding hbinding =>
      h.sendable action active hget binding (List.mem_reverse.mp hbinding)
  rcases hphysical : platform.physical world.polls with physical | _
  · have hpoll : pollModifiers platform world =
        (.ok physical, { world with polls := world.polls + 1 }) := by
      unfold pollModifiers
      rw [hphysical]
    obtain ⟨messages, hmessages⟩ := hreleased physical
    rw [bind_of_ok hpoll, hmessages, ofExcept_ok, pure_bind']
    constructor
    · intro hanswered
      have hsend : send platform (.release physical messages)
          { world with polls := world.polls + 1 } = (.ok (), { world with
            polls := world.polls + 1
            batches := world.batches + 1
            delivered := world.delivered ++ [.release physical messages] }) := by
        unfold send
        dsimp only
        rw [hanswered.2]
      rw [bind_of_ok hsend]
      exact ⟨_, _, rfl, rfl, rfl, rfl⟩
    · intro hunanswered
      have hsink : platform.sink world.batches ≠ .returned (.ok ()) := fun hsink =>
        hunanswered ⟨by rw [hphysical]; rfl, hsink⟩
      obtain ⟨error, hsend⟩ : ∃ error, send platform (.release physical messages)
          { world with polls := world.polls + 1 } = (.error error, { world with
            polls := world.polls + 1
            batches := world.batches + 1 }) := by
        unfold send
        dsimp only
        rcases hanswer : platform.sink world.batches with (_ | _) | _
        · exact ⟨.sinkFailed, rfl⟩
        · exact absurd hanswer hsink
        · exact ⟨.sinkPanicked, rfl⟩
      rw [bind_of_error hsend]
      exact ⟨_, _, rfl, rfl⟩
  · have hpoll : pollModifiers platform world =
        (.error .sinkPanicked, { world with polls := world.polls + 1 }) := by
      unfold pollModifiers
      rw [hphysical]
    rw [bind_of_error hpoll]
    refine ⟨fun hanswered => ?_, fun _ => ⟨_, _, rfl, rfl⟩⟩
    have hsome := hanswered.1
    rw [hphysical] at hsome
    cases hsome

variable {other : GameBindId}

theorem release_inactive (action : GameBindId) (hother : world.invoker.active.get? other = none) :
    (release platform action world).2.invoker.active.get? other = none := by
  rcases release_cases platform action world with
    ⟨dispatch, next, hrelease, hnext⟩ | ⟨error, next, hrelease, hnext⟩
  · rw [hrelease]
    change next.invoker.active.get? other = none
    rw [hnext, SortedMap.get?_erase, hother, ite_self]
  · rw [hrelease]
    change next.invoker.active.get? other = none
    rw [hnext, hother]

/-- The releases that `releaseDue` attempts, in order, with their results. -/
def attempts (platform : GamePlatform) : List GameBindId → GameWorld →
    List (GameBindId × Except GameInputError GameDispatch)
  | [], _ => []
  | action :: rest, world =>
    match release platform action world with
    | (.ok dispatch, next) => (action, .ok dispatch) :: attempts platform rest next
    | (.error error, _) => [(action, .error error)]

variable {actions : List GameBindId}

end GameInvoker

end Nexus
