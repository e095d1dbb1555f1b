import Nexus.GameBindContracts
import Nexus.StuckKeys
import Nexus.TimedInvocations

namespace Nexus

open Fallible

namespace GameInvoker

variable {platform : GamePlatform} {world : GameWorld}

/-- Behind boundaries that let everything through, a release of all actions leaves none. -/
theorem releaseActions_clears (hanswers : ∀ poll batch, Answered platform poll batch)
    {actions : List GameBindId} (h : world.Kept)
    (hlisted : ∀ action, world.invoker.active.get? action ≠ none → action ∈ actions)
    (dispatches : List GameDispatch) (firstError : Option GameInputError) (action : GameBindId) :
    (releaseActions platform actions dispatches firstError world).2.invoker.active.get? action =
      none := by
  induction actions generalizing world dispatches firstError with
  | nil =>
    have hnone : world.invoker.active.get? action = none :=
      not_not.mp fun hactive => List.not_mem_nil (hlisted action hactive)
    cases firstError with
    | none | some => exact hnone
  | cons first rest ih =>
    have hkept := release_keeps platform first world h
    have hrest : ∀ other, (release platform first world).2.invoker.active.get? other ≠ none →
        other ∈ rest := by
      intro other hother
      have hbefore := mt (@release_inactive platform world other first) hother
      rcases List.mem_cons.mp (hlisted other hbefore) with rfl | hmem
      · obtain ⟨active, hget⟩ := Option.ne_none_iff_exists'.mp hbefore
        obtain ⟨_, next, hrelease, hnext, _⟩ := (release_spec h hget).1 (hanswers _ _)
        rw [hrelease, hnext, SortedMap.get?_erase, if_pos rfl] at hother
        exact absurd rfl hother
      · exact hmem
    unfold releaseActions
    rw [bind_apply, attempt]
    rcases hrelease : release platform first world with ⟨_ | _, next⟩
    · rw [hrelease] at hkept hrest
      exact ih hkept hrest dispatches _
    · rw [hrelease] at hkept hrest
      exact ih hkept hrest _ firstError

end GameInvoker

namespace GameBinds

open StepRuns

/-! The lanes only put the operations of their invoker in a row. -/

/-- What closed lanes still ask of the invoker. -/
def Releases : GameOp → Prop
  | .releaseTracked _ _ | .releaseAll => True
  | _ => False

namespace GameBindLanes

variable {platform : GamePlatform} {world next : GameBindLanes}

/-- A step that has the invoker go through some operations. -/
structure Asks (platform : GamePlatform) (world next : GameBindLanes) (ops : List GameOp) :
    Prop where
  invoker : next.invoker = world.invoker.map fun game => ops.foldl (GameOp.step platform) game
  closed : world.accepting = false → next.accepting = false ∧ ∀ op ∈ ops, Releases op
  calls : ∀ thread, next.calls thread ≠ .idle →
    next.accepting = false ∨ world.calls thread ≠ .idle
  drained : next.drained = true →
    world.drained = true ∨ ops = [.releaseAll] ∧ ∃ thread, world.calls thread ≠ .idle

/-- A step that asks nothing and reopens nothing. -/
def Silent (world next : GameBindLanes) : Prop :=
  next.invoker = world.invoker ∧ (world.accepting = false → next.accepting = false) ∧
    (∀ thread, next.calls thread ≠ .idle → world.calls thread ≠ .idle) ∧
    next.drained = world.drained

theorem Silent.asks (h : world.Silent next) : Asks platform world next [] := by
  obtain ⟨hinvoker, hclosed, hcalls, hdrained⟩ := h
  refine ⟨?_, fun h => ⟨hclosed h, nofun⟩, fun thread h => Or.inr (hcalls thread h),
    fun h => Or.inl (hdrained ▸ h)⟩
  rw [hinvoker]
  exact (Option.map_id_apply (x := world.invoker)).symm

theorem silent_retireFinishedRunner (bind : GameBindId) (world : GameBindLanes) :
    world.Silent (world.retireFinishedRunner bind) := by
  unfold retireFinishedRunner
  split
  · exact ⟨rfl, id, fun _ => id, rfl⟩
  · split
    · split
      · exact ⟨rfl, fun _ => rfl, fun _ => id, rfl⟩
      · exact ⟨rfl, id, fun _ => id, rfl⟩
    · exact ⟨rfl, id, fun _ => id, rfl⟩

theorem silent_enqueue (command : GameBindCommand) (accepts : Bool) (world : GameBindLanes) :
    world.Silent (world.enqueue command accepts).2 := by
  have hretired := silent_retireFinishedRunner command.bind world
  unfold enqueue
  split
  · dsimp only
    split
    · exact hretired
    · split
      · exact hretired
      · split
        · exact hretired
        · exact ⟨hretired.1, fun _ => rfl, hretired.2.2⟩
  · exact ⟨rfl, id, fun _ => id, rfl⟩

theorem operate_ops (platform : GamePlatform) (command : GameBindCommand) (game : GameWorld) :
    ∃ ops : List GameOp, (operate platform command game).2 = ops.foldl (GameOp.step platform) game := by
  cases command with
  | press bind => exact ⟨[.pressRepeated bind], rfl⟩
  | release bind => exact ⟨[.release bind], rfl⟩
  | invoke bind duration =>
    unfold operate
    dsimp only
    split
    next hpress => exact ⟨[.pressRepeated bind], (congrArg Prod.snd hpress).symm⟩
    next token after hpress =>
      split
      · exact ⟨[.pressRepeated bind, .releaseTracked bind token],
          congrArg (fun game => (GameInvoker.releaseTracked platform bind token game).2)
            (congrArg Prod.snd hpress).symm⟩
      · exact ⟨[.pressRepeated bind], (congrArg Prod.snd hpress).symm⟩

theorem asks_perform (haccepting : world.accepting = true) (task : Nat) (command : GameBindCommand)
    (unwinds : Bool) :
    ∃ ops, Asks platform world (world.perform platform task command unwinds) ops := by
  have hopen : ¬world.accepting = false := by rw [haccepting]; exact Bool.true_eq_false_eq_False
  unfold perform
  dsimp only
  split
  · exact ⟨[], Silent.asks ⟨rfl, id, fun _ => id, rfl⟩⟩
  · split
    next => exact ⟨[], Silent.asks ⟨rfl, id, fun _ => id, rfl⟩⟩
    next game hgame =>
      obtain ⟨ops, hops⟩ := operate_ops platform command game
      have hnext : some (operate platform command game).2 =
          world.invoker.map fun game => ops.foldl (GameOp.step platform) game := by
        rw [hgame, hops]
        rfl
      rcases hoperated : operate platform command game with ⟨_ | _, after⟩
      · rw [hoperated] at hnext
        exact ⟨ops, hnext, fun h => absurd h hopen, fun _ => Or.inr, Or.inl⟩
      · rw [hoperated] at hnext
        exact ⟨ops, hnext, fun h => absurd h hopen, fun _ => Or.inr, Or.inl⟩

theorem asks_runnerStep {task : Nat} {unwinds : Bool}
    (hstep : world.runnerStep platform task unwinds = some next) :
    ∃ ops, Asks platform world next ops := by
  unfold runnerStep at hstep
  dsimp only at hstep
  split at hstep
  case h_2 =>
    cases hstep
    refine ⟨[], ?_⟩
    unfold nextCommand
    dsimp only
    split
    · exact Silent.asks ⟨rfl, fun _ => rfl, fun _ => id, rfl⟩
    · split
      · exact Silent.asks ⟨rfl, id, fun _ => id, rfl⟩
      · exact Silent.asks ⟨rfl, id, fun _ => id, rfl⟩
  case h_4 command _ =>
    split at hstep
    · cases hstep
      exact ⟨[], Silent.asks ⟨rfl, id, fun _ => id, rfl⟩⟩
    next hgoes =>
      cases hstep
      exact asks_perform (Bool.not_eq_false _ ▸ fun h => hgoes (Or.inl h)) task command unwinds
  case h_6 bind press _ =>
    cases hstep
    unfold releaseTimed
    dsimp only
    split
    · exact ⟨[], Silent.asks ⟨rfl, id, fun _ => id, rfl⟩⟩
    · exact ⟨[.releaseTracked bind press], rfl,
        fun h => ⟨h, fun op hop => by rw [List.mem_singleton.mp hop]; trivial⟩, fun _ => Or.inr, Or.inl⟩
  case h_7 =>
    cases hstep
    exact ⟨[], Silent.asks ⟨rfl, fun _ => rfl, fun _ => id, rfl⟩⟩
  case h_9 => cases hstep
  all_goals
    cases hstep
    exact ⟨[], Silent.asks ⟨rfl, id, fun _ => id, rfl⟩⟩

theorem asks_shutdownStep {thread : Nat} (hstep : world.shutdownStep platform thread = some next) :
    ∃ ops, Asks platform world next ops := by
  have hcalls {call : ShutdownCall} (hbusy : world.calls thread ≠ .idle) (other : Nat)
      (h : Function.update world.calls thread call other ≠ .idle) : world.calls other ≠ .idle := by
    by_cases hthread : other = thread
    · rwa [hthread]
    · rwa [Function.update_of_ne hthread] at h
  unfold shutdownStep at hstep
  split at hstep
  case h_1 => cases hstep
  case h_6 hcall =>
    have hbusy : world.calls thread ≠ .idle := hcall ▸ nofun
    have hreleases : ∀ op ∈ [GameOp.releaseAll], Releases op := by
      intro op hop
      rw [List.mem_singleton.mp hop]
      trivial
    refine ⟨[.releaseAll], ?_⟩
    rcases hinvoker : world.invoker with _ | game
    all_goals
      rw [hinvoker] at hstep
      cases hstep
      refine ⟨?_, fun h => ⟨h, hreleases⟩, fun other h => Or.inr (hcalls hbusy other h),
        fun _ => Or.inr ⟨rfl, thread, hbusy⟩⟩
      rw [hinvoker]
    · exact hinvoker
    · rfl
  case h_4 hcall =>
    split at hstep
    · cases hstep
      exact ⟨[], Silent.asks ⟨rfl, id, hcalls (hcall ▸ nofun), rfl⟩⟩
    · cases hstep
  case h_2 hcall | h_3 hcall | h_5 hcall =>
    cases hstep
    exact ⟨[], Silent.asks ⟨rfl, id, hcalls (hcall ▸ nofun), rfl⟩⟩

theorem asks_syncOperation {α : Type} {operation : GameMethod α} (op : GameOp)
    (hop : ∀ game, (operation game).2 = op.step platform game) :
    ∃ ops, Asks platform world (world.syncOperation operation) ops := by
  unfold syncOperation
  split
  next haccepting =>
    exact ⟨[op], congrArg (fun f => world.invoker.map f) (funext hop),
      fun h => absurd (h.symm.trans haccepting) Bool.false_ne_true, fun _ => Or.inr, Or.inl⟩
  next => exact ⟨[], Silent.asks ⟨rfl, id, fun _ => id, rfl⟩⟩

/-- A step sets the invoker or has it go through some operations. -/
theorem asks_step {action : GameBindAction} (hstep : step platform world action = some next) :
    (∃ invoker, action = .setInvoker invoker ∧ next = { world with invoker }) ∨
      ∃ ops, Asks platform world next ops := by
  cases action with
  | pressAsync | releaseAsync | invokeAsync =>
    cases hstep
    exact Or.inr ⟨[], (silent_enqueue _ _ _).asks⟩
  | press bind =>
    cases hstep
    exact Or.inr (asks_syncOperation (.pressRepeated bind.canonical) fun _ => rfl)
  | release bind =>
    cases hstep
    exact Or.inr (asks_syncOperation (.release bind.canonical) fun _ => rfl)
  | setInvoker invoker =>
    cases hstep
    exact Or.inl ⟨invoker, rfl, rfl⟩
  | cancelTask =>
    cases hstep
    exact Or.inr ⟨[], Silent.asks ⟨rfl, id, fun _ => id, rfl⟩⟩
  | runner => exact Or.inr (asks_runnerStep hstep)
  | requestShutdown =>
    simp only [step] at hstep
    split at hstep
    · cases hstep
      exact Or.inr ⟨[], (Option.map_id_apply (x := world.invoker)).symm, fun _ => ⟨rfl, nofun⟩,
        fun _ _ => Or.inl rfl, Or.inl⟩
    · cases hstep
  | shutdown => exact Or.inr (asks_shutdownStep hstep)

/-- A new invoker is set, if one is set. -/
def SetsNew (_ : GameBindLanes) : GameBindAction → Prop
  | .setInvoker (some game) => ∃ registry, game = GameInvoker.new registry
  | _ => True

/-- The invoker comes from its start by its own operations, and after a shutdown that waited it
holds nothing if every batch went through. -/
structure Backed (platform : GamePlatform) (world : GameBindLanes) : Prop where
  reached : ∀ game, world.invoker = some game →
    ∃ registry ops, game = GameOp.run platform registry ops
  closing : ∀ thread, world.calls thread ≠ .idle → world.accepting = false
  drained : world.drained = true → world.accepting = false ∧
    ((∀ poll batch, GameInvoker.Answered platform poll batch) → ∀ game, world.invoker = some game →
      ∀ action, game.invoker.active.get? action = none)

theorem releaseAll_clears (hanswers : ∀ poll batch, GameInvoker.Answered platform poll batch)
    {game : GameWorld} (h : game.Kept) (action : GameBindId) :
    (GameOp.step platform game .releaseAll).invoker.active.get? action = none := by
  refine GameInvoker.releaseActions_clears hanswers h (fun other hother => ?_) [] none action
  obtain ⟨_, hget⟩ := Option.ne_none_iff_exists'.mp hother
  exact List.mem_map_of_mem (SortedMap.get?_mem hget)

theorem releases_clear (hanswers : ∀ poll batch, GameInvoker.Answered platform poll batch)
    {ops : List GameOp} (hops : ∀ op ∈ ops, Releases op) {game : GameWorld} (h : game.Kept)
    (hclear : ∀ action, game.invoker.active.get? action = none) (action : GameBindId) :
    (ops.foldl (GameOp.step platform) game).invoker.active.get? action = none := by
  induction ops generalizing game with
  | nil => exact hclear action
  | cons op _ ih =>
    refine ih (fun other hother => hops other (List.mem_cons_of_mem _ hother))
      (GameOp.step_keeps platform game op h) fun other => ?_
    have hop := hops op List.mem_cons_self
    cases op with
    | releaseTracked bind token =>
      change (GameInvoker.releaseTracked platform bind token game).2.invoker.active.get? other = none
      unfold GameInvoker.releaseTracked
      rw [bind_of_ok (read_apply game), hclear]
      exact hclear other
    | releaseAll => exact releaseAll_clears hanswers h other
    | _ => exact hop.elim

theorem Backed.step (h : world.Backed platform) {action : GameBindAction}
    (hsets : world.SetsNew action) (hstep : step platform world action = some next) :
    next.Backed platform := by
  rcases asks_step hstep with ⟨invoker, rfl, rfl⟩ | ⟨ops, hasks⟩
  · refine ⟨fun game hgame => ?_, h.closing, fun hdrained => ⟨(h.drained hdrained).1, ?_⟩⟩
    · cases hgame
      obtain ⟨registry, rfl⟩ := hsets
      exact ⟨registry, [], rfl⟩
    · rintro _ game hgame action
      cases hgame
      obtain ⟨registry, rfl⟩ := hsets
      rfl
  · have hreached : ∀ game, next.invoker = some game → ∃ before, world.invoker = some before ∧
        before.Kept ∧ game = ops.foldl (GameOp.step platform) before := by
      intro game hgame
      obtain ⟨before, hbefore, hafter⟩ := Option.map_eq_some_iff.mp (hasks.invoker.symm.trans hgame)
      obtain ⟨registry, earlier, rfl⟩ := h.reached before hbefore
      exact ⟨_, hbefore, GameOp.run_kept platform registry earlier, hafter.symm⟩
    have hclosing : ∀ thread, next.calls thread ≠ .idle → next.accepting = false := by
      intro thread hcall
      rcases hasks.calls thread hcall with hclosed | hbefore
      · exact hclosed
      · exact (hasks.closed (h.closing thread hbefore)).1
    refine ⟨fun game hgame => ?_, hclosing, fun hdrained => ?_⟩
    · obtain ⟨before, hbefore, _, rfl⟩ := hreached game hgame
      obtain ⟨registry, earlier, rfl⟩ := h.reached before hbefore
      exact ⟨registry, earlier ++ ops, (List.foldl_append ..).symm⟩
    · rcases hasks.drained hdrained with hbefore | ⟨rfl, thread, hbusy⟩
      · obtain ⟨hclosed, hclear⟩ := h.drained hbefore
        obtain ⟨hstill, hops⟩ := hasks.closed hclosed
        refine ⟨hstill, fun hanswers game hgame => ?_⟩
        obtain ⟨before, hinvoker, hkept, rfl⟩ := hreached game hgame
        exact releases_clear hanswers hops hkept (hclear hanswers before hinvoker)
      · refine ⟨(hasks.closed (h.closing thread hbusy)).1, fun hanswers game hgame => ?_⟩
        obtain ⟨before, _, hkept, rfl⟩ := hreached game hgame
        exact releaseAll_clears hanswers hkept

section Runs

variable {scheduler : Bool} {registry : GameBindRegistry} {actions : List GameBindAction}
  (hrun : runSteps (step platform) (new scheduler (some (GameInvoker.new registry))) actions =
    some world)
  (hsets : ∀ game, .setInvoker (some game) ∈ actions → ∃ registry, game = GameInvoker.new registry)
  {game : GameWorld} (hgame : world.invoker = some game)

include hrun hsets

theorem backed_run : world.Backed platform := by
  have hevery : EveryStep (step platform) SetsNew (new scheduler (some (GameInvoker.new registry)))
      actions := by
    refine everyStep_of_forall fun _ action hmem => ?_
    cases action with
    | setInvoker invoker =>
      cases invoker with
      | none => trivial
      | some game => exact hsets game hmem
    | _ => trivial
  refine hevery.invariant (fun _ _ _ hstep hnew h => h.step hnew hstep) hrun
    ⟨fun game hgame => ?_, fun _ h => absurd rfl h, nofun⟩
  cases hgame
  exact ⟨registry, [], rfl⟩

include hgame

/-- Behind a window that takes every batch, a shutdown that waited leaves every key up, and the
game with the modifiers polled for the last release, whatever is still called afterwards. -/
theorem drained_lanes_hold_no_key (hanswers : ∀ poll batch, GameInvoker.Answered platform poll batch)
    (hdrained : world.drained = true) :
    (∀ key, lastTransition key game.messages ≠ some true) ∧
      (game.delivered = [] ∨ ∃ physical, game.lastRelease = some physical ∧
        ∀ initial, visible initial game.messages = physical) := by
  have hbacked := backed_run hrun hsets
  have hnone : ∀ action, game.recorded action = none := fun action => by
    unfold GameWorld.recorded
    rw [(hbacked.drained hdrained).2 hanswers game hgame action]
    rfl
  obtain ⟨registry, ops, rfl⟩ := hbacked.reached game hgame
  have htracked := GameWorld.tracked_run platform registry ops
  refine ⟨fun key hdown => ?_, htracked.settled hnone⟩
  obtain ⟨action, _, hrecorded, _⟩ := htracked.held key hdown
  rw [hnone action] at hrecorded
  cases hrecorded

end Runs

/-- A shutdown that waits for no handle takes the key from a timed invocation that still runs. -/
theorem orphaned_invocation_holds_no_key : ∃ world game,
    runSteps (step readyPlatform) (new true oneKeyInvoker) orphanedRun = some world ∧
      world.invoker = some game ∧ world.executing 0 = true ∧
        ∀ key, lastTransition key game.messages ≠ some true := by
  obtain ⟨game, hinvoker⟩ := Option.isSome_iff_exists.mp (rfl : ((runSteps (step readyPlatform)
    (new true oneKeyInvoker) orphanedRun).bind invoker).isSome = true)
  obtain ⟨world, hrun, hgame⟩ := Option.bind_eq_some_iff.mp hinvoker
  have hfacts : (runSteps (step readyPlatform) (new true oneKeyInvoker) orphanedRun).map
      (fun world => (world.drained, world.executing 0)) = some (true, true) := rfl
  rw [hrun] at hfacts
  obtain ⟨hdrained, hexecuting⟩ := Prod.mk.inj (Option.some.inj hfacts)
  exact ⟨world, game, hrun, hgame, hexecuting,
    (drained_lanes_hold_no_key hrun nofun hgame (fun _ _ => ⟨rfl, rfl⟩) hdrained).1⟩

end GameBindLanes

end GameBinds

end Nexus
