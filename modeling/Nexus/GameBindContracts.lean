import Nexus.GameBindRuns

namespace Nexus.GameBinds

open Relation Scheduler StepRuns FairRuns

namespace GameBindLanes

variable {platform : GamePlatform} {world next : GameBindLanes}

theorem Move.accepting (hmove : Move world next) (hclosed : world.accepting = false) :
    next.accepting = false := by
  cases hmove with
  | closed | stopped | requested => rfl
  | _ => exact hclosed

theorem moves_accepting (hmoves : Moves world next) (haccepting : next.accepting = true) :
    world.accepting = true := by
  induction hmoves with
  | refl => exact haccepting
  | tail _ hmove ih =>
    refine ih (eq_true_of_ne_false fun hclosed => ?_)
    exact Bool.false_ne_true ((Move.accepting hmove hclosed).symm.trans haccepting)

theorem Move.performed_prefix (hmove : Move world next) : world.performed <+: next.performed := by
  cases hmove with
  | performed => exact List.prefix_append _ _
  | _ => exact List.prefix_rfl

theorem Move.accepted_prefix (hmove : Move world next) : world.accepted <+: next.accepted := by
  cases hmove with
  | queued | started => exact List.prefix_append _ _
  | _ => exact List.prefix_rfl

theorem Move.performed_of_closed (hmove : Move world next) (hclosed : world.accepting = false) :
    next.performed = world.performed := by
  cases hmove with
  | performed _ _ haccepting =>
    exact absurd (hclosed.symm.trans haccepting) Bool.false_ne_true
  | _ => rfl

theorem moves_drained (hmoves : Moves world next) (hclosed : world.accepting = false)
    (hdrained : world.drained = true) :
    next.accepting = false ∧ next.drained = true ∧ next.performed = world.performed := by
  induction hmoves with
  | refl => exact ⟨hclosed, hdrained, rfl⟩
  | tail _ hmove ih =>
    obtain ⟨hmiddle, hstill, hperformed⟩ := ih
    refine ⟨Move.accepting hmove hmiddle, ?_,
      (Move.performed_of_closed hmove hmiddle).trans hperformed⟩
    cases hmove with
    | ended => simp [hstill]
    | _ => exact hstill

variable {bind : GameBindId} {count : Nat}

theorem Done.moves (h : Done bind count world) (hmoves : Moves world next) :
    Done bind count next := by
  induction hmoves with
  | refl => exact h
  | tail _ hmove ih =>
    refine Nat.le_trans ih ?_
    exact ((Move.performed_prefix hmove).filter _).length_le

variable {task : Nat}

theorem Busy.advances (h : Busy task bind count world) : Advances task bind count world world :=
  ⟨h, Nat.le_refl _, fun hne => absurd rfl hne⟩

theorem Advances.trans {middle : GameBindLanes} (first : Advances task bind count world middle)
    (second : Advances task bind count middle next) : Advances task bind count world next where
  busy := second.busy
  less := Nat.le_trans second.less first.less
  falls hne := by
    by_cases hsame : (middle.tasks task).phase = (world.tasks task).phase
    · exact Nat.lt_of_lt_of_le (second.falls (hsame ▸ hne)) first.less
    · exact Nat.lt_of_le_of_lt second.less (first.falls hsame)

theorem Busy.moves (h : Busy task bind count world) (hmoves : Moves world next)
    (haccepting : next.accepting = true) :
    Done bind count next ∨ Advances task bind count world next := by
  induction hmoves with
  | refl => exact Or.inr h.advances
  | tail _ hmove ih =>
    rcases ih (moves_accepting (.single hmove) haccepting) with hdone | hmiddle
    · exact Or.inl (hdone.moves (.single hmove))
    · exact (hmiddle.busy.move hmove haccepting).imp_right hmiddle.trans

theorem phase_nextCommand (task : Nat) (world : GameBindLanes) :
    ((world.nextCommand task).tasks task).phase ≠ .looping := by
  unfold nextCommand
  dsimp only
  split
  · rw [phase_setPhase, if_pos rfl]
    nofun
  · split
    · rw [phase_setPhase, if_pos rfl]
      nofun
    · rw [phase_setPhase, if_pos rfl]
      nofun

theorem phase_perform (task : Nat) (command : GameBindCommand) (unwinds : Bool)
    (world : GameBindLanes) :
    ((world.perform platform task command unwinds).tasks task).phase ≠ .operating command := by
  unfold perform
  dsimp only
  split
  · rw [phase_setPhase, if_pos rfl]
    nofun
  · split
    · rw [phase_setPhase, if_pos rfl]
      nofun
    · split
      · change ((setPhase task _ _).tasks task).phase ≠ _
        rw [phase_setPhase, if_pos rfl]
        nofun
      · change ((setPhase task _ _).tasks task).phase ≠ _
        rw [phase_setPhase, if_pos rfl]
        nofun

theorem phase_releaseTimed (task : Nat) (bind : GameBindId) (press : GamePressToken)
    (unwinds : Bool) (world : GameBindLanes) :
    ((world.releaseTimed platform task bind press unwinds).tasks task).phase ≠
      .releasing bind press := by
  unfold releaseTimed
  dsimp only
  split
  · rw [phase_setPhase, if_pos rfl]
    nofun
  · change ((setPhase task _ _).tasks task).phase ≠ _
    rw [phase_setPhase, if_pos rfl]
    nofun

theorem phase_runnerStep {task : Nat} {unwinds : Bool}
    (hstep : world.runnerStep platform task unwinds = some next) :
    (next.tasks task).phase ≠ (world.tasks task).phase := by
  unfold runnerStep at hstep
  dsimp only at hstep
  split at hstep
  next hphase =>
    cases hstep
    rw [phase_setPhase, if_pos rfl, hphase]
    split <;> nofun
  next hphase =>
    cases hstep
    exact hphase ▸ phase_nextCommand task world
  next command hphase =>
    cases hstep
    rw [phase_setPhase, if_pos rfl, hphase]
    split <;> nofun
  next command hphase =>
    cases hstep
    rw [hphase]
    split
    · rw [phase_setPhase, if_pos rfl]
      nofun
    · exact phase_perform task command unwinds world
  next bind press hphase =>
    cases hstep
    rw [phase_setPhase, if_pos rfl, hphase]
    nofun
  next bind press hphase =>
    cases hstep
    exact hphase ▸ phase_releaseTimed task bind press unwinds world
  next hphase =>
    cases hstep
    rw [phase_setPhase, if_pos rfl, hphase]
    nofun
  next hphase =>
    cases hstep
    rw [phase_setPhase, if_pos rfl, hphase]
    nofun
  next => cases hstep

/-- A run in which every runner gets its turn over and over. -/
structure FairRun (platform : GamePlatform) (world : GameBindLanes) where
  states : Nat → GameBindLanes
  actions : Nat → GameBindAction
  start : states 0 = world
  step : ∀ n, GameBindLanes.step platform (states n) (actions n) = some (states (n + 1))
  permits : ∀ n, (states n).Permits (actions n)
  fair : ∀ n task, (states n).live task = true →
    ∃ m, n ≤ m ∧ ∃ unwinds, actions m = .runner task unwinds

namespace FairRun

theorem sound (run : FairRun platform world) (h : world.Sound) (n : Nat) :
    (run.states n).Sound := by
  induction n with
  | zero => exact run.start.symm ▸ h
  | succ n ih => exact ih.moves (moves_of_step ih (run.permits n) (run.step n))

theorem accepted_prefix (run : FairRun platform world) (h : world.Sound) {n m : Nat} (hle : n ≤ m) :
    (run.states n).accepted <+: (run.states m).accepted := by
  induction m, hle using Nat.le_induction with
  | base => exact List.prefix_rfl
  | succ m _ ih =>
    have hmoves := moves_of_step (run.sound h m) (run.permits m) (run.step m)
    exact ReflTransGen.rec ih (fun _ hmove ih => ih.trans (Move.accepted_prefix hmove)) hmoves

theorem progress (run : FairRun platform world) (haccepting : ∀ n, (run.states n).accepting = true)
    (task : Nat) (bind : GameBindId) (count : Nat) :
    Progress (fun n => Busy task bind count (run.states n)) (fun n => Done bind count (run.states n))
      fun n => work task bind count (run.states n) := by
  have hadvances : ∀ n, Busy task bind count (run.states n) →
      Done bind count (run.states (n + 1)) ∨
        Advances task bind count (run.states n) (run.states (n + 1)) := fun n hbusy =>
    hbusy.moves (moves_of_step hbusy.sound (run.permits n) (run.step n)) (haccepting (n + 1))
  refine ⟨fun n hbusy => ?_, fun n hbusy => ?_⟩
  · exact (hadvances n hbusy).imp_right fun hnext => ⟨hnext.busy, hnext.less⟩
  · obtain ⟨m, hle, unwinds, haction⟩ := run.fair n task hbusy.live
    have hstep := run.step m
    rw [haction] at hstep
    have hphase := @phase_runnerStep platform (run.states m) (run.states (m + 1)) task unwinds hstep
    refine ⟨m, hle, fun hstill => (hadvances m hstill).imp_right fun hnext => ?_⟩
    exact ⟨hnext.busy, hnext.falls hphase⟩

theorem performs (run : FairRun platform world) (h : world.Sound)
    (haccepting : ∀ n, (run.states n).accepting = true) (bind : GameBindId) (n : Nat) :
    ∃ m, n ≤ m ∧ Done bind (ofBind bind (run.states n).accepted).length (run.states m) := by
  by_cases hdone : Done bind (ofBind bind (run.states n).accepted).length (run.states n)
  · exact ⟨n, Nat.le_refl n, hdone⟩
  · have hsound := run.sound h n
    have hwaits := Nat.lt_of_not_le hdone
    obtain ⟨task, hlive, hruns⟩ : ∃ task, (run.states n).live task = true ∧
        ((run.states n).tasks task).bind = bind := by
      rcases hsound.ordered.accounts (haccepting n) bind with hstuck | hbalanced
      · obtain ⟨task, hlive, hruns, _⟩ := Registered.live_of_stuck hstuck
        exact ⟨task, hlive, hruns⟩
      · rcases hget : (run.states n).binds.get? bind with _ | lane
        · have hnone : (run.states n).outstanding bind = [] := by unfold outstanding; rw [hget]
          rw [hnone, List.append_nil] at hbalanced
          exact absurd hwaits (hbalanced ▸ Nat.lt_irrefl _)
        · obtain ⟨task, _, hlive, hruns⟩ := hsound.registered.lanes bind lane hget
          exact ⟨task, hlive, hruns⟩
    exact (run.progress haccepting task bind _).eventually
      ⟨hsound, haccepting n, hlive, hruns, hwaits, Nat.le_refl _⟩

end FairRun

structure Safe (platform : GamePlatform) (world : GameBindLanes) : Prop where
  ordered : ∀ bind, ofBind bind world.performed <+: ofBind bind world.accepted
  alone : ∀ task other, world.executing task = true → world.executing other = true →
    (world.tasks task).bind = (world.tasks other).bind → task = other
  counted : world.accepting = true →
    world.pending = world.binds.total queueLength ∧ world.pending ≤ asyncQueueCapacity
  served : world.accepting = true → ∀ bind lane, world.binds.get? bind = some lane →
    lane.queue ≠ [] → ∃ task, lane.runner = some task ∧ world.live task = true ∧
      (world.tasks task).bind = bind
  drained : world.drained = true → ∀ actions final,
    runSteps (step platform) world actions = some final →
      final.performed = world.performed ∧ final.owing = [] ∧
        ∀ task, final.executing task = false

theorem Drains.permits (h : world.Drains) (hdrained : world.drained = true)
    (action : GameBindAction) : world.Permits action := by
  obtain ⟨hclosed, hidle⟩ := h.drained hdrained
  cases action with
  | runner => exact fun _ _ => hclosed
  | requestShutdown =>
    exact fun _ task _ hexecuting => absurd ((hidle task).symm.trans hexecuting) Bool.false_ne_true
  | _ => trivial

theorem Sound.stays_drained (h : world.Sound) (hdrained : world.drained = true)
    {actions : List GameBindAction} {final : GameBindLanes}
    (hrun : runSteps (step platform) world actions = some final) :
    final.Sound ∧ final.drained = true ∧ final.performed = world.performed := by
  refine runSteps_invariant (P := fun state => state.Sound ∧ state.drained = true ∧
    state.performed = world.performed) ?_ hrun ⟨h, hdrained, rfl⟩
  rintro state action after hstep ⟨hsound, hstill, hperformed⟩
  have hmoves := moves_of_step hsound (hsound.drains.permits hstill action) hstep
  obtain ⟨_, hafter, hkept⟩ := moves_drained hmoves (hsound.drains.drained hstill).1 hstill
  exact ⟨hsound.moves hmoves, hafter, hkept.trans hperformed⟩

theorem Drains.owing_nil (h : world.Drains) (hdrained : world.drained = true) :
    world.owing = [] := by
  refine List.eq_nil_iff_forall_not_mem.mpr fun task howes => ?_
  have hexecuting : world.executing task = true :=
    RunnerPhase.executing_of_holds (h.owing task howes)
  exact Bool.false_ne_true (((h.drained hdrained).2 task).symm.trans hexecuting)

theorem Sound.safe (h : world.Sound) : Safe platform world where
  ordered := h.ordered.done
  alone task other htask hother := h.registered.unique task other
    (RunnerPhase.live_of_executing htask) (RunnerPhase.live_of_executing hother)
  counted haccepting := ⟨h.counted.pending haccepting, h.counted.bounded⟩
  served _ bind lane hget _ := h.registered.lanes bind lane hget
  drained hdrained actions final hrun := by
    obtain ⟨hsound, hstill, hperformed⟩ := h.stays_drained hdrained hrun
    exact ⟨hperformed, hsound.drains.owing_nil hstill, (hsound.drains.drained hstill).2⟩

/-- In a run whose steps are all permitted, the lanes are safe, and while they accept they perform
every command in its turn. -/
theorem lanes_fifo_exact_and_drained {scheduler : Bool} {invoker : Option GameWorld}
    {actions : List GameBindAction}
    (hrun : runSteps (step platform) (new scheduler invoker) actions = some world)
    (hevery : EveryStep (step platform) Permits (new scheduler invoker) actions) :
    Safe platform world ∧ ∀ run : FairRun platform world,
      (∀ n, (run.states n).accepting = true) → ∀ bind n, ∃ m, n ≤ m ∧
        ofBind bind (run.states n).accepted <+: ofBind bind (run.states m).performed := by
  have hsound : world.Sound := by
    refine hevery.invariant (Q := Sound) ?_ hrun (sound_new scheduler invoker)
    exact fun state action after hstep hpermits h => h.moves (moves_of_step h hpermits hstep)
  refine ⟨hsound.safe, fun run haccepting bind n => ?_⟩
  obtain ⟨m, hle, hdone⟩ := run.performs hsound haccepting bind n
  have haccepted := (run.accepted_prefix hsound hle).filter fun command => command.bind = bind
  exact ⟨m, hle, List.prefix_of_prefix_length_le haccepted
    ((run.sound hsound m).ordered.done bind) hdone⟩

instance (world : GameBindLanes) (action : GameBindAction) : Decidable (world.Permits action) :=
  match action with
  | .runner task _ => inferInstanceAs (Decidable ((world.tasks task).phase = .submitted →
      (world.tasks task).cancelled = true → world.accepting = false))
  | .requestShutdown _ worker => inferInstanceAs (Decidable (worker = false →
      ∀ task < world.taskCount, world.executing task = true → task ∈ world.runners))
  | .pressAsync .. | .releaseAsync .. | .invokeAsync .. | .press _ | .release _ | .setInvoker _
  | .cancelTask _ | .shutdown _ => isTrue trivial

def readyPlatform : GamePlatform := ⟨fun _ => .returned .default, fun _ => .returned (.ok ())⟩

def oneKeyInvoker : Option GameWorld :=
  some (GameInvoker.new ⟨SortedMap.empty.put 0 ⟨⟨false, false, false, .keyboard, 17⟩, .default⟩,
    .empty, .empty, .empty⟩)

def drainedRun : List GameBindAction :=
  [.invokeAsync 0 60000 true, .runner 0 false, .runner 0 false, .runner 0 false, .runner 0 false,
    .requestShutdown 0 false, .shutdown 0, .shutdown 0, .runner 0 false, .runner 0 false,
    .runner 0 false, .runner 0 false, .shutdown 0, .shutdown 0, .shutdown 0]

theorem lanes_drain_a_timed_invocation : ∃ world,
    runSteps (step readyPlatform) (new true oneKeyInvoker) drainedRun = some world ∧
      world.drained = true ∧ Safe readyPlatform world := by
  obtain ⟨world, hrun⟩ := Option.isSome_iff_exists.mp
    (rfl : (runSteps (step readyPlatform) (new true oneKeyInvoker) drainedRun).isSome = true)
  have hdrained : (runSteps (step readyPlatform) (new true oneKeyInvoker) drainedRun).map drained =
      some true := rfl
  rw [hrun] at hdrained
  exact ⟨world, hrun, Option.some.inj hdrained,
    (lanes_fifo_exact_and_drained hrun (by decide +kernel)).1⟩

/-- While the timed invocation holds its key, the scheduler turns the runner of another bind away,
which empties the lanes; a shutdown that waits finds no handle. -/
def orphanedRun : List GameBindAction :=
  [.invokeAsync 0 60000 true, .runner 0 false, .runner 0 false, .runner 0 false, .runner 0 false,
    .pressAsync 1 false, .requestShutdown 0 false, .shutdown 0, .shutdown 0, .shutdown 0]

theorem shutdown_leaves_a_timed_invocation : ∃ world,
    runSteps (step readyPlatform) (new true oneKeyInvoker) orphanedRun = some world ∧
      world.drained = true ∧ world.executing 0 = true ∧ ¬ Safe readyPlatform world := by
  obtain ⟨world, hrun⟩ := Option.isSome_iff_exists.mp
    (rfl : (runSteps (step readyPlatform) (new true oneKeyInvoker) orphanedRun).isSome = true)
  have hfacts : (runSteps (step readyPlatform) (new true oneKeyInvoker) orphanedRun).map
      (fun world => (world.drained, world.executing 0)) = some (true, true) := rfl
  rw [hrun] at hfacts
  obtain ⟨hdrained, hexecuting⟩ := Prod.mk.inj (Option.some.inj hfacts)
  refine ⟨world, hrun, hdrained, hexecuting, fun hsafe => ?_⟩
  have hidle := (hsafe.drained hdrained [] world rfl).2.2 0
  exact Bool.false_ne_true (hidle.symm.trans hexecuting)

end GameBindLanes

end Nexus.GameBinds
