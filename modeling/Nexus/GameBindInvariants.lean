import Nexus.GameBindLanes

namespace Nexus.GameBinds

open Relation Scheduler StepRuns

namespace GameBindLanes

/-- The live runners are those of the lanes; once the lanes are closed there is none left. -/
structure Registered (world : GameBindLanes) : Prop where
  fresh : ∀ task, world.taskCount ≤ task → world.live task = false
  unique : ∀ task other, world.live task = true → world.live other = true →
    (world.tasks task).bind = (world.tasks other).bind → task = other
  closed : world.accepting = false → ∀ bind, world.binds.get? bind = none
  lanes : ∀ bind lane, world.binds.get? bind = some lane →
    ∃ task, lane.runner = some task ∧ world.live task = true ∧ (world.tasks task).bind = bind
  lives : world.accepting = true → ∀ task, world.live task = true →
    ∃ queue, world.binds.get? (world.tasks task).bind = some ⟨queue, some task⟩

def ofBind (bind : GameBindId) (commands : List GameBindCommand) : List GameBindCommand :=
  commands.filter fun command => command.bind = bind

def outstanding (world : GameBindLanes) (bind : GameBindId) : List GameBindCommand :=
  match world.binds.get? bind with
  | none => []
  | some lane => (lane.runner.map fun task => (world.tasks task).phase.inHand).getD [] ++ lane.queue

def Stuck (world : GameBindLanes) (bind : GameBindId) : Prop :=
  ∃ task, (world.tasks task).bind = bind ∧ (world.tasks task).phase = .looping ∧
    (world.tasks task).cancelled = true

structure Ordered (world : GameBindLanes) : Prop where
  queued : ∀ bind lane, world.binds.get? bind = some lane →
    ∀ command ∈ lane.queue, command.bind = bind
  inHand : ∀ task, ∀ command ∈ (world.tasks task).phase.inHand,
    command.bind = (world.tasks task).bind
  accounts : world.accepting = true → ∀ bind, world.Stuck bind ∨
    ofBind bind world.accepted = ofBind bind world.performed ++ world.outstanding bind
  done : ∀ bind, ofBind bind world.performed <+: ofBind bind world.accepted

def queueLength (lane : BindCommandLane) : Nat := lane.queue.length

structure Counted (world : GameBindLanes) : Prop where
  pending : world.accepting = true → world.pending = world.binds.total queueLength
  bounded : world.pending ≤ asyncQueueCapacity

/-- Whoever waits has the handle of every runner with a command. -/
structure Drains (world : GameBindLanes) : Prop where
  waits : ∀ thread handles, (world.calls thread).handles = some handles →
    world.accepting = false ∧ ∀ task, world.executing task = true → task ∈ handles
  drained : world.drained = true → world.accepting = false ∧
    ∀ task, world.executing task = false
  owing : ∀ task ∈ world.owing, (world.tasks task).phase.holds = true

section Frames

variable {world next : GameBindLanes}

theorem Registered.frame (h : world.Registered)
    (hbind : ∀ task, (next.tasks task).bind = (world.tasks task).bind)
    (hless : ∀ task, next.live task = true → world.live task = true)
    (hkept : next.accepting = true → ∀ task, world.live task = true → next.live task = true)
    (haccepting : next.accepting = world.accepting) (hcount : next.taskCount = world.taskCount)
    (hrunners : ∀ bind, (next.binds.get? bind).map BindCommandLane.runner =
      (world.binds.get? bind).map BindCommandLane.runner) : next.Registered where
  fresh task hle := Bool.eq_false_iff.mpr fun hlive =>
    Bool.false_ne_true ((h.fresh task (hcount ▸ hle)).symm.trans (hless task hlive))
  unique task other htask hother hsame :=
    h.unique task other (hless task htask) (hless other hother)
      ((hbind task).symm.trans (hsame.trans (hbind other)))
  closed hclosed bind := by
    have hrunner := hrunners bind
    rw [h.closed (haccepting ▸ hclosed) bind] at hrunner
    exact Option.map_eq_none_iff.mp hrunner
  lanes bind lane hget := by
    have hrunner := hrunners bind
    rw [hget] at hrunner
    obtain ⟨old, hold, hsame⟩ := Option.map_eq_some_iff.mp hrunner.symm
    obtain ⟨task, htask, hlive, htaskBind⟩ := h.lanes bind old hold
    have haccepts : next.accepting = true := by
      refine eq_true_of_ne_false fun hclosed => ?_
      exact absurd ((h.closed (haccepting ▸ hclosed) bind).symm.trans hold) nofun
    exact ⟨task, hsame.symm.trans htask, hkept haccepts task hlive, (hbind task).trans htaskBind⟩
  lives haccepts task hlive := by
    obtain ⟨_, hget⟩ := h.lives (haccepting ▸ haccepts) task (hless task hlive)
    have hrunner := hrunners (world.tasks task).bind
    rw [hget] at hrunner
    obtain ⟨⟨rest, runner⟩, hlane, hsame⟩ := Option.map_eq_some_iff.mp hrunner
    cases hsame
    exact ⟨rest, (congrArg next.binds.get? (hbind task)).trans hlane⟩

theorem Registered.emptied (h : world.Registered)
    (hbind : ∀ task, (next.tasks task).bind = (world.tasks task).bind)
    (hless : ∀ task, next.live task = true → world.live task = true)
    (hcount : next.taskCount = world.taskCount) (hclosed : next.accepting = false)
    (hempty : next.binds = .empty) : next.Registered where
  fresh task hle := Bool.eq_false_iff.mpr fun hlive =>
    Bool.false_ne_true ((h.fresh task (hcount ▸ hle)).symm.trans (hless task hlive))
  unique task other htask hother hsame :=
    h.unique task other (hless task htask) (hless other hother)
      ((hbind task).symm.trans (hsame.trans (hbind other)))
  closed _ bind := by
    rw [hempty]
    rfl
  lanes bind lane hget := by
    rw [hempty] at hget
    cases hget
  lives haccepts := absurd (hclosed.symm.trans haccepts) Bool.false_ne_true

theorem tasks_setPhase (task other : Nat) (phase : RunnerPhase) :
    (world.setPhase task phase).tasks other =
      if other = task then { world.tasks task with phase } else world.tasks other :=
  Function.update_apply ..

theorem bind_setPhase (task other : Nat) (phase : RunnerPhase) :
    ((world.setPhase task phase).tasks other).bind = (world.tasks other).bind := by
  rw [tasks_setPhase]
  split
  next heq => rw [heq]
  next => rfl

theorem phase_setPhase (task other : Nat) (phase : RunnerPhase) :
    ((world.setPhase task phase).tasks other).phase =
      if other = task then phase else (world.tasks other).phase := by
  rw [tasks_setPhase]
  split <;> rfl

theorem cancelled_setPhase (task other : Nat) (phase : RunnerPhase) :
    ((world.setPhase task phase).tasks other).cancelled = (world.tasks other).cancelled := by
  rw [tasks_setPhase]
  split
  next heq => rw [heq]
  next => rfl

theorem tasks_cancelTask (task other : Nat) :
    (world.cancelTask task).tasks other =
      if other = task then { world.tasks task with cancelled := true } else world.tasks other :=
  Function.update_apply ..

theorem phase_cancelTask (task other : Nat) :
    ((world.cancelTask task).tasks other).phase = (world.tasks other).phase := by
  rw [tasks_cancelTask]
  split
  next heq => rw [heq]
  next => rfl

theorem bind_cancelTask (task other : Nat) :
    ((world.cancelTask task).tasks other).bind = (world.tasks other).bind := by
  rw [tasks_cancelTask]
  split
  next heq => rw [heq]
  next => rfl

variable {task : Nat}

theorem cancelled_cancelTask {other : Nat} (h : (world.tasks other).cancelled = true) :
    ((world.cancelTask task).tasks other).cancelled = true := by
  rw [tasks_cancelTask]
  split
  next => rfl
  next => exact h

theorem tasks_launched (command : GameBindCommand) (task : Nat) :
    (world.launched command).tasks task = if task = world.taskCount then
      ⟨command.bind, false, .submitted⟩ else world.tasks task := Function.update_apply ..

theorem binds_launched (command : GameBindCommand) (bind : GameBindId) :
    (world.launched command).binds.get? bind = if bind = command.bind then
      some ⟨[command], some world.taskCount⟩ else world.binds.get? bind := SortedMap.get?_put ..

theorem live_setPhase {task other : Nat} {phase : RunnerPhase}
    (hphase : phase.live = true → world.live task = true)
    (hlive : (world.setPhase task phase).live other = true) : world.live other = true := by
  unfold live at hlive hphase ⊢
  rw [phase_setPhase] at hlive
  split at hlive
  next heq =>
    rw [heq]
    exact hphase hlive
  next => exact hlive

variable {phase : RunnerPhase}

theorem live_setPhase_of_live {other : Nat} (hphase : world.live task = true → phase.live = true)
    (hlive : world.live other = true) : (world.setPhase task phase).live other = true := by
  unfold live at hlive hphase ⊢
  rw [phase_setPhase]
  split
  next heq =>
    rw [heq] at hlive
    exact hphase hlive
  next => exact hlive

theorem Shift.live {accepting cancelled : Bool} {after : RunnerPhase}
    (h : Shift accepting cancelled phase after) : after.live = true → phase.live = true := by
  cases h <;> first | exact fun _ => rfl | exact id

theorem Shift.lives {accepting cancelled : Bool} {after : RunnerPhase}
    (h : Shift accepting cancelled phase after) (haccepting : accepting = true) :
    phase.live = true → after.live = true := by
  cases h with
  | left hclosed => exact absurd (haccepting.symm.trans hclosed) Bool.noConfusion
  | settled => exact id
  | _ => exact fun _ => rfl

theorem Outcome.live {owing after : List Nat} (h : Outcome task owing phase after) :
    phase.live = true := by
  cases h <;> rfl

end Frames

section Runners

variable {world next : GameBindLanes}

theorem Registered.rephased (h : world.Registered) {task : Nat} {phase : RunnerPhase}
    (hbefore : world.live task = true) (hafter : phase.live = true)
    (haccepting : next.accepting = world.accepting) (hcount : next.taskCount = world.taskCount)
    (htasks : next.tasks = (world.setPhase task phase).tasks)
    (hrunners : ∀ bind, (next.binds.get? bind).map BindCommandLane.runner =
      (world.binds.get? bind).map BindCommandLane.runner) : next.Registered := by
  refine h.frame (fun other => ?_) (fun other hlive => ?_) (fun _ other hlive => ?_) haccepting
    hcount hrunners
  · rw [htasks]
    exact bind_setPhase task other phase
  · unfold live at hlive
    rw [htasks] at hlive
    exact live_setPhase (fun _ => hbefore) hlive
  · unfold live
    rw [htasks]
    exact live_setPhase_of_live (fun _ => hafter) hlive

theorem Registered.move (h : world.Registered) (hmove : Move world next) : next.Registered := by
  cases hmove with
  | invoked | advanced | ended =>
    exact h.frame (fun _ => rfl) (fun _ => id) (fun _ _ => id) rfl rfl fun _ => rfl
  | closed | requested => exact h.emptied (fun _ => rfl) (fun _ => id) rfl rfl rfl
  | @queued command _ _ _ hget =>
    refine h.frame (fun _ => rfl) (fun _ => id) (fun _ _ => id) rfl rfl fun bind => ?_
    change ((world.binds.put command.bind _).get? bind).map _ = _
    rw [SortedMap.get?_put]
    split
    next heq => rw [heq, hget]; rfl
    next => rfl
  | @started command haccepting _ hget =>
    have hnew : world.live world.taskCount = false := h.fresh _ (Nat.le_refl _)
    have hfree : ∀ task, world.live task = true → (world.tasks task).bind ≠ command.bind := by
      intro task hlive hsame
      obtain ⟨queue, hlane⟩ := h.lives haccepting task hlive
      rw [hsame, hget] at hlane
      cases hlane
    refine ⟨fun task hle => ?_, fun task other hlive hother hsame => ?_, fun hclosed => ?_,
      fun bind lane hlane => ?_, fun _ task hlive => ?_⟩
    · unfold live
      rw [tasks_launched, if_neg (Nat.ne_of_gt hle)]
      exact h.fresh task (Nat.le_of_succ_le hle)
    · unfold live at hlive hother
      rw [tasks_launched] at hlive hother
      rw [tasks_launched, tasks_launched] at hsame
      by_cases htask : task = world.taskCount
      · by_cases hsecond : other = world.taskCount
        · exact htask.trans hsecond.symm
        · rw [if_neg hsecond] at hother
          rw [if_pos htask, if_neg hsecond] at hsame
          exact absurd hsame.symm (hfree other hother)
      · rw [if_neg htask] at hlive
        by_cases hsecond : other = world.taskCount
        · rw [if_neg htask, if_pos hsecond] at hsame
          exact absurd hsame (hfree task hlive)
        · rw [if_neg hsecond] at hother
          rw [if_neg htask, if_neg hsecond] at hsame
          exact h.unique task other hlive hother hsame
    · exact absurd (haccepting.symm.trans hclosed) Bool.noConfusion
    · rw [binds_launched] at hlane
      split at hlane
      next heq =>
        cases hlane
        refine ⟨world.taskCount, rfl, ?_, ?_⟩
        · unfold live
          rw [tasks_launched, if_pos rfl]
          rfl
        · rw [tasks_launched, if_pos rfl]
          exact heq.symm
      next =>
        obtain ⟨task, hrunner, hlive, hbind⟩ := h.lanes bind lane hlane
        have hold : task ≠ world.taskCount := by
          rintro rfl
          exact Bool.false_ne_true (hnew.symm.trans hlive)
        refine ⟨task, hrunner, ?_, ?_⟩
        · unfold live
          rw [tasks_launched, if_neg hold]
          exact hlive
        · rw [tasks_launched, if_neg hold]
          exact hbind
    · unfold live at hlive
      rw [tasks_launched] at hlive ⊢
      by_cases htask : task = world.taskCount
      · rw [if_pos htask, binds_launched, if_pos rfl, htask]
        exact ⟨_, rfl⟩
      · rw [if_neg htask] at hlive ⊢
        rw [binds_launched, if_neg (hfree task hlive)]
        exact h.lives haccepting task hlive
  | @shifted task phase hshift =>
    refine h.frame (bind_setPhase task · phase) (fun other => live_setPhase (Shift.live hshift))
      (fun haccepting other => live_setPhase_of_live (Shift.lives hshift haccepting)) rfl rfl fun _ => rfl
  | @stopped task =>
    exact h.emptied (bind_setPhase task · .returned)
      (fun other => @live_setPhase world task other .returned nofun) rfl rfl rfl
  | @popped task command _ _ hphase _ _ hget =>
    have hlive : world.live task = true := by unfold live; rw [hphase]; rfl
    refine @Registered.rephased world _ h task (.popped command) hlive rfl rfl rfl rfl
      fun bind => ?_
    change ((world.binds.put (world.tasks task).bind _).get? bind).map _ = _
    rw [SortedMap.get?_put]
    split
    next heq => rw [heq, hget]; rfl
    next => rfl
  | @retired task hphase haccepting =>
    have hlive : world.live task = true := by unfold live; rw [hphase]; rfl
    have hless : ∀ other, (world.setPhase task .returned).live other = true →
        world.live other = true := fun other => live_setPhase fun _ => hlive
    have hkept : ∀ other, world.live other = true → other ≠ task →
        (world.setPhase task .returned).live other = true := by
      intro other hother hne
      unfold live
      rw [phase_setPhase, if_neg hne]
      exact hother
    have hgone : ∀ other, (world.setPhase task .returned).live other = true → other ≠ task := by
      rintro other hother rfl
      unfold live at hother
      rw [phase_setPhase, if_pos rfl] at hother
      cases hother
    refine ⟨fun other hle => ?_, fun first second hfirst hsecond hsame => ?_, fun hclosed => ?_,
      fun bind lane hlane => ?_, fun _ other hother => ?_⟩
    · exact Bool.eq_false_iff.mpr fun hother =>
        Bool.false_ne_true ((h.fresh other hle).symm.trans (hless other hother))
    · exact h.unique first second (hless first hfirst) (hless second hsecond)
        ((bind_setPhase task first .returned).symm.trans
          (hsame.trans (bind_setPhase task second .returned)))
    · exact absurd (haccepting.symm.trans hclosed) Bool.noConfusion
    · change (world.binds.erase (world.tasks task).bind).get? bind = some lane at hlane
      rw [SortedMap.get?_erase] at hlane
      split at hlane
      next => cases hlane
      next hne =>
        obtain ⟨other, hrunner, hother, hbind⟩ := h.lanes bind lane hlane
        refine ⟨other, hrunner, hkept other hother ?_, (bind_setPhase task other .returned).trans hbind⟩
        rintro rfl
        exact hne hbind.symm
    · have hne := hgone other hother
      obtain ⟨queue, hlane⟩ := h.lives haccepting other (hless other hother)
      refine ⟨queue, ?_⟩
      change (world.binds.erase (world.tasks task).bind).get?
        ((world.setPhase task .returned).tasks other).bind = _
      rw [bind_setPhase, SortedMap.get?_erase, if_neg fun hsame => hne
        (h.unique other task (hless other hother) hlive hsame)]
      exact hlane
  | @performed task _ phase _ _ hphase _ _ houtcome =>
    have hlive : world.live task = true := by unfold live; rw [hphase]; rfl
    exact @Registered.rephased world _ h task phase hlive (Outcome.live houtcome) rfl rfl rfl
      fun _ => rfl
  | @released task phase _ hholds hphase =>
    have hlive : world.live task = true :=
      RunnerPhase.live_of_executing (RunnerPhase.executing_of_holds hholds)
    refine @Registered.rephased world _ h task phase hlive ?_ rfl rfl rfl fun _ => rfl
    rcases hphase with rfl | rfl <;> rfl
  | cancelled task =>
    refine h.frame (bind_cancelTask task) (fun other hother => ?_) (fun _ other hother => ?_) rfl rfl
      fun _ => rfl
    · unfold live at hother ⊢
      rw [phase_cancelTask] at hother
      exact hother
    · unfold live at hother ⊢
      rw [phase_cancelTask]
      exact hother

theorem Counted.move (h : world.Counted) (hmove : Move world next) : next.Counted := by
  cases hmove with
  | invoked | shifted | performed | released | cancelled | advanced | ended =>
    exact ⟨h.pending, h.bounded⟩
  | closed | stopped | requested => exact ⟨nofun, Nat.zero_le _⟩
  | @queued command _ haccepting hroom hget =>
    refine ⟨fun _ => ?_, hroom⟩
    change world.pending + 1 = (world.binds.put command.bind _).total queueLength
    rw [SortedMap.total_put, h.pending haccepting, SortedMap.total_erase queueLength hget]
    unfold queueLength
    rw [List.length_append, List.length_singleton]
    omega
  | @started command haccepting hroom hget =>
    refine ⟨fun _ => ?_, hroom⟩
    change world.pending + 1 = (world.binds.put command.bind _).total queueLength
    rw [SortedMap.total_put, SortedMap.erase_of_absent hget, h.pending haccepting]
    exact Nat.add_comm ..
  | @popped task _ _ _ _ haccepting _ hget =>
    refine ⟨fun _ => ?_, Nat.le_trans (Nat.sub_le ..) h.bounded⟩
    change world.pending - 1 = (world.binds.put (world.tasks task).bind _).total queueLength
    rw [SortedMap.total_put, h.pending haccepting, SortedMap.total_erase queueLength hget]
    unfold queueLength
    dsimp only
    rw [List.length_cons]
    omega
  | @retired task _ haccepting _ hempty =>
    refine ⟨fun _ => ?_, h.bounded⟩
    change world.pending = (world.binds.erase (world.tasks task).bind).total queueLength
    rw [h.pending haccepting]
    rcases hget : world.binds.get? (world.tasks task).bind with _ | lane
    · rw [SortedMap.erase_of_absent hget]
    · rw [SortedMap.total_erase queueLength hget]
      unfold queueLength
      rw [hempty lane hget]
      exact Nat.zero_add _

theorem executing_setPhase {task other : Nat} {phase : RunnerPhase}
    (hphase : phase.executing = true → world.executing task = true)
    (hexecuting : (world.setPhase task phase).executing other = true) :
    world.executing other = true := by
  unfold executing at hexecuting hphase ⊢
  rw [phase_setPhase] at hexecuting
  split at hexecuting
  next heq =>
    rw [heq]
    exact hphase hexecuting
  next => exact hexecuting

theorem Drains.frame (h : world.Drains) (hclosed : world.accepting = false → next.accepting = false)
    (hless : world.accepting = false → ∀ task, next.executing task = true →
      world.executing task = true)
    (hcalls : next.calls = world.calls) (hdrained : next.drained = world.drained)
    (howing : ∀ task ∈ next.owing, (next.tasks task).phase.holds = true) : next.Drains where
  waits thread handles hcall := by
    rw [hcalls] at hcall
    obtain ⟨haccepting, hwaits⟩ := h.waits thread handles hcall
    exact ⟨hclosed haccepting, fun task htask => hwaits task (hless haccepting task htask)⟩
  drained hdone := by
    obtain ⟨haccepting, hnone⟩ := h.drained (hdrained ▸ hdone)
    exact ⟨hclosed haccepting, fun task => Bool.eq_false_iff.mpr fun htask =>
      Bool.false_ne_true ((hnone task).symm.trans (hless haccepting task htask))⟩
  owing := howing

variable {accepting cancelled : Bool} {phase after : RunnerPhase}

theorem Shift.executing (h : Shift accepting cancelled phase after) :
    after.executing = true → phase.executing = true := by
  cases h <;> first | exact fun _ => rfl | exact id

theorem Shift.holds (h : Shift accepting cancelled phase after) :
    phase.holds = true → after.holds = true := by
  cases h <;> first | exact fun _ => rfl | exact id

theorem Drains.opened (h : world.Drains) (haccepting : world.accepting = true)
    (hcalls : next.calls = world.calls) (hdrained : next.drained = world.drained)
    (howing : ∀ task ∈ next.owing, (next.tasks task).phase.holds = true) : next.Drains :=
  h.frame (fun hclosed => absurd (haccepting.symm.trans hclosed) Bool.noConfusion)
    (fun hclosed => absurd (haccepting.symm.trans hclosed) Bool.noConfusion) hcalls hdrained howing

theorem Drains.owing_setPhase (h : world.Drains) {task : Nat} {phase : RunnerPhase}
    (hfree : (world.tasks task).phase.holds = false) :
    ∀ other ∈ world.owing, ((world.setPhase task phase).tasks other).phase.holds = true := by
  intro other hother
  have hholds := h.owing other hother
  rw [phase_setPhase]
  split
  next heq =>
    rw [heq] at hholds
    exact absurd (hfree.symm.trans hholds) Bool.false_ne_true
  next => exact hholds

theorem Drains.move (hregistered : world.Registered) (h : world.Drains) (hmove : Move world next) :
    next.Drains := by
  cases hmove with
  | invoked | queued => exact ⟨h.waits, h.drained, h.owing⟩
  | closed => exact h.frame (fun _ => rfl) (fun _ _ => id) rfl rfl h.owing
  | @started _ haccepting =>
    refine h.opened haccepting rfl rfl fun other hother => ?_
    have hholds := h.owing other hother
    have hlive : world.live other = true :=
      RunnerPhase.live_of_executing (RunnerPhase.executing_of_holds hholds)
    have hne : other ≠ world.taskCount := by
      rintro rfl
      exact Bool.false_ne_true ((hregistered.fresh _ (Nat.le_refl _)).symm.trans hlive)
    rw [tasks_launched, if_neg hne]
    exact hholds
  | @shifted _ _ hshift =>
    refine h.frame id (fun _ other => executing_setPhase (Shift.executing hshift)) rfl rfl
      fun other hother => ?_
    have hholds := h.owing other hother
    rw [phase_setPhase]
    split
    next heq =>
      rw [heq] at hholds
      exact Shift.holds hshift hholds
    next => exact hholds
  | @stopped task _ hidle =>
    have hfree : (world.tasks task).phase.holds = false := Bool.eq_false_iff.mpr fun hholds =>
      Bool.false_ne_true (hidle.symm.trans (RunnerPhase.executing_of_holds hholds))
    exact h.frame (fun _ => rfl)
      (fun _ other => @executing_setPhase world task other .returned nofun) rfl rfl
      (h.owing_setPhase hfree)
  | @popped _ _ _ _ hphase haccepting | @retired _ hphase haccepting =>
    exact h.opened haccepting rfl rfl (h.owing_setPhase (by rw [hphase]; rfl))
  | @performed task _ phase _ _ hphase haccepting _ houtcome =>
    have hkept := @Drains.owing_setPhase world h task phase (by rw [hphase]; rfl)
    refine h.opened haccepting rfl rfl fun other hother => ?_
    cases houtcome with
    | done | unwound => exact hkept other hother
    | pressed bind press =>
      rcases List.mem_cons.mp hother with rfl | hother
      · change ((world.setPhase other (.waiting bind press)).tasks other).phase.holds = true
        rw [phase_setPhase, if_pos rfl]
        rfl
      · exact hkept other hother
  | @released task phase _ _ hphase =>
    refine h.frame id (fun _ other => executing_setPhase fun hexecuting => ?_) rfl rfl
      fun other hother => ?_
    · rcases hphase with rfl | rfl <;> cases hexecuting
    · obtain ⟨hother, hne⟩ := List.mem_filter.mp hother
      change ((world.setPhase task phase).tasks other).phase.holds = true
      rw [phase_setPhase, if_neg (of_decide_eq_true hne)]
      exact h.owing other hother
  | cancelled =>
    refine h.frame id (fun _ other hother => ?_) rfl rfl fun other hother => ?_
    · unfold executing at hother ⊢
      rw [phase_cancelTask] at hother
      exact hother
    · rw [phase_cancelTask]
      exact h.owing other hother
  | @requested thread worker hhandles =>
    refine ⟨fun other handles hcall => ⟨rfl, ?_⟩, fun hdone => ⟨rfl, (h.drained hdone).2⟩, h.owing⟩
    change (Function.update world.calls thread _ other).handles = some handles at hcall
    rw [Function.update_apply] at hcall
    split at hcall
    next =>
      cases worker with
      | true => cases hcall
      | false =>
        cases hcall
        exact hhandles rfl
    next => exact (h.waits other handles hcall).2
  | @advanced thread call hhandles =>
    refine ⟨fun other handles hcall => ?_, h.drained, h.owing⟩
    change (Function.update world.calls thread call other).handles = some handles at hcall
    rw [Function.update_apply] at hcall
    split at hcall
    next =>
      obtain ⟨before, hbefore, hless⟩ := hhandles handles hcall
      obtain ⟨hclosed, hwaits⟩ := h.waits thread before hbefore
      exact ⟨hclosed, fun task hexecuting => hless task (hwaits task hexecuting) hexecuting⟩
    next => exact h.waits other handles hcall
  | @ended thread worker owing _ hcall howing =>
    refine ⟨fun other handles hother => ?_, fun hdone => ?_, fun task htask =>
      h.owing task (howing task htask)⟩
    · change (Function.update world.calls thread .idle other).handles = some handles at hother
      rw [Function.update_apply] at hother
      split at hother
      next => cases hother
      next => exact h.waits other handles hother
    · cases worker with
      | true => exact h.drained (by simpa using hdone)
      | false =>
        obtain ⟨hclosed, hwaits⟩ := h.waits thread [] (by rw [hcall]; rfl)
        exact ⟨hclosed, fun task => Bool.eq_false_iff.mpr fun hexecuting =>
          nomatch hwaits task hexecuting⟩

theorem ofBind_concat (bind : GameBindId) (commands : List GameBindCommand)
    (command : GameBindCommand) : ofBind bind (commands ++ [command]) =
      ofBind bind commands ++ if command.bind = bind then [command] else [] := by
  unfold ofBind
  rw [List.filter_append]
  by_cases hbind : command.bind = bind <;> simp [hbind]

variable {task : Nat}

theorem outstanding_of_live (h : world.Registered) (haccepting : world.accepting = true)
    (hlive : world.live task = true) : ∃ queue,
      world.binds.get? (world.tasks task).bind = some ⟨queue, some task⟩ ∧
        world.outstanding (world.tasks task).bind = (world.tasks task).phase.inHand ++ queue := by
  obtain ⟨queue, hget⟩ := h.lives haccepting task hlive
  refine ⟨queue, hget, ?_⟩
  unfold outstanding
  rw [hget]
  rfl

variable {bind : GameBindId}

theorem outstanding_congr (h : world.Registered)
    (hlane : next.binds.get? bind = world.binds.get? bind)
    (hhand : ∀ task, world.live task = true → (world.tasks task).bind = bind →
      (next.tasks task).phase.inHand = (world.tasks task).phase.inHand) :
    next.outstanding bind = world.outstanding bind := by
  unfold outstanding
  rw [hlane]
  rcases hget : world.binds.get? bind with _ | ⟨_, _⟩
  · rfl
  · obtain ⟨task, hrunner, hlive, hbind⟩ := h.lanes bind _ hget
    dsimp only at hrunner ⊢
    rw [hrunner, Option.map_some, Option.map_some, hhand task hlive hbind]

theorem Registered.live_of_stuck (hstuck : world.Stuck bind) :
    ∃ task, world.live task = true ∧ (world.tasks task).bind = bind ∧
      (world.tasks task).phase = .looping ∧ (world.tasks task).cancelled = true := by
  obtain ⟨task, hbind, hphase, hcancelled⟩ := hstuck
  exact ⟨task, by unfold live; rw [hphase]; rfl, hbind, hphase, hcancelled⟩

theorem Ordered.balanced (h : world.Ordered) (hregistered : world.Registered)
    (haccepting : world.accepting = true) (hlive : world.live task = true)
    (hgoes : (world.tasks task).phase ≠ .looping ∨ (world.tasks task).cancelled = false) :
    ofBind (world.tasks task).bind world.accepted =
      ofBind (world.tasks task).bind world.performed ++
        world.outstanding (world.tasks task).bind := by
  refine (h.accounts haccepting _).resolve_left fun hstuck => ?_
  obtain ⟨other, hother, hbind, hphase, hcancelled⟩ := Registered.live_of_stuck hstuck
  cases hregistered.unique other task hother hlive hbind
  rcases hgoes with hne | hfalse
  · exact hne hphase
  · exact Bool.false_ne_true (hfalse.symm.trans hcancelled)

theorem inHand_setPhase (h : world.Ordered) {task : Nat} {phase : RunnerPhase}
    (hphase : ∀ command ∈ phase.inHand, command.bind = (world.tasks task).bind) (other : Nat) :
    ∀ command ∈ ((world.setPhase task phase).tasks other).phase.inHand,
      command.bind = ((world.setPhase task phase).tasks other).bind := by
  rw [bind_setPhase, phase_setPhase]
  split
  next heq =>
    rw [heq]
    exact hphase
  next => exact h.inHand other

theorem stuck_setPhase
    (hgoes : (world.tasks task).phase ≠ .looping ∨ (world.tasks task).cancelled = false)
    (hstuck : world.Stuck bind) : (world.setPhase task phase).Stuck bind := by
  obtain ⟨other, hbind, hphase, hcancelled⟩ := hstuck
  have hne : other ≠ task := by
    rintro rfl
    rcases hgoes with hne | hfalse
    · exact hne hphase
    · exact Bool.false_ne_true (hfalse.symm.trans hcancelled)
  refine ⟨other, (bind_setPhase task other phase).trans hbind, ?_,
    (cancelled_setPhase task other phase).trans hcancelled⟩
  rw [phase_setPhase, if_neg hne]
  exact hphase

theorem Ordered.rephased (hregistered : world.Registered) (h : world.Ordered) {task : Nat}
    {phase : RunnerPhase} (hbefore : (world.tasks task).phase ≠ .looping)
    (hafter : ∀ command ∈ phase.inHand, command.bind = (world.tasks task).bind)
    (hhand : world.accepting = true → phase.inHand = (world.tasks task).phase.inHand ∨
      phase = .looping ∧ (world.tasks task).cancelled = true) :
    (world.setPhase task phase).Ordered := by
  refine ⟨h.queued, inHand_setPhase h hafter, fun haccepting bind => ?_, h.done⟩
  rcases h.accounts haccepting bind with hstuck | hbalanced
  · exact Or.inl (stuck_setPhase (Or.inl hbefore) hstuck)
  · have hothers : ∀ other, other ≠ task → ((world.setPhase task phase).tasks other).phase.inHand =
        (world.tasks other).phase.inHand := by
      intro other hne
      rw [phase_setPhase, if_neg hne]
    rcases hhand haccepting with hsame | ⟨rfl, hcancelled⟩
    · have houtstanding : (world.setPhase task phase).outstanding bind = world.outstanding bind := by
        refine outstanding_congr hregistered rfl fun other _ _ => ?_
        by_cases heq : other = task
        · rw [phase_setPhase, if_pos heq, hsame, heq]
        · exact hothers other heq
      exact Or.inr (hbalanced.trans (congrArg _ houtstanding.symm))
    · by_cases hbind : (world.tasks task).bind = bind
      · refine Or.inl ⟨task, (bind_setPhase task task .looping).trans hbind, ?_,
          (cancelled_setPhase task task .looping).trans hcancelled⟩
        rw [phase_setPhase, if_pos rfl]
      · have houtstanding :
            (world.setPhase task .looping).outstanding bind = world.outstanding bind :=
          outstanding_congr hregistered rfl fun other _ hother =>
            hothers other fun heq => hbind (heq ▸ hother)
        exact Or.inr (hbalanced.trans (congrArg _ houtstanding.symm))

theorem Ordered.frame (h : world.Ordered) (hbinds : next.binds = world.binds)
    (htasks : next.tasks = world.tasks) (haccepting : next.accepting = world.accepting)
    (haccepted : next.accepted = world.accepted) (hperformed : next.performed = world.performed) :
    next.Ordered := by
  have houtstanding : next.outstanding = world.outstanding := by
    funext bind
    unfold outstanding
    rw [hbinds, htasks]
  have hstuck : next.Stuck = world.Stuck := by
    funext bind
    unfold Stuck
    rw [htasks]
  exact ⟨hbinds ▸ h.queued, htasks ▸ h.inHand, by
    rw [haccepting, haccepted, hperformed, houtstanding, hstuck]
    exact h.accounts, by
    rw [haccepted, hperformed]
    exact h.done⟩

theorem Ordered.emptied (h : world.Ordered) (hbinds : next.binds = .empty)
    (haccepting : next.accepting = false)
    (hhand : ∀ task, ∀ command ∈ (next.tasks task).phase.inHand,
      command.bind = (next.tasks task).bind)
    (haccepted : next.accepted = world.accepted) (hperformed : next.performed = world.performed) :
    next.Ordered where
  queued bind lane hget := by
    rw [hbinds] at hget
    cases hget
  inHand := hhand
  accounts hopen := absurd (haccepting.symm.trans hopen) Bool.false_ne_true
  done bind := by
    rw [haccepted, hperformed]
    exact h.done bind

theorem done_concat {performed accepted : List GameBindCommand} (bind : GameBindId)
    (command : GameBindCommand) (h : ofBind bind performed <+: ofBind bind accepted) :
    ofBind bind performed <+: ofBind bind (accepted ++ [command]) := by
  rw [ofBind_concat]
  exact h.trans (List.prefix_append _ _)

theorem Shift.not_looping (h : Shift accepting cancelled phase after) : phase ≠ .looping := by
  cases h <;> nofun

theorem Shift.inHand (h : Shift accepting cancelled phase after) :
    (∀ command ∈ after.inHand, command ∈ phase.inHand) ∧
      (accepting = true → after.inHand = phase.inHand ∨ after = .looping ∧ cancelled = true) := by
  cases h with
  | begun | entered => exact ⟨fun _ => id, fun _ => Or.inl rfl⟩
  | left hclosed =>
    exact ⟨nofun, fun haccepting => absurd (haccepting.symm.trans hclosed) Bool.noConfusion⟩
  | dropped _ hcancelled => exact ⟨nofun, fun _ => Or.inr ⟨rfl, hcancelled⟩⟩
  | barred _ hbarred =>
    refine ⟨nofun, fun haccepting => Or.inr ⟨rfl, hbarred.resolve_left fun hclosed => ?_⟩⟩
    exact absurd (haccepting.symm.trans hclosed) Bool.noConfusion
  | woken | settled => exact ⟨nofun, fun _ => Or.inl rfl⟩

variable {command : GameBindCommand}

theorem Ordered.queue (h : world.Ordered) {lane : BindCommandLane}
    (haccepting : world.accepting = true) (hget : world.binds.get? command.bind = some lane) :
    (world.joined command lane).Ordered := by
  refine ⟨fun bind found hfound => ?_, h.inHand, fun _ bind => ?_, fun bind =>
    done_concat bind command (h.done bind)⟩
  · change (world.binds.put command.bind _).get? bind = some found at hfound
    rw [SortedMap.get?_put] at hfound
    split at hfound
    next heq =>
      cases hfound
      intro other hother
      rcases List.mem_append.mp hother with hother | hother
      · exact h.queued bind lane (heq ▸ hget) other hother
      · rw [List.mem_singleton.mp hother, heq]
    next => exact h.queued bind found hfound
  · refine (h.accounts haccepting bind).imp_right fun hbalanced => ?_
    refine (ofBind_concat bind world.accepted command).trans ?_
    rw [hbalanced, List.append_assoc]
    refine congrArg _ ?_
    unfold outstanding
    change _ = match (world.binds.put command.bind _).get? bind with
      | none => []
      | some lane => _
    rw [SortedMap.get?_put]
    by_cases hbind : command.bind = bind
    · rw [if_pos hbind, if_pos hbind.symm, ← hbind, hget]
      exact List.append_assoc ..
    · rw [if_neg hbind, if_neg (Ne.symm hbind), List.append_nil]
      rfl

theorem Ordered.start (hregistered : world.Registered) (h : world.Ordered)
    (haccepting : world.accepting = true) (hget : world.binds.get? command.bind = none) :
    (world.launched command).Ordered := by
  have hold : ∀ task, world.live task = true → task ≠ world.taskCount := by
    rintro task hlive rfl
    exact Bool.false_ne_true ((hregistered.fresh _ (Nat.le_refl _)).symm.trans hlive)
  refine ⟨fun bind found hfound => ?_, fun task => ?_, fun _ bind => ?_, fun bind =>
    done_concat bind command (h.done bind)⟩
  · rw [binds_launched] at hfound
    split at hfound
    next heq =>
      cases hfound
      intro other hother
      rw [List.mem_singleton.mp hother, heq]
    next => exact h.queued bind found hfound
  · rw [tasks_launched]
    split
    next => exact nofun
    next => exact h.inHand task
  · by_cases hbind : command.bind = bind
    · have hnone : world.outstanding bind = [] := by
        unfold outstanding
        rw [← hbind, hget]
      have hbalanced := (h.accounts haccepting bind).resolve_left fun hstuck => by
        obtain ⟨task, hlive, htaskBind, _⟩ := Registered.live_of_stuck hstuck
        obtain ⟨_, hlane⟩ := hregistered.lives haccepting task hlive
        rw [htaskBind, ← hbind, hget] at hlane
        cases hlane
      have hone : (world.launched command).outstanding bind = [command] := by
        unfold outstanding
        rw [binds_launched, if_pos hbind.symm]
        dsimp only
        rw [Option.map_some, tasks_launched, if_pos rfl]
        rfl
      rw [hnone, List.append_nil] at hbalanced
      refine Or.inr ((ofBind_concat bind world.accepted command).trans ?_)
      rw [hbalanced, if_pos hbind, hone]
      rfl
    · have houtstanding : (world.launched command).outstanding bind = world.outstanding bind := by
        refine outstanding_congr hregistered ?_ fun task hlive _ => ?_
        · rw [binds_launched, if_neg (Ne.symm hbind)]
        · rw [tasks_launched, if_neg (hold task hlive)]
      rcases h.accounts haccepting bind with ⟨task, htaskBind, hphase, hcancelled⟩ | hbalanced
      · have hlive : world.live task = true := by unfold live; rw [hphase]; rfl
        have hsame : (world.launched command).tasks task = world.tasks task := by
          rw [tasks_launched, if_neg (hold task hlive)]
        exact Or.inl ⟨task, hsame ▸ htaskBind, hsame ▸ hphase, hsame ▸ hcancelled⟩
      · refine Or.inr ((ofBind_concat bind world.accepted command).trans ?_)
        rw [houtstanding, if_neg hbind, List.append_nil]
        exact hbalanced

theorem Ordered.pop (hregistered : world.Registered) (h : world.Ordered)
    {queue : List GameBindCommand} {runner : Option Nat}
    (hphase : (world.tasks task).phase = .looping) (haccepting : world.accepting = true)
    (hcancelled : (world.tasks task).cancelled = false)
    (hget : world.binds.get? (world.tasks task).bind = some ⟨command :: queue, runner⟩) :
    (world.took task command queue runner).Ordered := by
  have hlive : world.live task = true := by unfold live; rw [hphase]; rfl
  obtain ⟨_, hlane, houtstanding⟩ := outstanding_of_live hregistered haccepting hlive
  cases hget.symm.trans hlane
  rw [hphase] at houtstanding
  have hcommand := h.queued _ _ hget command List.mem_cons_self
  refine ⟨fun bind found hfound => ?_, inHand_setPhase h (fun other hother => ?_),
    fun _ bind => ?_, h.done⟩
  · change (world.binds.put (world.tasks task).bind _).get? bind = some found at hfound
    rw [SortedMap.get?_put] at hfound
    split at hfound
    next heq =>
      cases hfound
      intro other hother
      rw [heq]
      exact h.queued _ _ hget other (List.mem_cons_of_mem _ hother)
    next => exact h.queued bind found hfound
  · rw [List.mem_singleton.mp hother]
    exact hcommand
  · by_cases hbind : (world.tasks task).bind = bind
    · have hbalanced := h.balanced hregistered haccepting hlive (Or.inr hcancelled)
      have hafter : (world.took task command queue (some task)).outstanding bind =
          command :: queue := by
        unfold outstanding
        change (match (world.binds.put (world.tasks task).bind _).get? bind with
          | none => []
          | some lane => (lane.runner.map fun other => ((world.setPhase task
            (.popped command)).tasks other).phase.inHand).getD [] ++ lane.queue) = _
        rw [SortedMap.get?_put, if_pos hbind.symm]
        dsimp only
        rw [Option.map_some, phase_setPhase, if_pos rfl]
        rfl
      rw [hafter, ← hbind]
      exact Or.inr (hbalanced.trans (congrArg _ houtstanding))
    · rcases h.accounts haccepting bind with hstuck | hbalanced
      · exact Or.inl (stuck_setPhase (Or.inr hcancelled) hstuck)
      · have hsame : (world.took task command queue (some task)).outstanding bind =
            world.outstanding bind := by
          refine outstanding_congr hregistered
            ((SortedMap.get?_put ..).trans (if_neg (Ne.symm hbind))) fun other _ hother => ?_
          have hne : other ≠ task := fun heq => hbind (heq ▸ hother)
          change ((world.setPhase task (.popped command)).tasks other).phase.inHand = _
          rw [phase_setPhase, if_neg hne]
        exact Or.inr (hbalanced.trans (congrArg _ hsame.symm))

theorem Ordered.leave (hregistered : world.Registered) (h : world.Ordered)
    (hphase : (world.tasks task).phase = .looping) (haccepting : world.accepting = true)
    (hcancelled : (world.tasks task).cancelled = false)
    (hempty : ∀ lane, world.binds.get? (world.tasks task).bind = some lane → lane.queue = []) :
    (world.left task).Ordered := by
  have hlive : world.live task = true := by unfold live; rw [hphase]; rfl
  obtain ⟨queue, hlane, houtstanding⟩ := outstanding_of_live hregistered haccepting hlive
  have hbinds (bind : GameBindId) : (world.left task).binds.get? bind =
      if bind = (world.tasks task).bind then none else world.binds.get? bind :=
    SortedMap.get?_erase ..
  refine ⟨fun bind found hfound => ?_, inHand_setPhase h nofun, fun _ bind => ?_, h.done⟩
  · rw [hbinds] at hfound
    split at hfound
    next => cases hfound
    next => exact h.queued bind found hfound
  · by_cases hbind : (world.tasks task).bind = bind
    · have hbalanced := h.balanced hregistered haccepting hlive (Or.inr hcancelled)
      have hnil : queue = [] := hempty _ hlane
      rw [houtstanding, hphase, hnil, hbind] at hbalanced
      refine Or.inr (hbalanced.trans (congrArg _ ?_))
      unfold outstanding
      rw [hbinds, if_pos hbind.symm]
      rfl
    · rcases h.accounts haccepting bind with hstuck | hbalanced
      · exact Or.inl (stuck_setPhase (Or.inr hcancelled) hstuck)
      · have hsame : (world.left task).outstanding bind = world.outstanding bind := by
          refine outstanding_congr hregistered
            ((hbinds bind).trans (if_neg (Ne.symm hbind))) fun other _ hother => ?_
          have hne : other ≠ task := fun heq => hbind (heq ▸ hother)
          change ((world.setPhase task .returned).tasks other).phase.inHand = _
          rw [phase_setPhase, if_neg hne]
        exact Or.inr (hbalanced.trans (congrArg _ hsame.symm))

theorem Outcome.inHand {owing after : List Nat} (h : Outcome task owing phase after) :
    phase.inHand = [] := by
  cases h <;> rfl

theorem Ordered.perform (hregistered : world.Registered) (h : world.Ordered) {owing : List Nat}
    (invoker : Option GameWorld) (hphase : (world.tasks task).phase = .operating command)
    (haccepting : world.accepting = true) (hhand : phase.inHand = []) :
    Ordered { world.setPhase task phase with
      performed := world.performed ++ [command]
      invoker
      owing } := by
  have hlive : world.live task = true := by unfold live; rw [hphase]; rfl
  have hgoes : (world.tasks task).phase ≠ .looping := by rw [hphase]; nofun
  obtain ⟨queue, hlane, houtstanding⟩ := outstanding_of_live hregistered haccepting hlive
  have hbalanced := h.balanced hregistered haccepting hlive (Or.inl hgoes)
  have hcommand : command.bind = (world.tasks task).bind :=
    h.inHand task command (by rw [hphase]; exact List.mem_singleton_self command)
  rw [houtstanding, hphase] at hbalanced
  have hperformed : ofBind (world.tasks task).bind (world.performed ++ [command]) =
      ofBind (world.tasks task).bind world.performed ++ [command] := by
    rw [ofBind_concat, if_pos hcommand]
  have hothers : ∀ bind, (world.tasks task).bind ≠ bind →
      ofBind bind (world.performed ++ [command]) = ofBind bind world.performed := by
    intro bind hbind
    rw [ofBind_concat, if_neg fun hsame => hbind (hcommand.symm.trans hsame), List.append_nil]
  refine ⟨h.queued, inHand_setPhase h fun other hother => ?_, fun _ bind => ?_, fun bind => ?_⟩
  · rw [hhand] at hother
    cases hother
  · by_cases hbind : (world.tasks task).bind = bind
    · have hafter : (world.setPhase task phase).outstanding bind = queue := by
        unfold outstanding
        change (match world.binds.get? bind with
          | none => []
          | some lane => (lane.runner.map fun other =>
            ((world.setPhase task phase).tasks other).phase.inHand).getD [] ++ lane.queue) = _
        rw [← hbind, hlane]
        dsimp only
        rw [Option.map_some, phase_setPhase, if_pos rfl, hhand]
        rfl
      refine Or.inr (hbind ▸ hbalanced.trans ?_)
      change _ = ofBind _ (world.performed ++ [command]) ++
        (world.setPhase task phase).outstanding (world.tasks task).bind
      rw [hperformed, hbind, hafter, List.append_assoc]
      rfl
    · rcases h.accounts haccepting bind with hstuck | hbalanced
      · exact Or.inl (stuck_setPhase (Or.inl hgoes) hstuck)
      · have hsame : (world.setPhase task phase).outstanding bind = world.outstanding bind := by
          refine outstanding_congr hregistered rfl fun other _ hother => ?_
          have hne : other ≠ task := fun heq => hbind (heq ▸ hother)
          rw [phase_setPhase, if_neg hne]
        refine Or.inr (hbalanced.trans ?_)
        exact (congrArg₂ _ (hothers bind hbind) hsame).symm
  · by_cases hbind : (world.tasks task).bind = bind
    · refine hbind ▸ ⟨queue, ?_⟩
      change ofBind _ (world.performed ++ [command]) ++ queue = _
      rw [hperformed, List.append_assoc]
      exact hbalanced.symm
    · exact (hothers bind hbind).symm ▸ h.done bind

theorem Ordered.move (hregistered : world.Registered) (h : world.Ordered)
    (hmove : Move world next) : next.Ordered := by
  cases hmove with
  | invoked | advanced | ended =>
    exact h.frame rfl rfl rfl rfl rfl
  | closed | requested => exact h.emptied rfl rfl h.inHand rfl rfl
  | queued haccepting _ hget => exact h.queue haccepting hget
  | started haccepting _ hget => exact h.start hregistered haccepting hget
  | @shifted task _ hshift =>
    obtain ⟨hless, hhand⟩ := Shift.inHand hshift
    exact h.rephased hregistered (Shift.not_looping hshift)
      (fun command hcommand => h.inHand task command (hless command hcommand)) hhand
  | @stopped =>
    exact h.emptied rfl rfl (inHand_setPhase h nofun) rfl rfl
  | popped hphase haccepting hcancelled hget =>
    exact h.pop hregistered hphase haccepting hcancelled hget
  | retired hphase haccepting hcancelled hempty =>
    exact h.leave hregistered hphase haccepting hcancelled hempty
  | performed invoker hphase haccepting _ houtcome =>
    exact h.perform hregistered invoker hphase haccepting (Outcome.inHand houtcome)
  | @released task phase _ hholds hphase =>
    have hrephased : (world.setPhase task phase).Ordered := by
      refine h.rephased hregistered ?_ ?_ fun _ => Or.inl ?_
      · intro hlooping
        rw [hlooping] at hholds
        cases hholds
      · rcases hphase with rfl | rfl <;> exact nofun
      · rw [RunnerPhase.inHand_of_holds hholds]
        rcases hphase with rfl | rfl <;> rfl
    exact hrephased.frame rfl rfl rfl rfl rfl
  | cancelled task =>
    refine ⟨h.queued, fun other => ?_, fun haccepting bind => ?_, h.done⟩
    · rw [phase_cancelTask, bind_cancelTask]
      exact h.inHand other
    · refine (h.accounts haccepting bind).imp (fun hstuck => ?_) fun hbalanced => ?_
      · obtain ⟨other, hbind, hphase, hcancelled⟩ := hstuck
        exact ⟨other, (bind_cancelTask task other).trans hbind,
          (phase_cancelTask task other).trans hphase, cancelled_cancelTask hcancelled⟩
      · have hsame : (world.cancelTask task).outstanding bind = world.outstanding bind :=
          outstanding_congr hregistered rfl fun other _ _ => by rw [phase_cancelTask]
        exact hbalanced.trans (congrArg _ hsame.symm)

end Runners

structure Sound (world : GameBindLanes) : Prop where
  registered : world.Registered
  ordered : world.Ordered
  counted : world.Counted
  drains : world.Drains

theorem Sound.move {world next : GameBindLanes} (h : world.Sound) (hmove : Move world next) :
    next.Sound :=
  ⟨h.registered.move hmove, h.ordered.move h.registered hmove, h.counted.move hmove,
    h.drains.move h.registered hmove⟩

theorem Sound.moves {world next : GameBindLanes} (h : world.Sound) (hmoves : Moves world next) :
    next.Sound := by
  induction hmoves with
  | refl => exact h
  | tail _ hmove ih => exact ih.move hmove

theorem sound_new (scheduler : Bool) (invoker : Option GameWorld) :
    (new scheduler invoker).Sound where
  registered := ⟨fun _ _ => rfl, nofun, nofun, nofun, nofun⟩
  ordered := ⟨nofun, fun _ => nofun, fun _ _ => Or.inr rfl, fun _ => List.prefix_rfl⟩
  counted := ⟨fun _ => rfl, Nat.zero_le _⟩
  drains := ⟨nofun, nofun, nofun⟩

end GameBindLanes

end Nexus.GameBinds
