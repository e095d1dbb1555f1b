import Nexus.GameBindInvariants

namespace Nexus.GameBinds

open Relation Scheduler StepRuns

namespace GameBindLanes

variable {platform : GamePlatform} {world next : GameBindLanes}

/-- A worker takes up no cancelled runner while the lanes accept, and a shutdown that waits finds the
handle of every runner with a command in its lane. -/
def Permits (world : GameBindLanes) : GameBindAction → Prop
  | .runner task _ => (world.tasks task).phase = .submitted → (world.tasks task).cancelled = true →
      world.accepting = false
  | .requestShutdown _ worker => worker = false → ∀ task < world.taskCount,
      world.executing task = true → task ∈ world.runners
  | _ => True

theorem live_of_finished {task : Nat} (h : world.finished task = true) : world.live task = false := by
  unfold finished at h
  unfold live
  cases hphase : (world.tasks task).phase <;> rw [hphase] at h <;> first | rfl | cases h

theorem retireFinishedRunner_eq (h : world.Registered) (bind : GameBindId) :
    world.retireFinishedRunner bind = world := by
  unfold retireFinishedRunner
  rcases hget : world.binds.get? bind with _ | lane
  · rfl
  · obtain ⟨_, hrunner, hlive, _⟩ := h.lanes bind lane hget
    dsimp only
    rw [hrunner, if_neg]
    exact fun hfinished => Bool.false_ne_true ((live_of_finished hfinished).symm.trans hlive)

theorem enqueue_moves (h : world.Registered) (command : GameBindCommand) (accepts : Bool) :
    Moves world (world.enqueue command accepts).2 := by
  unfold enqueue
  dsimp only
  rw [retireFinishedRunner_eq h]
  split
  · split
    · exact .refl
    next hready =>
      obtain ⟨haccepting, hready⟩ := not_or.mp hready
      obtain ⟨hroom, _⟩ := not_or.mp hready
      have hopen : world.accepting = true := eq_true_of_ne_false haccepting
      have hspace : world.pending < asyncQueueCapacity := Nat.lt_of_not_le hroom
      rcases hget : world.binds.get? command.bind with _ | lane
      · rw [Option.getD_none]
        dsimp only [Option.isSome_none]
        rw [if_neg Bool.false_ne_true]
        split
        · have hlane : (world.binds.put command.bind ⟨[command], none⟩).put command.bind
              ⟨[command], some world.taskCount⟩ =
                world.binds.put command.bind ⟨[command], some world.taskCount⟩ :=
            SortedMap.put_put ..
          have hstarted := Move.started hopen hspace hget
          unfold launched at hstarted
          unfold setLane setTask
          dsimp only [List.nil_append]
          rw [hlane]
          exact .single hstarted
        · exact .single .closed
      · obtain ⟨_, hrunner, _⟩ := h.lanes command.bind lane hget
        have hsome : lane.runner.isSome = true := by rw [hrunner]; rfl
        rw [Option.getD_some, if_pos hsome]
        exact .single (.queued hopen hspace hget)
  · exact .refl

variable {phase after : RunnerPhase}

theorem shift_moves {task : Nat} (hphase : (world.tasks task).phase = phase)
    (hshift : Shift world.accepting (world.tasks task).cancelled phase after) :
    Moves world (world.setPhase task after) :=
  .single (.shifted (hphase ▸ hshift))

theorem nextCommand_moves {task : Nat} (hphase : (world.tasks task).phase = .looping) :
    Moves world (world.nextCommand task) := by
  unfold nextCommand
  dsimp only
  split
  next => exact .single (.stopped (by unfold live; rw [hphase]; rfl)
    (by unfold executing; rw [hphase]; rfl))
  next hgoes =>
    obtain ⟨hcancelled, haccepting⟩ := not_or.mp hgoes
    have hopen : world.accepting = true := eq_true_of_ne_false haccepting
    have huncancelled : (world.tasks task).cancelled = false := Bool.eq_false_iff.mpr hcancelled
    split
    next command queue runner hget => exact .single (.popped hphase hopen huncancelled hget)
    next hempty =>
      refine .single (.retired hphase hopen huncancelled fun lane hget => ?_)
      rcases lane with ⟨_ | ⟨command, queue⟩, runner⟩
      · rfl
      · exact absurd hget (hempty command queue runner)

theorem perform_moves {task : Nat} {command : GameBindCommand}
    (hphase : (world.tasks task).phase = .operating command) (haccepting : world.accepting = true)
    (hcancelled : (world.tasks task).cancelled = false) (unwinds : Bool) :
    Moves world (world.perform platform task command unwinds) := by
  unfold perform
  dsimp only
  split
  next => exact .single (.performed world.invoker hphase haccepting hcancelled .unwound)
  next =>
    cases hinvoker : world.invoker with
    | none => exact .single (.performed none hphase haccepting hcancelled .done)
    | some game =>
      dsimp only
      rcases operate platform command game with ⟨_ | press, game⟩
      · exact .single (.performed (some game) hphase haccepting hcancelled .done)
      · exact .single (.performed (some game) hphase haccepting hcancelled (.pressed command.bind press))

theorem releaseTimed_moves {task : Nat} {bind : GameBindId} {press : GamePressToken}
    (hphase : (world.tasks task).phase = .releasing bind press) (unwinds : Bool) :
    Moves world (world.releaseTimed platform task bind press unwinds) := by
  have hholds : (world.tasks task).phase.holds = true := by rw [hphase]; rfl
  unfold releaseTimed
  dsimp only
  split
  next => exact .single (.released world.invoker hholds (Or.inr rfl))
  next => exact .single (.released _ hholds (Or.inl rfl))

theorem runnerStep_moves {task : Nat} {unwinds : Bool}
    (hpermits : world.Permits (.runner task unwinds))
    (hstep : world.runnerStep platform task unwinds = some next) : Moves world next := by
  unfold runnerStep at hstep
  dsimp only at hstep
  split at hstep
  next hphase =>
    cases hstep
    split
    next hcancelled => exact shift_moves hphase (.left (hpermits hphase hcancelled))
    next => exact shift_moves hphase .begun
  next hphase =>
    cases hstep
    exact nextCommand_moves hphase
  next command hphase =>
    cases hstep
    split
    next hcancelled => exact shift_moves hphase (.dropped command hcancelled)
    next hgoes => exact shift_moves hphase (.entered command (Bool.eq_false_iff.mpr hgoes))
  next command hphase =>
    cases hstep
    split
    next hbarred => exact shift_moves hphase (.barred command hbarred)
    next hgoes =>
      obtain ⟨haccepting, hcancelled⟩ := not_or.mp hgoes
      exact perform_moves hphase (eq_true_of_ne_false haccepting) (Bool.eq_false_iff.mpr hcancelled)
        unwinds
  next bind press hphase =>
    cases hstep
    exact shift_moves hphase (.woken bind press)
  next hphase =>
    cases hstep
    exact releaseTimed_moves hphase unwinds
  next hphase =>
    cases hstep
    exact .single (.stopped (by unfold live; rw [hphase]; rfl) (by unfold executing; rw [hphase]; rfl))
  next hphase =>
    cases hstep
    exact shift_moves hphase (.settled _)
  next => cases hstep

theorem shutdownStep_moves {thread : Nat}
    (hstep : world.shutdownStep platform thread = some next) : Moves world next := by
  unfold shutdownStep at hstep
  split at hstep
  next => cases hstep
  next worker task rest handles hcall =>
    cases hstep
    refine .tail (.single (.cancelled task)) (.advanced fun after hafter => ⟨after, ?_, fun _ h _ => h⟩)
    change (world.calls thread).handles = some after
    rw [hcall]
    cases worker <;> exact hafter
  next worker _ hcall =>
    cases hstep
    refine .single (.advanced fun after hafter => ⟨after, ?_, fun _ h _ => h⟩)
    rw [hcall]
    cases worker <;> exact hafter
  next task rest hcall =>
    split at hstep
    next hfinished =>
      cases hstep
      refine .single (.advanced fun after hafter => ⟨task :: rest, by rw [hcall]; rfl, ?_⟩)
      cases hafter
      intro other hother hexecuting
      rcases List.mem_cons.mp hother with rfl | hother
      · have hlive : world.live other = true := RunnerPhase.live_of_executing hexecuting
        exact absurd ((live_of_finished hfinished).symm.trans hlive) Bool.false_ne_true
      · exact hother
    next => cases hstep
  next hcall =>
    cases hstep
    refine .single (.advanced fun after hafter => ⟨[], by rw [hcall]; rfl, ?_⟩)
    exact nofun
  next worker hcall =>
    cases hstep
    cases hinvoker : world.invoker with
    | none =>
      exact .single (@Move.ended world thread worker world.owing world.invoker hcall fun _ => id)
    | some => exact .single (@Move.ended world thread worker [] _ hcall nofun)

theorem moves_of_step (h : world.Sound) {action : GameBindAction}
    (hpermits : world.Permits action) (hstep : world.step platform action = some next) :
    Moves world next := by
  have hsync : ∀ {α : Type} (operation : GameMethod α), Moves world (world.syncOperation operation) := by
    intro α operation
    unfold syncOperation
    split
    · exact .single (.invoked _)
    · exact .refl
  cases action with
  | pressAsync | releaseAsync | invokeAsync =>
    cases hstep; exact enqueue_moves h.registered _ _
  | press | release => cases hstep; exact hsync _
  | setInvoker invoker => cases hstep; exact .single (.invoked invoker)
  | cancelTask task => cases hstep; exact .single (.cancelled task)
  | runner => exact runnerStep_moves hpermits hstep
  | requestShutdown thread worker =>
    change (if world.calls thread = .idle then some (world.requestShutdown thread worker)
      else none) = some next at hstep
    split at hstep
    · cases hstep
      refine .single (.requested fun hworker task hexecuting => hpermits hworker task ?_ hexecuting)
      refine Nat.lt_of_not_le fun hle => ?_
      have hlive : world.live task = true := RunnerPhase.live_of_executing hexecuting
      exact Bool.false_ne_true ((h.registered.fresh task hle).symm.trans hlive)
    · cases hstep
  | shutdown => exact shutdownStep_moves hstep

/-- How far a runner is from taking its next command, or from closing the lanes once cancelled. -/
def rank : Bool → RunnerPhase → Nat
  | _, .waiting _ _ => 9
  | _, .releasing _ _ => 8
  | _, .submitted => 7
  | false, .looping => 6
  | false, .popped _ => 5
  | false, .operating _ => 4
  | true, .popped _ => 3
  | true, .operating _ => 2
  | true, .looping => 1
  | _, .unwinding => 1
  | _, _ => 0

theorem rank_le (cancelled : Bool) (phase : RunnerPhase) : rank cancelled phase ≤ 9 := by
  cases cancelled <;> cases phase <;> simp [rank]

def Done (bind : GameBindId) (count : Nat) (world : GameBindLanes) : Prop :=
  count ≤ (ofBind bind world.performed).length

/-- They are accepted, and the runner of the bind has not performed them all. -/
structure Busy (task : Nat) (bind : GameBindId) (count : Nat) (world : GameBindLanes) : Prop where
  sound : world.Sound
  accepting : world.accepting = true
  live : world.live task = true
  runs : (world.tasks task).bind = bind
  waits : (ofBind bind world.performed).length < count
  accepted : count ≤ (ofBind bind world.accepted).length

def work (task : Nat) (bind : GameBindId) (count : Nat) (world : GameBindLanes) : Nat :=
  (count - (ofBind bind world.performed).length) * 10 +
    rank (world.tasks task).cancelled (world.tasks task).phase

/-- The work never grows, and falls when the runner changes its phase. -/
structure Advances (task : Nat) (bind : GameBindId) (count : Nat) (world next : GameBindLanes) :
    Prop where
  busy : Busy task bind count next
  less : work task bind count next ≤ work task bind count world
  falls : (next.tasks task).phase ≠ (world.tasks task).phase →
    work task bind count next < work task bind count world

variable {task count : Nat} {bind : GameBindId}

theorem Busy.untouched (h : Busy task bind count world) (hsound : next.Sound)
    (haccepting : next.accepting = true) (htask : next.tasks task = world.tasks task)
    (hperformed : ofBind bind next.performed = ofBind bind world.performed)
    (haccepted : ofBind bind world.accepted <+: ofBind bind next.accepted) :
    Advances task bind count world next where
  busy := ⟨hsound, haccepting, by
    unfold GameBindLanes.live
    rw [htask]
    exact h.live, htask ▸ h.runs, hperformed ▸ h.waits, Nat.le_trans h.accepted haccepted.length_le⟩
  less := by
    unfold work
    rw [hperformed, htask]
  falls hne := absurd (congrArg RunnerTask.phase htask) hne

theorem Busy.stepped (h : Busy task bind count world) (hsound : next.Sound)
    (haccepting : next.accepting = true)
    (htask : next.tasks task = { world.tasks task with phase }) (hlive : phase.live = true)
    (hrank : rank (world.tasks task).cancelled phase <
      rank (world.tasks task).cancelled (world.tasks task).phase)
    (hperformed : next.performed = world.performed) (haccepted : next.accepted = world.accepted) :
    Advances task bind count world next := by
  have hwork : work task bind count next < work task bind count world := by
    unfold work
    rw [hperformed, htask]
    exact Nat.add_lt_add_left hrank _
  refine ⟨⟨hsound, haccepting, ?_, ?_, hperformed ▸ h.waits, haccepted ▸ h.accepted⟩,
    Nat.le_of_lt hwork, fun _ => hwork⟩
  · unfold GameBindLanes.live
    rw [htask]
    exact hlive
  · rw [htask]
    exact h.runs

theorem rank_cancelled (cancelled : Bool) (phase : RunnerPhase) :
    rank true phase ≤ rank cancelled phase := by
  cases cancelled <;> cases phase <;> simp [rank]

theorem rank_shift {accepting cancelled : Bool} (hshift : Shift accepting cancelled phase after)
    (haccepting : accepting = true) (hlive : phase.live = true) :
    rank cancelled after < rank cancelled phase := by
  cases hshift with
  | begun | woken => cases cancelled <;> simp [rank]
  | left hclosed => exact absurd (haccepting.symm.trans hclosed) Bool.noConfusion
  | entered _ hgoes => simp [hgoes, rank]
  | dropped _ hcancelled => simp [hcancelled, rank]
  | barred _ hbarred =>
    have hcancelled := hbarred.resolve_left fun hclosed =>
      absurd (haccepting.symm.trans hclosed) Bool.noConfusion
    simp [hcancelled, rank]
  | settled => cases hlive

theorem rank_holds (cancelled : Bool) (h : phase.holds = true) : 8 ≤ rank cancelled phase := by
  cases phase with
  | waiting | releasing => cases cancelled <;> simp [rank]
  | _ => cases h

theorem Busy.move (h : Busy task bind count world) (hmove : Move world next)
    (haccepting : next.accepting = true) :
    Done bind count next ∨ Advances task bind count world next := by
  have hsound : next.Sound := h.sound.move hmove
  have huntouched : ∀ {other : Nat} {phase : RunnerPhase}, task ≠ other →
      (world.setPhase other phase).tasks task = world.tasks task := by
    intro other phase hne
    rw [tasks_setPhase, if_neg hne]
  have htouched : ∀ phase : RunnerPhase,
      (world.setPhase task phase).tasks task = { world.tasks task with phase } := by
    intro phase
    rw [tasks_setPhase, if_pos rfl]
  cases hmove with
  | invoked | advanced | ended =>
    exact Or.inr (h.untouched hsound haccepting rfl rfl List.prefix_rfl)
  | closed | stopped | requested => cases haccepting
  | @queued command =>
    refine Or.inr (h.untouched hsound haccepting rfl rfl ?_)
    exact done_concat bind command List.prefix_rfl
  | @started command =>
    have hne : task ≠ world.taskCount := by
      rintro rfl
      exact Bool.false_ne_true
        ((h.sound.registered.fresh _ (Nat.le_refl _)).symm.trans h.live)
    refine Or.inr (h.untouched hsound haccepting ?_ rfl ?_)
    · rw [tasks_launched, if_neg hne]
    · exact done_concat bind command List.prefix_rfl
  | @shifted other phase hshift =>
    refine Or.inr ?_
    by_cases hother : task = other
    · subst hother
      exact h.stepped hsound haccepting (htouched phase) (Shift.lives hshift h.accepting h.live)
        (rank_shift hshift h.accepting h.live) rfl rfl
    · exact h.untouched hsound haccepting (huntouched hother) rfl List.prefix_rfl
  | @popped other command _ _ hphase _ hcancelled =>
    refine Or.inr ?_
    by_cases hother : task = other
    · subst hother
      refine h.stepped hsound haccepting (htouched (.popped command)) rfl ?_ rfl rfl
      simp [hphase, hcancelled, rank]
    · exact h.untouched hsound haccepting (huntouched hother) rfl List.prefix_rfl
  | @retired other hphase _ hcancelled hempty =>
    by_cases hother : task = other
    · subst hother
      obtain ⟨queue, hlane, houtstanding⟩ :=
        outstanding_of_live h.sound.registered h.accepting h.live
      have hnil : queue = [] := hempty _ hlane
      have hbalanced := h.sound.ordered.balanced h.sound.registered h.accepting h.live
        (Or.inr hcancelled)
      rw [houtstanding, hphase, hnil, h.runs] at hbalanced
      have hall : ofBind bind world.accepted = ofBind bind world.performed :=
        hbalanced.trans (List.append_nil _)
      exact absurd (Nat.lt_of_lt_of_le h.waits (hall ▸ h.accepted)) (Nat.lt_irrefl _)
    · exact Or.inr (h.untouched hsound haccepting (huntouched hother) rfl List.prefix_rfl)
  | @performed other command phase owing invoker hphase _ hcancelled houtcome =>
    have hcommand : command.bind = (world.tasks other).bind :=
      h.sound.ordered.inHand other command (by rw [hphase]; exact List.mem_singleton_self command)
    have hlive : world.live other = true := by unfold GameBindLanes.live; rw [hphase]; rfl
    by_cases hother : task = other
    · subst hother
      have hone : ofBind bind (world.performed ++ [command]) =
          ofBind bind world.performed ++ [command] := by
        rw [ofBind_concat, if_pos (hcommand.trans h.runs)]
      by_cases hdone : count ≤ (ofBind bind (world.performed ++ [command])).length
      · exact Or.inl hdone
      · have hwaits := Nat.lt_of_not_le hdone
        have hwork : work task bind count { world.setPhase task phase with
            performed := world.performed ++ [command]
            invoker
            owing } < work task bind count world := by
          have hbound := rank_le (world.tasks task).cancelled phase
          rw [hone, List.length_append, List.length_singleton] at hwaits
          unfold work
          change (count - (ofBind bind (world.performed ++ [command])).length) * 10 +
            rank ((world.setPhase task phase).tasks task).cancelled
              ((world.setPhase task phase).tasks task).phase < _
          rw [hone, htouched, List.length_append, List.length_singleton]
          have hrank : rank (world.tasks task).cancelled (world.tasks task).phase = 4 := by
            rw [hphase, hcancelled]
            rfl
          dsimp only
          omega
        refine Or.inr ⟨⟨hsound, haccepting, ?_, (bind_setPhase task task phase).trans h.runs,
          hwaits, h.accepted⟩, Nat.le_of_lt hwork, fun _ => hwork⟩
        unfold GameBindLanes.live
        change ((world.setPhase task phase).tasks task).phase.live = true
        rw [htouched]
        exact Outcome.live houtcome
    · have hbind : command.bind ≠ bind := fun hsame => hother
        (h.sound.registered.unique task other h.live hlive
          (h.runs.trans (hsame.symm.trans hcommand)))
      have hsame : ofBind bind (world.performed ++ [command]) = ofBind bind world.performed := by
        rw [ofBind_concat, if_neg hbind, List.append_nil]
      exact Or.inr (h.untouched hsound haccepting (huntouched hother) hsame List.prefix_rfl)
  | @released other phase _ hholds hphase =>
    refine Or.inr ?_
    by_cases hother : task = other
    · subst hother
      refine h.stepped hsound haccepting (htouched phase) ?_ ?_ rfl rfl
      · rcases hphase with rfl | rfl <;> rfl
      · refine Nat.lt_of_lt_of_le ?_ (rank_holds _ hholds)
        rcases hphase with rfl | rfl <;> cases (world.tasks task).cancelled <;> simp [rank]
    · exact h.untouched hsound haccepting (huntouched hother) rfl List.prefix_rfl
  | cancelled other =>
    refine Or.inr ⟨⟨hsound, haccepting, ?_, (bind_cancelTask other task).trans h.runs, h.waits,
      h.accepted⟩, ?_, fun hne => absurd (phase_cancelTask other task) hne⟩
    · unfold GameBindLanes.live
      rw [phase_cancelTask]
      exact h.live
    · refine Nat.add_le_add_left ?_ _
      rw [tasks_cancelTask]
      split
      next heq => exact heq ▸ rank_cancelled _ _
      next => exact Nat.le_refl _

end GameBindLanes

end Nexus.GameBinds
