import Nexus.AddonCleanupCalls

namespace Nexus.AddonCleanup

namespace CleanupWorld

/-- The progress is what the log says, success ends the attempts of a slot, and phases follow each
other. -/
structure Recorded (world : CleanupWorld) : Prop where
  states : ∀ owner service, world.cleaner.stateOf owner service =
    replay (attempts owner service world.log)
  last : ∀ owner service, SucceedsLast (attempts owner service world.log)
  flags : ∀ owner phase, world.cleaner.phaseCompleted owner phase = true ↔
    ∀ service : CleanupService, service.phase = phase → Succeeded owner service world.log
  phases : ∀ owner service, attempts owner service world.log ≠ [] →
    ∀ prior : CleanupService, phaseIndex prior.phase < phaseIndex service.phase →
      Succeeded owner prior world.log
  ordered : EachEvent Ordered world.log

section Steps

variable {world : CleanupWorld}

theorem Recorded.complete_iff (h : Recorded world) (owner : OwnerToken) (service : CleanupService) :
    (world.cleaner.stateOf owner service).isComplete = true ↔
      Succeeded owner service world.log := by
  rw [h.states]
  exact isComplete_replay (h.last owner service)

theorem recorded_start (slots : CleanupService → ErasedAdapter) : Recorded (start slots) where
  states _ _ := rfl
  last _ _ := trivial
  flags owner phase := by
    constructor
    · intro hflag
      cases hflag
    · intro hall
      obtain ⟨_, hmem, _⟩ := hall (firstService phase) (phase_firstService phase)
      cases hmem
  phases _ _ hne := absurd rfl hne
  ordered := trivial

theorem Recorded.forgetOwner (h : Recorded world) (owner : OwnerToken) :
    Recorded (world.step (.forgetOwner owner)) := by
  have hattempts (other : OwnerToken) (service : CleanupService) :
      attempts other service (.forgot owner :: world.log) =
        if owner = other then [] else attempts other service world.log := rfl
  have hstate (other : OwnerToken) (service : CleanupService) :
      (world.cleaner.forgetOwner owner).stateOf other service =
        if owner = other then .pending else world.cleaner.stateOf other service := by
    unfold RegistrationCleaner.stateOf RegistrationCleaner.forgetOwner
    by_cases hsame : owner = other
    · subst hsame
      simp
    · simp [hsame, Function.update_of_ne (Ne.symm hsame)]
  have hflag (other : OwnerToken) (phase : CleanupPhase) :
      (world.cleaner.forgetOwner owner).phaseCompleted other phase =
        if owner = other then false else world.cleaner.phaseCompleted other phase := by
    unfold RegistrationCleaner.phaseCompleted RegistrationCleaner.forgetOwner
    by_cases hsame : owner = other
    · subst hsame
      simp
    · simp [hsame, Function.update_of_ne (Ne.symm hsame)]
  refine ⟨fun other service => ?_, fun other service => ?_, fun other phase => ?_,
    fun other service hne prior hlt => ?_, ⟨trivial, h.ordered⟩⟩
  · show (world.cleaner.forgetOwner owner).stateOf other service =
      replay (attempts other service (.forgot owner :: world.log))
    rw [hstate, hattempts]
    by_cases hsame : owner = other
    · rw [if_pos hsame, if_pos hsame]
      rfl
    · rw [if_neg hsame, if_neg hsame]
      exact h.states other service
  · show SucceedsLast (attempts other service (.forgot owner :: world.log))
    rw [hattempts]
    by_cases hsame : owner = other
    · rw [if_pos hsame]
      trivial
    · rw [if_neg hsame]
      exact h.last other service
  · show (world.cleaner.forgetOwner owner).phaseCompleted other phase = true ↔
      ∀ service : CleanupService, service.phase = phase →
        Succeeded other service (.forgot owner :: world.log)
    unfold Succeeded
    rw [hflag]
    simp only [hattempts]
    by_cases hsame : owner = other
    · simp only [if_pos hsame]
      constructor
      · intro hflag
        cases hflag
      · intro hall
        obtain ⟨_, hmem, _⟩ := hall (firstService phase) (phase_firstService phase)
        cases hmem
    · simp only [if_neg hsame]
      exact h.flags other phase
  · have hne' : attempts other service (.forgot owner :: world.log) ≠ [] := hne
    rw [hattempts] at hne'
    by_cases hsame : owner = other
    · rw [if_pos hsame] at hne'
      exact absurd rfl hne'
    · rw [if_neg hsame] at hne'
      have hprior := h.phases other service hne' prior hlt
      show Succeeded other prior (.forgot owner :: world.log)
      unfold Succeeded
      rw [hattempts, if_neg hsame]
      exact hprior

def pendingSlots (cleaner : RegistrationCleaner) (owner : OwnerToken) (phase : CleanupPhase) :
    List CleanupService :=
  CleanupService.order.filter fun service => service.phase = phase ∧
    (cleaner.stateOf owner service).isComplete = false ∧ cleaner.slots service = .callback

theorem mem_pendingSlots {cleaner : RegistrationCleaner} {owner : OwnerToken}
    {phase : CleanupPhase} {service : CleanupService} :
    service ∈ pendingSlots cleaner owner phase ↔ service.phase = phase ∧
      (cleaner.stateOf owner service).isComplete = false ∧ cleaner.slots service = .callback := by
  unfold pendingSlots
  rw [List.mem_filter, decide_eq_true_eq]
  exact and_iff_right (CleanupService.mem_order service)

theorem nodup_pendingSlots (cleaner : RegistrationCleaner) (owner : OwnerToken)
    (phase : CleanupPhase) : (pendingSlots cleaner owner phase).Nodup :=
  CleanupService.nodup_order.filter _

section Admitted

variable {owner : OwnerToken} {phase : CleanupPhase} {call : RegistrationCleaner.PhaseCall}
  {answers : CleanupService → Call AdapterResult}
  (h : Recorded world) (hran : RegistrationCleaner.Ran world.cleaner answers owner phase call)

include hran in
theorem attempts_ran (other : OwnerToken) (service : CleanupService) :
    attempts other service (call.invocations ++ world.log) =
      if owner = other ∧ service ∈ pendingSlots world.cleaner owner phase then
        answers service :: attempts other service world.log
      else attempts other service world.log := by
  rw [hran.invocations]
  exact attempts_invocations answers owner (nodup_pendingSlots world.cleaner owner phase) ..

include hran in
theorem succeeded_ran {other : OwnerToken} {service : CleanupService}
    (hkept : ¬(owner = other ∧ service ∈ pendingSlots world.cleaner owner phase)) :
    Succeeded other service (call.invocations ++ world.log) ↔ Succeeded other service world.log := by
  unfold Succeeded
  rw [attempts_ran hran, if_neg hkept]

include h in
theorem not_succeeded_pending {service : CleanupService}
    (hpending : service ∈ pendingSlots world.cleaner owner phase) :
    ¬Succeeded owner service world.log := by
  rw [← h.complete_iff, (mem_pendingSlots.mp hpending).2.1]
  decide

include hran in
theorem stateOf_other {other : OwnerToken} (hne : other ≠ owner) (service : CleanupService) :
    call.cleaner.stateOf other service = world.cleaner.stateOf other service := by
  unfold RegistrationCleaner.stateOf
  rw [hran.others other hne]

include hran in
theorem phaseCompleted_other {other : OwnerToken} (hne : other ≠ owner) (kept : CleanupPhase) :
    call.cleaner.phaseCompleted other kept = world.cleaner.phaseCompleted other kept := by
  unfold RegistrationCleaner.phaseCompleted
  rw [hran.others other hne]

include h hran in
theorem states_ran (other : OwnerToken) (service : CleanupService) :
    call.cleaner.stateOf other service =
      replay (attempts other service (call.invocations ++ world.log)) := by
  rw [attempts_ran hran]
  by_cases hother : owner = other
  · subst hother
    rw [hran.states]
    by_cases hpending : service ∈ pendingSlots world.cleaner owner phase
    · rw [if_pos (mem_pendingSlots.mp hpending), if_pos ⟨rfl, hpending⟩, h.states]
      rfl
    · rw [if_neg fun hslot => hpending (mem_pendingSlots.mpr hslot),
        if_neg fun hslot => hpending hslot.2]
      exact h.states owner service
  · rw [if_neg fun hslot => hother hslot.1, stateOf_other hran (Ne.symm hother)]
    exact h.states other service

include h hran in
theorem last_ran (other : OwnerToken) (service : CleanupService) :
    SucceedsLast (attempts other service (call.invocations ++ world.log)) := by
  rw [attempts_ran hran]
  split
  next hslot =>
    obtain ⟨rfl, hpending⟩ := hslot
    intro answer hmem
    rw [← Bool.not_eq_true]
    exact fun hsuccess => not_succeeded_pending h hpending ⟨answer, hmem, hsuccess⟩
  next => exact h.last other service

variable (hprior : ∀ prior : CleanupPhase, phaseIndex prior < phaseIndex phase →
  world.cleaner.phaseCompleted owner prior = true)

include h hprior in
theorem prior_succeeded {service : CleanupService} (hphase : service.phase = phase)
    {prior : CleanupService} (hlt : phaseIndex prior.phase < phaseIndex service.phase) :
    Succeeded owner prior world.log := by
  rw [hphase] at hlt
  exact (h.flags owner prior.phase).mp (hprior prior.phase hlt) prior rfl

include h hran hprior in
theorem Recorded.ran : Recorded ⟨call.cleaner, call.invocations ++ world.log⟩ := by
  have hcomplete (service : CleanupService) : (call.cleaner.stateOf owner service).isComplete = true ↔
      Succeeded owner service (call.invocations ++ world.log) := by
    rw [states_ran h hran]
    exact isComplete_replay (last_ran h hran owner service)
  refine ⟨states_ran h hran, last_ran h hran, fun other kept => ?_,
    fun other service hne prior hlt => ?_, ?_⟩
  · show call.cleaner.phaseCompleted other kept = true ↔ ∀ service : CleanupService,
      service.phase = kept → Succeeded other service (call.invocations ++ world.log)
    by_cases hother : other = owner
    · subst hother
      by_cases hkept : kept = phase
      · subst hkept
        rw [hran.flag]
        exact forall_congr' fun service => imp_congr_right fun _ => hcomplete service
      · rw [hran.flags kept hkept, h.flags]
        refine forall_congr' fun service => imp_congr_right fun hservice => ?_
        refine (succeeded_ran hran fun hslot => hkept ?_).symm
        exact hservice.symm.trans (mem_pendingSlots.mp hslot.2).1
    · rw [phaseCompleted_other hran hother, h.flags]
      refine forall_congr' fun service => imp_congr_right fun _ => ?_
      exact (succeeded_ran hran fun hslot => hother hslot.1.symm).symm
  · have hbefore : Succeeded other prior world.log := by
      by_cases hslot : owner = other ∧ service ∈ pendingSlots world.cleaner owner phase
      · obtain ⟨rfl, hpending⟩ := hslot
        exact prior_succeeded h hprior (mem_pendingSlots.mp hpending).1 hlt
      · have hne' : attempts other service (call.invocations ++ world.log) ≠ [] := hne
        rw [attempts_ran hran, if_neg hslot] at hne'
        exact h.phases other service hne' prior hlt
    refine (succeeded_ran hran fun hslot => ?_).mpr hbefore
    obtain ⟨rfl, hpending⟩ := hslot
    exact not_succeeded_pending h hpending hbefore
  · show EachEvent Ordered (call.invocations ++ world.log)
    rw [hran.invocations]
    refine ordered_invocations answers owner (nodup_pendingSlots world.cleaner owner phase) h.ordered
      (fun service hmem => not_succeeded_pending h hmem) (fun service hmem prior hlt => ?_)
    exact prior_succeeded h hprior (mem_pendingSlots.mp hmem).1 hlt

end Admitted

theorem Recorded.of_alike (h : Recorded world) {cleaner : RegistrationCleaner}
    (halike : RegistrationCleaner.Alike cleaner world.cleaner) : Recorded ⟨cleaner, world.log⟩ where
  states owner service := (halike.states owner service).trans (h.states owner service)
  last := h.last
  flags owner phase := by
    show cleaner.phaseCompleted owner phase = true ↔ _
    rw [halike.flags]
    exact h.flags owner phase
  phases := h.phases
  ordered := h.ordered

theorem Recorded.called (h : Recorded world) (answers : CleanupService → Call AdapterResult)
    (owner : OwnerToken) (phase : CleanupPhase) :
    (∃ required, world.cleaner.firstIncompletePriorPhase owner phase = some required ∧
      RegistrationCleaner.Blocked world.cleaner owner
        (world.cleaner.cleanupPhase answers owner phase)) ∨
    (world.cleaner.firstIncompletePriorPhase owner phase = none ∧
      RegistrationCleaner.Ran world.cleaner answers owner phase
        (world.cleaner.cleanupPhase answers owner phase)) := by
  rcases hprior : world.cleaner.firstIncompletePriorPhase owner phase with _ | required
  · refine Or.inr ⟨rfl, RegistrationCleaner.ran_cleanupPhase answers hprior ?_⟩
    intro hflag service hphase
    exact (h.complete_iff owner service).mpr ((h.flags owner phase).mp hflag service hphase)
  · exact Or.inl ⟨required, rfl, RegistrationCleaner.blocked_cleanupPhase answers hprior⟩

theorem Recorded.step (h : Recorded world) (op : CleanerOp) : Recorded (world.step op) := by
  cases op with
  | cleanupPhase owner phase answers =>
    rcases h.called answers owner phase with ⟨_, _, hblocked⟩ | ⟨hprior, hran⟩
    · show Recorded ⟨_, (world.cleaner.cleanupPhase answers owner phase).invocations ++ world.log⟩
      rw [hblocked.invocations]
      exact h.of_alike hblocked.alike
    · exact h.ran hran fun prior hlt =>
        RegistrationCleaner.firstIncompletePriorPhase_none hprior hlt
  | install => exact ⟨h.states, h.last, h.flags, h.phases, h.ordered⟩
  | forgetOwner owner => exact h.forgetOwner owner

end Steps

theorem recorded_run (slots : CleanupService → ErasedAdapter) (ops : List CleanerOp) :
    Recorded (run slots ops) := by
  unfold run
  exact List.foldlRecOn ops step (recorded_start slots) fun _ h op _ => h.step op

def removedTotal (owner : OwnerToken) (service : CleanupService) (log : List CleanupEvent) : Nat :=
  tally removedBy (attempts owner service log)

section Reports

variable {cleaner : RegistrationCleaner} {owner : OwnerToken} {phase : CleanupPhase}

theorem removed_stepStatus {service : CleanupService} {removed : Nat}
    (h : (cleaner.stepStatus owner service).removed? = some removed) :
    removed = (cleaner.stateOf owner service).counters.1 := by
  unfold RegistrationCleaner.stepStatus at h
  unfold RegistrationCleaner.stateOf
  cases hprogress : cleaner.progress owner with
  | none =>
    rw [hprogress] at h
    cases hslot : cleaner.slots service with
    | callback | gap =>
      rw [hslot] at h
      cases h
  | some progress =>
    rw [hprogress] at h
    dsimp only [Option.map_some] at h ⊢
    cases hstate : progress.slots service with
    | pending =>
      rw [hstate] at h
      cases hslot : cleaner.slots service with
      | callback | gap =>
        rw [hslot] at h
        cases h
    | complete =>
      rw [hstate] at h
      exact (Option.some.inj h).symm
    | failed =>
      rw [hstate] at h
      cases hslot : cleaner.slots service with
      | callback =>
        rw [hslot] at h
        exact (Option.some.inj h).symm
      | gap =>
        rw [hslot] at h
        cases h

theorem status_buildReport {status : PhaseStatus} {row : StepReport}
    (h : row ∈ (cleaner.buildReport owner phase status).steps) :
    row.status = cleaner.stepStatus owner row.service := by
  obtain ⟨service, _, rfl⟩ := List.mem_map.mp h
  rfl

theorem status_report {row : StepReport} (h : row ∈ (cleaner.report owner phase).steps) :
    row.status = cleaner.stepStatus owner row.service := by
  unfold RegistrationCleaner.report at h
  split at h
  next => exact status_buildReport h
  next =>
    split at h
    next => exact status_buildReport h
    next => exact status_buildReport h

theorem report_finish (invocations : List CleanupEvent) (report : CleanupReport) :
    (cleaner.finish invocations report).report = report := by
  unfold RegistrationCleaner.finish RegistrationCleaner.PhaseCall.report
  dsimp only
  split
  next hresult =>
    split at hresult
    next => exact (Except.ok.inj hresult).symm
    next => cases hresult
  next hresult =>
    split at hresult
    next => cases hresult
    next => rw [← Except.error.inj hresult]

theorem cleanupPhase_reports (cleaner : RegistrationCleaner)
    (answers : CleanupService → Call AdapterResult) (owner : OwnerToken) (phase : CleanupPhase) :
    ∃ left invocations status, cleaner.cleanupPhase answers owner phase =
      RegistrationCleaner.finish left invocations (left.buildReport owner phase status) := by
  unfold RegistrationCleaner.cleanupPhase
  dsimp only
  split
  next => exact ⟨_, _, _, rfl⟩
  next =>
    split
    next => exact ⟨_, _, _, rfl⟩
    next => exact ⟨_, _, _, rfl⟩

theorem status_cleanupPhase {answers : CleanupService → Call AdapterResult} {row : StepReport}
    (h : row ∈ (cleaner.cleanupPhase answers owner phase).report.steps) :
    row.status =
      (cleaner.cleanupPhase answers owner phase).cleaner.stepStatus owner row.service := by
  obtain ⟨_, _, status, hcall⟩ := cleanupPhase_reports cleaner answers owner phase
  rw [hcall, report_finish] at h
  rw [hcall]
  exact status_buildReport h

theorem Recorded.removed_eq {world : CleanupWorld} (h : Recorded world) {service : CleanupService}
    {removed : Nat}
    (hremoved : (world.cleaner.stepStatus owner service).removed? = some removed) :
    removed = min (removedTotal owner service world.log) usizeMax := by
  rw [removed_stepStatus hremoved, h.states, counters_replay]
  rfl

end Reports

def Completes (call : RegistrationCleaner.PhaseCall) : Prop := ∃ report, call.result = .ok report

section Calls

variable {world : CleanupWorld} {owner : OwnerToken} {phase : CleanupPhase}
  (h : Recorded world) (answers : CleanupService → Call AdapterResult)

include h in
theorem completes_iff : Completes (world.cleaner.cleanupPhase answers owner phase) ↔
    ∀ service : CleanupService, service.phase = phase → Succeeded owner service
      ((world.cleaner.cleanupPhase answers owner phase).invocations ++ world.log) := by
  rcases h.called answers owner phase with ⟨_, hrequired, hblocked⟩ | ⟨hprior, hran⟩
  · rw [hblocked.invocations]
    refine ⟨fun ⟨report, hok⟩ => absurd hok (hblocked.result report), fun hall => ?_⟩
    obtain ⟨hlt, hincomplete⟩ := RegistrationCleaner.firstIncompletePriorPhase_some hrequired
    have hstarted : attempts owner (firstService phase) world.log ≠ [] := by
      obtain ⟨_, hmem, _⟩ := hall (firstService phase) (phase_firstService phase)
      exact List.ne_nil_of_mem hmem
    rw [← Bool.not_eq_true, h.flags] at hincomplete
    refine absurd (fun service hservice => ?_) hincomplete
    refine h.phases owner (firstService phase) hstarted service ?_
    rw [hservice, phase_firstService]
    exact hlt
  · refine hran.result.trans ?_
    exact (h.ran hran fun prior hlt => RegistrationCleaner.firstIncompletePriorPhase_none hprior
      hlt).flags owner phase

include h in
theorem pending_attempted
    (hprior : ∀ prior : CleanupService, phaseIndex prior.phase < phaseIndex phase →
      Succeeded owner prior world.log)
    {service : CleanupService} (hphase : service.phase = phase)
    (hpending : ¬Succeeded owner service world.log)
    (hadapter : world.cleaner.slots service = .callback) :
    .invoked owner service (answers service) ∈
      (world.cleaner.cleanupPhase answers owner phase).invocations := by
  rcases h.called answers owner phase with ⟨_, hrequired, _⟩ | ⟨_, hran⟩
  · obtain ⟨hlt, hincomplete⟩ := RegistrationCleaner.firstIncompletePriorPhase_some hrequired
    rw [← Bool.not_eq_true, h.flags] at hincomplete
    exact absurd (fun prior hrequired => hprior prior (by rw [hrequired]; exact hlt)) hincomplete
  · rw [hran.invocations]
    refine List.mem_reverse.mpr (List.mem_map.mpr ⟨service, ?_, rfl⟩)
    refine mem_pendingSlots.mpr ⟨hphase, ?_, hadapter⟩
    rw [← Bool.not_eq_true, h.complete_iff]
    exact hpending

include h in
theorem progress_other {other : OwnerToken} (hne : other ≠ owner) :
    (world.cleaner.cleanupPhase answers owner phase).cleaner.progress other =
      world.cleaner.progress other := by
  rcases h.called answers owner phase with ⟨_, _, hblocked⟩ | ⟨_, hran⟩
  · exact hblocked.others other hne
  · exact hran.others other hne

end Calls

/-- Composite cleanup is ordered, resumable and isolated. -/
theorem cleanup_ordered_and_resumable (slots : CleanupService → ErasedAdapter)
    (ops : List CleanerOp) (owner : OwnerToken) (phase : CleanupPhase)
    (answers : CleanupService → Call AdapterResult) :
    let world := run slots ops
    let call := world.cleaner.cleanupPhase answers owner phase
    (∀ later event earlier, world.log = later ++ event :: earlier → Ordered event earlier) ∧
    (Completes call ↔ ∀ service : CleanupService, service.phase = phase →
      Succeeded owner service (call.invocations ++ world.log)) ∧
    ((∀ prior : CleanupService, phaseIndex prior.phase < phaseIndex phase →
        Succeeded owner prior world.log) →
      ∀ service : CleanupService, service.phase = phase → ¬Succeeded owner service world.log →
        world.cleaner.slots service = .callback →
        .invoked owner service (answers service) ∈ call.invocations) ∧
    (∀ row ∈ call.report.steps, ∀ removed, row.status.removed? = some removed →
      removed = min (removedTotal owner row.service (call.invocations ++ world.log)) usizeMax) ∧
    (∀ row ∈ (world.cleaner.report owner phase).steps, ∀ removed,
      row.status.removed? = some removed →
      removed = min (removedTotal owner row.service world.log) usizeMax) ∧
    ∀ other, other ≠ owner → call.cleaner.progress other = world.cleaner.progress other := by
  intro world call
  have hrecorded : Recorded world := recorded_run slots ops
  refine ⟨eachEvent_iff.mp hrecorded.ordered, completes_iff hrecorded answers,
    fun hprior service => pending_attempted hrecorded answers hprior, ?_, ?_,
    fun other => progress_other hrecorded answers⟩
  · intro row hrow removed hremoved
    rw [status_cleanupPhase hrow] at hremoved
    exact (hrecorded.step (.cleanupPhase owner phase answers)).removed_eq hremoved
  · intro row hrow removed hremoved
    rw [status_report hrow] at hremoved
    exact hrecorded.removed_eq hremoved

/-- An adapter that fails after it removed all that a `usize` can count, and then removes one more. -/
def saturatingOps (owner : OwnerToken) : List CleanerOp :=
  [.cleanupPhase owner .hookRegistrations fun _ => .returned (.error ⟨.busy, usizeMax, none⟩),
    .cleanupPhase owner .hookRegistrations fun _ => .returned (.ok ⟨1⟩)]

/-- Counts saturate, so a report can say less than the sum over the attempts. -/
theorem removed_saturates :
    ∃ row ∈ ((run (fun _ => .callback) (saturatingOps ⟨8, 2⟩)).cleaner.report ⟨8, 2⟩
        .hookRegistrations).steps,
      row.status.removed? = some usizeMax ∧
      removedTotal ⟨8, 2⟩ row.service (run (fun _ => .callback) (saturatingOps ⟨8, 2⟩)).log =
        usizeMax + 1 :=
  ⟨⟨.inlineHooks, .complete usizeMax 2⟩, by decide, rfl, rfl⟩

end CleanupWorld

end Nexus.AddonCleanup
