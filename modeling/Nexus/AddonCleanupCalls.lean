import Nexus.AddonCleanup

namespace Nexus.AddonCleanup

def isSuccess : Call AdapterResult → Bool
  | .returned (.ok _) => true
  | _ => false

def removedBy : Call AdapterResult → Nat
  | .returned (.ok effect) => effect.removed
  | .returned (.error error) => error.removed
  | .unwound => 0

def attempts (owner : OwnerToken) (service : CleanupService) :
    List CleanupEvent → List (Call AdapterResult)
  | [] => []
  | .forgot other :: log => if other = owner then [] else attempts owner service log
  | .invoked other slot answer :: log =>
    if other = owner ∧ slot = service then answer :: attempts owner service log
    else attempts owner service log

def Succeeded (owner : OwnerToken) (service : CleanupService) (log : List CleanupEvent) : Prop :=
  ∃ answer ∈ attempts owner service log, isSuccess answer = true

/-- A slot is invoked before its success and after the success of every slot of the phases before. -/
def Ordered (event : CleanupEvent) (earlier : List CleanupEvent) : Prop :=
  match event with
  | .forgot _ => True
  | .invoked owner service _ =>
    ¬Succeeded owner service earlier ∧
      ∀ prior : CleanupService, phaseIndex prior.phase < phaseIndex service.phase →
        Succeeded owner prior earlier

def record (state : ProgressState) (answer : Call AdapterResult) : ProgressState :=
  state.after (ErasedAdapter.callback.invoke answer)

def OwnerProgress.recorded (progress : OwnerProgress) (service : CleanupService)
    (answer : Call AdapterResult) : OwnerProgress :=
  { progress with
    slots := Function.update progress.slots service (record (progress.slots service) answer) }

theorem OwnerProgress.recorded_of_ne (progress : OwnerProgress) {service other : CleanupService}
    (answer : Call AdapterResult) (h : other ≠ service) :
    (progress.recorded service answer).slots other = progress.slots other :=
  Function.update_of_ne h ..

def replay : List (Call AdapterResult) → ProgressState
  | [] => .pending
  | answer :: earlier => record (replay earlier) answer

theorem isComplete_record (state : ProgressState) (answer : Call AdapterResult) :
    (record state answer).isComplete = isSuccess answer := by
  rcases answer with (_ | _) | _ <;> rfl

theorem counters_replay (answers : List (Call AdapterResult)) :
    (replay answers).counters =
      (min (tally removedBy answers) usizeMax, min answers.length u32Max) := by
  induction answers with
  | nil => rfl
  | cons answer earlier ih =>
    have hremoved : (record (replay earlier) answer).counters =
        (min ((replay earlier).counters.1 + removedBy answer) usizeMax,
          min ((replay earlier).counters.2 + 1) u32Max) := by
      rcases answer with (error | effect) | _
      · rfl
      · rfl
      · have hcapped : min ((replay earlier).counters.1 + 0) usizeMax =
            (replay earlier).counters.1 := by
          rw [ih]
          dsimp only
          omega
        exact Prod.ext hcapped.symm rfl
    show (record (replay earlier) answer).counters = _
    rw [hremoved, ih, tally_cons, List.length_cons]
    exact Prod.ext (by dsimp only; omega) (by dsimp only; omega)

def SucceedsLast : List (Call AdapterResult) → Prop
  | [] => True
  | _ :: earlier => ∀ answer ∈ earlier, isSuccess answer = false

theorem isComplete_replay {answers : List (Call AdapterResult)} (h : SucceedsLast answers) :
    (replay answers).isComplete = true ↔ ∃ answer ∈ answers, isSuccess answer = true := by
  cases answers with
  | nil =>
    constructor
    · intro hcomplete
      cases hcomplete
    · rintro ⟨_, hmem, _⟩
      cases hmem
  | cons last earlier =>
    have hlast : (replay (last :: earlier)).isComplete = isSuccess last := isComplete_record ..
    rw [hlast]
    constructor
    · exact fun hsuccess => ⟨last, List.mem_cons_self, hsuccess⟩
    · rintro ⟨answer, hmem, hsuccess⟩
      rcases List.mem_cons.mp hmem with rfl | hrest
      · exact hsuccess
      · rw [h answer hrest] at hsuccess
        cases hsuccess

section Invocations

variable (answers : CleanupService → Call AdapterResult) (owner : OwnerToken)

/-- The invocations of some slots for an owner, latest first. -/
def invocations (services : List CleanupService) : List CleanupEvent :=
  (services.map fun service => .invoked owner service (answers service)).reverse

theorem invocations_cons (service : CleanupService) (services : List CleanupService)
    (log : List CleanupEvent) :
    invocations answers owner (service :: services) ++ log =
      invocations answers owner services ++ .invoked owner service (answers service) :: log := by
  unfold invocations
  rw [List.map_cons, List.reverse_cons, List.append_assoc]
  rfl

theorem attempts_invoked (other : OwnerToken) (slot service : CleanupService)
    (answer : Call AdapterResult) (log : List CleanupEvent) :
    attempts other slot (.invoked owner service answer :: log) =
      if owner = other ∧ service = slot then answer :: attempts other slot log
      else attempts other slot log := rfl

theorem attempts_invocations {services : List CleanupService} (h : services.Nodup)
    (other : OwnerToken) (slot : CleanupService) (log : List CleanupEvent) :
    attempts other slot (invocations answers owner services ++ log) =
      if owner = other ∧ slot ∈ services then answers slot :: attempts other slot log
      else attempts other slot log := by
  induction services generalizing log with
  | nil => simp [invocations]
  | cons service _ ih =>
    obtain ⟨hnew, hrest⟩ := List.nodup_cons.mp h
    rw [invocations_cons, ih hrest, attempts_invoked]
    by_cases howner : owner = other
    · by_cases hslot : service = slot
      · subst hslot
        simp [howner, hnew]
      · simp [howner, hslot, Ne.symm hslot]
    · simp [howner]

theorem Succeeded.invoked {other : OwnerToken} {slot service : CleanupService}
    {answer : Call AdapterResult} {log : List CleanupEvent} (h : Succeeded other slot log) :
    Succeeded other slot (.invoked owner service answer :: log) := by
  obtain ⟨success, hmem, hsuccess⟩ := h
  refine ⟨success, ?_, hsuccess⟩
  rw [attempts_invoked]
  split
  next => exact List.mem_cons_of_mem _ hmem
  next => exact hmem

theorem ordered_invocations {services : List CleanupService} (h : services.Nodup)
    {log : List CleanupEvent} (hlog : EachEvent Ordered log)
    (hnew : ∀ service ∈ services, ¬Succeeded owner service log)
    (hprior : ∀ service ∈ services, ∀ prior : CleanupService,
      phaseIndex prior.phase < phaseIndex service.phase → Succeeded owner prior log) :
    EachEvent Ordered (invocations answers owner services ++ log) := by
  induction services generalizing log with
  | nil => exact hlog
  | cons service _ ih =>
    obtain ⟨hfirst, hrest⟩ := List.nodup_cons.mp h
    rw [invocations_cons]
    refine ih hrest ⟨⟨hnew service List.mem_cons_self, hprior service List.mem_cons_self⟩, hlog⟩
      (fun slot hslot => ?_) (fun slot hslot prior hlt => ?_)
    · have hne : service ≠ slot := fun heq => hfirst (heq ▸ hslot)
      unfold Succeeded
      rw [attempts_invoked, if_neg fun hsame => hne hsame.2]
      exact hnew slot (List.mem_cons_of_mem _ hslot)
    · exact (hprior slot (List.mem_cons_of_mem _ hslot) prior hlt).invoked owner

end Invocations

namespace RegistrationCleaner

def stateOf (cleaner : RegistrationCleaner) (owner : OwnerToken) (service : CleanupService) :
    ProgressState :=
  match cleaner.progress owner with
  | none => .pending
  | some progress => progress.slots service

def isPending (cleaner : RegistrationCleaner) (phase : CleanupPhase) (progress : OwnerProgress)
    (service : CleanupService) : Bool :=
  service.phase = phase && !(progress.slots service).isComplete &&
    (cleaner.slots service).gap?.isNone

section Calls

variable (cleaner : RegistrationCleaner) (answers : CleanupService → Call AdapterResult)
  (owner : OwnerToken) (phase : CleanupPhase)

theorem runSlot_eq (progress : OwnerProgress) (log : List CleanupEvent) (service : CleanupService) :
    cleaner.runSlot answers owner phase (progress, log) service =
      if cleaner.isPending phase progress service then
        (progress.recorded service (answers service),
          .invoked owner service (answers service) :: log)
      else (progress, log) := by
  unfold runSlot isPending OwnerProgress.recorded
  by_cases hphase : service.phase = phase
  · rcases hcomplete : (progress.slots service).isComplete with _ | _
    · cases hadapter : cleaner.slots service with
      | callback => simp [hphase, hcomplete, ErasedAdapter.gap?, record]
      | gap => simp [hphase, ErasedAdapter.gap?]
    · simp [hcomplete]
  · simp [hphase]

theorem foldl_runSlot {services : List CleanupService} (h : services.Nodup)
    (progress : OwnerProgress) (log : List CleanupEvent) :
    services.foldl (cleaner.runSlot answers owner phase) (progress, log) =
      ({ progress with
          slots := fun service =>
            if service ∈ services ∧ cleaner.isPending phase progress service = true then
              record (progress.slots service) (answers service)
            else progress.slots service },
        invocations answers owner (services.filter (cleaner.isPending phase progress)) ++ log) := by
  induction services generalizing progress log with
  | nil => simp [invocations]
  | cons first services ih =>
    obtain ⟨hfirst, hrest⟩ := List.nodup_cons.mp h
    rw [List.foldl_cons, runSlot_eq]
    by_cases hpending : cleaner.isPending phase progress first = true
    · rw [if_pos hpending, ih hrest, List.filter_cons_of_pos hpending, invocations_cons]
      have hsame : ∀ service, service ≠ first →
          cleaner.isPending phase (progress.recorded first (answers first)) service =
            cleaner.isPending phase progress service := by
        intro service hne
        unfold isPending
        rw [progress.recorded_of_ne _ hne]
      have hfilter : services.filter
          (cleaner.isPending phase (progress.recorded first (answers first))) =
            services.filter (cleaner.isPending phase progress) :=
        List.filter_congr fun service hmem => hsame service fun heq => hfirst (heq ▸ hmem)
      rw [hfilter]
      refine Prod.ext (OwnerProgress.ext (funext fun service => ?_) rfl) rfl
      dsimp only
      by_cases hservice : service = first
      · subst hservice
        simp [hfirst, hpending, OwnerProgress.recorded]
      · rw [hsame service hservice, progress.recorded_of_ne _ hservice]
        simp [hservice]
    · rw [if_neg hpending, ih hrest, List.filter_cons_of_neg hpending]
      refine Prod.ext (OwnerProgress.ext (funext fun service => ?_) rfl) rfl
      dsimp only
      by_cases hservice : service = first
      · subst hservice
        simp [hpending]
      · simp [hservice]

end Calls

theorem firstIncompletePriorPhase_none {cleaner : RegistrationCleaner} {owner : OwnerToken}
    {phase : CleanupPhase} (h : cleaner.firstIncompletePriorPhase owner phase = none)
    {prior : CleanupPhase} (hlt : phaseIndex prior < phaseIndex phase) :
    cleaner.phaseCompleted owner prior = true := by
  have hnone := List.find?_eq_none.mp (Option.map_eq_none_iff.mp h) (phaseIndex prior)
    (List.mem_range.mpr hlt)
  rw [phaseFromIndex_phaseIndex] at hnone
  simpa using hnone

theorem firstIncompletePriorPhase_some {cleaner : RegistrationCleaner} {owner : OwnerToken}
    {phase required : CleanupPhase}
    (h : cleaner.firstIncompletePriorPhase owner phase = some required) :
    phaseIndex required < phaseIndex phase ∧ cleaner.phaseCompleted owner required = false := by
  obtain ⟨index, hfind, rfl⟩ := Option.map_eq_some_iff.mp h
  have hlt := List.mem_range.mp (List.mem_of_find?_eq_some hfind)
  have hincomplete := List.find?_some hfind
  have hindex : phaseIndex (phaseFromIndex index) ≤ index := by
    rcases index with _ | _ | index
    · exact Nat.le_refl 0
    · exact Nat.le_refl 1
    · show 2 ≤ index + 2
      omega
  exact ⟨Nat.lt_of_le_of_lt hindex hlt, by simpa using hincomplete⟩

/-- Two cleaners with the same adapters and progress. -/
structure Alike (cleaner other : RegistrationCleaner) : Prop where
  slots : cleaner.slots = other.slots
  states : ∀ owner service, cleaner.stateOf owner service = other.stateOf owner service
  flags : ∀ owner phase, cleaner.phaseCompleted owner phase = other.phaseCompleted owner phase

theorem stateOf_setProgress (cleaner : RegistrationCleaner) (owner other : OwnerToken)
    (progress : OwnerProgress) (service : CleanupService) :
    (cleaner.setProgress owner progress).stateOf other service =
      if other = owner then progress.slots service else cleaner.stateOf other service := by
  unfold stateOf setProgress
  by_cases h : other = owner
  · subst h
    simp
  · simp [h]

theorem phaseCompleted_setProgress (cleaner : RegistrationCleaner) (owner other : OwnerToken)
    (progress : OwnerProgress) (phase : CleanupPhase) :
    (cleaner.setProgress owner progress).phaseCompleted other phase =
      if other = owner then progress.completedPhases phase
      else cleaner.phaseCompleted other phase := by
  unfold phaseCompleted setProgress
  by_cases h : other = owner
  · subst h
    simp
  · simp [h]

theorem slots_getD (cleaner : RegistrationCleaner) (owner : OwnerToken) (service : CleanupService) :
    ((cleaner.progress owner).getD .new).slots service = cleaner.stateOf owner service := by
  unfold stateOf
  cases cleaner.progress owner <;> rfl

theorem completedPhases_getD (cleaner : RegistrationCleaner) (owner : OwnerToken)
    (phase : CleanupPhase) :
    ((cleaner.progress owner).getD .new).completedPhases phase =
      cleaner.phaseCompleted owner phase := by
  unfold phaseCompleted
  cases cleaner.progress owner <;> rfl

theorem alike_touched (cleaner : RegistrationCleaner) (owner : OwnerToken) :
    Alike (cleaner.setProgress owner ((cleaner.progress owner).getD .new)) cleaner where
  slots := rfl
  states other service := by
    rw [stateOf_setProgress, slots_getD]
    split
    next h => rw [h]
    next => rfl
  flags other phase := by
    rw [phaseCompleted_setProgress, completedPhases_getD]
    split
    next h => rw [h]
    next => rfl

theorem Alike.firstIncompletePriorPhase {cleaner other : RegistrationCleaner}
    (h : Alike cleaner other) (owner : OwnerToken) (phase : CleanupPhase) :
    cleaner.firstIncompletePriorPhase owner phase = other.firstIncompletePriorPhase owner phase := by
  unfold RegistrationCleaner.firstIncompletePriorPhase
  simp only [h.flags]

structure Ran (cleaner : RegistrationCleaner) (answers : CleanupService → Call AdapterResult)
    (owner : OwnerToken) (phase : CleanupPhase) (call : PhaseCall) : Prop where
  invocations : call.invocations = AddonCleanup.invocations answers owner
    (CleanupService.order.filter fun service => service.phase = phase ∧
      (cleaner.stateOf owner service).isComplete = false ∧ cleaner.slots service = .callback)
  slots : call.cleaner.slots = cleaner.slots
  states : ∀ service, call.cleaner.stateOf owner service =
    if service.phase = phase ∧ (cleaner.stateOf owner service).isComplete = false ∧
        cleaner.slots service = .callback then
      record (cleaner.stateOf owner service) (answers service)
    else cleaner.stateOf owner service
  others : ∀ other, other ≠ owner → call.cleaner.progress other = cleaner.progress other
  flags : ∀ other, other ≠ phase →
    call.cleaner.phaseCompleted owner other = cleaner.phaseCompleted owner other
  flag : call.cleaner.phaseCompleted owner phase = true ↔
    ∀ service : CleanupService, service.phase = phase →
      (call.cleaner.stateOf owner service).isComplete = true
  result : (∃ report, call.result = .ok report) ↔
    call.cleaner.phaseCompleted owner phase = true

structure Blocked (cleaner : RegistrationCleaner) (owner : OwnerToken) (call : PhaseCall) :
    Prop where
  invocations : call.invocations = []
  alike : Alike call.cleaner cleaner
  others : ∀ other, other ≠ owner → call.cleaner.progress other = cleaner.progress other
  result : ∀ report, call.result ≠ .ok report

theorem finish_result (cleaner : RegistrationCleaner) (invocations : List CleanupEvent)
    (report : CleanupReport) : (∃ result, (cleaner.finish invocations report).result = .ok result) ↔
      report.status = .complete := by
  unfold finish
  by_cases h : report.status = .complete
  · simp [h]
  · simp [h]

theorem status_eq_complete (complete : Bool) :
    (if complete = true then PhaseStatus.complete else .incomplete) = .complete ↔
      complete = true := by
  cases complete <;> decide

theorem isPending_getD (cleaner : RegistrationCleaner) (owner : OwnerToken) (phase : CleanupPhase)
    (service : CleanupService) :
    cleaner.isPending phase ((cleaner.progress owner).getD .new) service =
      decide (service.phase = phase ∧ (cleaner.stateOf owner service).isComplete = false ∧
        cleaner.slots service = .callback) := by
  unfold isPending
  rw [slots_getD]
  cases cleaner.slots service <;> simp [ErasedAdapter.gap?]

section Calls

variable {cleaner : RegistrationCleaner} {owner : OwnerToken} {phase : CleanupPhase}

theorem blocked_cleanupPhase (answers : CleanupService → Call AdapterResult)
    {required : CleanupPhase}
    (h : cleaner.firstIncompletePriorPhase owner phase = some required) :
    Blocked cleaner owner (cleaner.cleanupPhase answers owner phase) := by
  have htouched := alike_touched cleaner owner
  unfold cleanupPhase
  dsimp only
  rw [htouched.firstIncompletePriorPhase, h]
  refine ⟨rfl, ⟨rfl, htouched.states, htouched.flags⟩, fun other hne => ?_, fun report hok => ?_⟩
  · exact Function.update_of_ne hne ..
  · have hstatus := (finish_result _ _ _).mp ⟨report, hok⟩
    cases hstatus

theorem ran_cleanupPhase (answers : CleanupService → Call AdapterResult)
    (h : cleaner.firstIncompletePriorPhase owner phase = none)
    (hflag : cleaner.phaseCompleted owner phase = true →
      ∀ service : CleanupService, service.phase = phase →
        (cleaner.stateOf owner service).isComplete = true) :
    Ran cleaner answers owner phase (cleaner.cleanupPhase answers owner phase) := by
  have htouched := alike_touched cleaner owner
  unfold cleanupPhase
  dsimp only
  rw [htouched.firstIncompletePriorPhase, h, htouched.flags]
  rcases hcompleted : cleaner.phaseCompleted owner phase with _ | _
  · dsimp only
    rw [if_neg (by decide), foldl_runSlot _ _ _ _ CleanupService.nodup_order]
    dsimp only
    have hpending (service : CleanupService) := isPending_getD cleaner owner phase service
    have hstate (service : CleanupService) := slots_getD cleaner owner service
    refine ⟨?_, rfl, fun service => ?_, fun other hne => ?_, fun other hne => ?_, ?_, ?_⟩
    · show AddonCleanup.invocations answers owner _ ++ [] = _
      rw [List.append_nil]
      congr 1
      refine List.filter_congr fun service _ => ?_
      exact hpending service
    · show (setProgress _ owner _).stateOf owner service = _
      rw [stateOf_setProgress, if_pos rfl]
      unfold markPhaseIfComplete
      dsimp only
      have hsame : (cleaner.setProgress owner ((cleaner.progress owner).getD .new)).isPending phase
          ((cleaner.progress owner).getD .new) service = _ := hpending service
      rw [hsame, hstate]
      simp [CleanupService.mem_order]
    · show (setProgress (setProgress _ owner _) owner _).progress other = _
      unfold setProgress
      dsimp only
      rw [Function.update_of_ne hne, Function.update_of_ne hne]
    · show (setProgress _ owner _).phaseCompleted owner other = _
      rw [phaseCompleted_setProgress, if_pos rfl]
      unfold markPhaseIfComplete
      dsimp only
      rw [Function.update_of_ne hne]
      exact completedPhases_getD cleaner owner other
    · show (setProgress _ owner _).phaseCompleted owner phase = true ↔
        ∀ service : CleanupService, _ → ((setProgress _ owner _).stateOf owner service).isComplete = _
      simp only [phaseCompleted_setProgress, stateOf_setProgress, if_true]
      unfold markPhaseIfComplete
      dsimp only
      rw [Function.update_self, List.all_eq_true]
      constructor
      · intro hall service hphase
        have hone := hall service (CleanupService.mem_order service)
        simpa [hphase] using hone
      · intro hall service _
        by_cases hphase : service.phase = phase
        · have hone := hall service hphase
          simpa [hphase] using hone
        · simp [hphase]
    · rw [finish_result]
      show (if (markPhaseIfComplete phase _).1 = true then PhaseStatus.complete else .incomplete) =
        .complete ↔ (setProgress _ owner _).phaseCompleted owner phase = true
      rw [phaseCompleted_setProgress, if_pos rfl]
      unfold markPhaseIfComplete
      dsimp only
      rw [Function.update_self]
      exact status_eq_complete _
  · rw [if_pos rfl]
    have hdone := hflag hcompleted
    have hnone (service : CleanupService) : ¬(service.phase = phase ∧
        (cleaner.stateOf owner service).isComplete = false ∧ cleaner.slots service = .callback) := by
      rintro ⟨hphase, hincomplete, _⟩
      rw [hdone service hphase] at hincomplete
      cases hincomplete
    refine ⟨?_, rfl, fun service => ?_, fun other hne => ?_, fun other _ => ?_, ?_, ?_⟩
    · rw [List.filter_eq_nil_iff.mpr fun service _ => by simpa using hnone service]
      rfl
    · rw [if_neg (hnone service)]
      exact htouched.states owner service
    · exact Function.update_of_ne hne ..
    · exact htouched.flags owner other
    · refine ⟨fun _ service hphase => ?_, fun _ => (htouched.flags owner phase).trans hcompleted⟩
      exact (congrArg _ (htouched.states owner service)).trans (hdone service hphase)
    · rw [finish_result]
      exact ⟨fun _ => (htouched.flags owner phase).trans hcompleted, fun _ => rfl⟩

end Calls

end RegistrationCleaner

end Nexus.AddonCleanup
