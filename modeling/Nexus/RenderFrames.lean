import Nexus.RenderRegistry
import Nexus.StepRuns
import Nexus.Unwinding

namespace Nexus.UiHost

open StepRuns

inductive RenderChange where
  | removed (address : Nat)
  | retired (gate : Nat)
  | panicked (address : Nat)
  deriving DecidableEq

/-- After what the log says, the slot is registered, its owner not retired, and its panic budget
not spent. -/
def Live (log : List RenderChange) (slot : CallbackSlot) : Prop :=
  .removed slot.address ∉ log ∧ .retired slot.callback.owner.gate ∉ log ∧
    log.count (.panicked slot.address) < slot.maximumPanics

instance (log : List RenderChange) (slot : CallbackSlot) : Decidable (Live log slot) :=
  inferInstanceAs (Decidable (_ ∧ _ ∧ _))

namespace RenderHost

/-- The flags and gates say what the log says. All gates of this thread's activities are on its
list, so their counts never run over. -/
structure Matches (host : RenderHost) (log : List RenderChange) : Prop where
  budget : 0 < host.config.maximumPanicsPerCallback
  active : ∀ address < host.slots.next,
    ((host.slots.flags address).active = false ↔ .removed address ∈ log)
  disabled : ∀ address < host.slots.next, ((host.slots.flags address).disabled = true ↔
    host.config.maximumPanicsPerCallback ≤ log.count (.panicked address))
  panics : ∀ address < host.slots.next,
    (host.slots.flags address).panics = log.count (.panicked address) % 2 ^ 32
  removed : ∀ address, .removed address ∈ log → address < host.slots.next
  panicked : ∀ address, .panicked address ∈ log → address < host.slots.next
  gates : ∀ gate, (host.gates gate).active = false ↔ .retired gate ∈ log
  inFlight : ∀ gate, (host.gates gate).inFlight = host.activeGates.count gate

/-- A vector of keys of eight bytes each does not grow beyond this. -/
def maximumActiveGates : Nat := 2 ^ 60

def HasRoom (host : RenderHost) : Prop := host.activeGates.length < maximumActiveGates

instance (host : RenderHost) : Decidable host.HasRoom := inferInstanceAs (Decidable (_ < _))

variable {host entered : RenderHost} {log : List RenderChange} {handle : OwnerHandle}
  {slot : CallbackSlot}

theorem tryEnter_eq_some (h : host.tryEnter handle = some entered) :
    (host.gates handle.gate).active = true ∧
      entered = { host.setGate handle.gate ⟨true, (host.gates handle.gate).inFlight + 1⟩ with
        activeGates := handle.gate :: host.activeGates } := by
  unfold tryEnter at h
  simp only at h
  split at h
  next => cases h
  next hactive =>
    split at h
    next => cases h
    next =>
      cases h
      exact ⟨by simpa using hactive, rfl⟩

theorem Matches.tryEnter_eq_none (h : host.Matches log) (hroom : host.HasRoom) :
    host.tryEnter handle = none ↔ .retired handle.gate ∈ log := by
  have hcount : host.activeGates.count handle.gate ≤ host.activeGates.length :=
    List.count_le_length
  have hsmall : ¬2 ^ 64 ≤ (host.gates handle.gate).inFlight + 1 := by
    rw [h.inFlight]
    unfold HasRoom maximumActiveGates at hroom
    omega
  unfold tryEnter
  simp only [if_neg hsmall]
  rw [← h.gates]
  split
  next hactive => simp [hactive]
  next hactive => simp [hactive]

structure SameSlots (host other : RenderHost) : Prop where
  config : other.config = host.config
  phases : other.phases = host.phases
  slots : other.slots = host.slots

variable {other third : RenderHost}

theorem SameSlots.trans (h : SameSlots host other) (hother : SameSlots other third) :
    SameSlots host third :=
  ⟨hother.config.trans h.config, hother.phases.trans h.phases, hother.slots.trans h.slots⟩

theorem sameSlots_of_tryEnter (h : host.tryEnter handle = some entered) :
    SameSlots host entered := by
  obtain ⟨_, rfl⟩ := tryEnter_eq_some h
  exact ⟨rfl, rfl, rfl⟩

theorem sameSlots_leave (gate : Nat) : SameSlots host (host.leave gate) := ⟨rfl, rfl, rfl⟩

theorem Matches.of_sameSlots (h : host.Matches log) (hsame : SameSlots host entered)
    (hgates : ∀ gate, (entered.gates gate).active = (host.gates gate).active)
    (hinFlight : ∀ gate, (entered.gates gate).inFlight = entered.activeGates.count gate) :
    entered.Matches log where
  budget := hsame.config ▸ h.budget
  active := by
    rw [hsame.slots]
    exact h.active
  disabled := by
    rw [hsame.slots, hsame.config]
    exact h.disabled
  panics := by
    rw [hsame.slots]
    exact h.panics
  removed := by
    rw [hsame.slots]
    exact h.removed
  panicked := by
    rw [hsame.slots]
    exact h.panicked
  gates gate := by rw [hgates, h.gates]
  inFlight := hinFlight

theorem Matches.tryEnter (h : host.Matches log) (henter : host.tryEnter handle = some entered) :
    entered.Matches log := by
  have hsame := sameSlots_of_tryEnter henter
  obtain ⟨hactive, rfl⟩ := tryEnter_eq_some henter
  refine h.of_sameSlots hsame (fun gate => ?_) fun gate => ?_
  · by_cases hg : gate = handle.gate
    · subst hg
      simp [setGate, hactive]
    · simp [setGate, hg]
  · by_cases hg : gate = handle.gate
    · subst hg
      simp [setGate, h.inFlight]
    · simp [setGate, hg, h.inFlight, Ne.symm hg]

theorem Matches.leave (h : host.Matches log) (gate : Nat) : (host.leave gate).Matches log := by
  refine h.of_sameSlots (sameSlots_leave gate) (fun other => ?_) fun other => ?_
  · by_cases hg : other = gate
    · subst hg
      simp [RenderHost.leave, setGate]
    · simp [RenderHost.leave, setGate, hg]
  · by_cases hg : other = gate
    · subst hg
      simp [RenderHost.leave, setGate, h.inFlight, List.count_erase_self]
    · simp [RenderHost.leave, setGate, hg, h.inFlight, List.count_erase_of_ne hg]

theorem Matches.retireAndDrain (h : host.Matches log) (handle : OwnerHandle) :
    ∃ retirement retired, host.retireAndDrain handle = some (retirement, retired) ∧
      SameSlots host retired ∧ retired.Matches (.retired handle.gate :: log) := by
  have hwait : ¬host.activeGates.count handle.gate < (host.gates handle.gate).inFlight := by
    rw [h.inFlight]
    exact Nat.lt_irrefl _
  refine ⟨_, _, if_neg hwait, ⟨rfl, rfl, rfl⟩, ?_⟩
  refine { h with
    active := by simpa [setGate] using h.active
    disabled := by simpa [setGate] using h.disabled
    panics := by simpa [setGate] using h.panics
    removed := by simpa [setGate] using h.removed
    panicked := by simpa [setGate] using h.panicked
    gates := fun gate => ?_
    inFlight := fun gate => ?_ }
  · by_cases hg : gate = handle.gate
    · subst hg
      simp [setGate]
    · simp [setGate, hg, h.gates]
  · by_cases hg : gate = handle.gate
    · subst hg
      simp [setGate, h.inFlight]
    · simp [setGate, hg, h.inFlight]

theorem Matches.retireAll (h : host.Matches log) (retirement : OwnerRetirement)
    (slots : List CallbackSlot) :
    ∃ merged retired, host.retireAll retirement slots = some (merged, retired) ∧
      SameSlots host retired ∧
      retired.Matches ((slots.reverse.map fun slot => .retired slot.callback.owner.gate) ++ log) := by
  induction slots generalizing host log retirement with
  | nil => exact ⟨retirement, host, rfl, ⟨rfl, rfl, rfl⟩, h⟩
  | cons slot _ ih =>
    obtain ⟨next, retired, heq, hsame, hretired⟩ := h.retireAndDrain slot.callback.owner
    obtain ⟨merged, final, hlater, hfinal, hmatches⟩ := ih hretired (retirement.merge next)
    refine ⟨merged, final, ?_, hsame.trans hfinal, ?_⟩
    · simp [RenderHost.retireAll, heq, hlater]
    · simpa using hmatches

theorem deactivate_flags (slots : CallbackSlots) (removed : List CallbackSlot) (address : Nat) :
    ((removed.foldl CallbackSlots.deactivate slots).flags address).disabled =
        (slots.flags address).disabled ∧
      ((removed.foldl CallbackSlots.deactivate slots).flags address).panics =
        (slots.flags address).panics ∧
      (((removed.foldl CallbackSlots.deactivate slots).flags address).active = false ↔
        (slots.flags address).active = false ∨ ∃ slot ∈ removed, slot.address = address) := by
  induction removed generalizing slots with
  | nil => simp
  | cons slot _ ih =>
    obtain ⟨hdisabled, hpanics, hactive⟩ := ih (slots.deactivate slot)
    rw [List.foldl_cons, hdisabled, hpanics, hactive]
    by_cases hsame : slot.address = address
    · subst hsame
      simp [CallbackSlots.deactivate]
    · simp [CallbackSlots.deactivate, Ne.symm hsame, hsame]

theorem deactivate_next (slots : CallbackSlots) (removed : List CallbackSlot) :
    (removed.foldl CallbackSlots.deactivate slots).next = slots.next := by
  induction removed generalizing slots with
  | nil => rfl
  | cons _ _ ih => rw [List.foldl_cons, ih, CallbackSlots.next_deactivate]

def removedChanges (removed : List CallbackSlot) : List RenderChange :=
  removed.reverse.map fun slot => .removed slot.address

variable {removed : List CallbackSlot} {address : Nat}

theorem removed_mem_removedChanges :
    .removed address ∈ removedChanges removed ↔ ∃ slot ∈ removed, slot.address = address := by
  simp [removedChanges]

theorem count_removedChanges : (removedChanges removed).count (.panicked address) = 0 := by
  simp [removedChanges, List.count_eq_zero]

theorem Matches.removeWhere (h : host.Matches log) {gone : CallbackSlot → Bool}
    (hknown : ∀ phase, ∀ slot ∈ host.phases phase, slot.address < host.slots.next) :
    (host.removeWhere gone).2.Matches
      (removedChanges (host.removeWhere gone).1 ++ log) := by
  have hremoved : ∀ slot ∈ (host.removeWhere gone).1, slot.address < host.slots.next := by
    intro slot hslot
    obtain ⟨phase, _, hmem⟩ := List.mem_flatMap.mp hslot
    exact hknown phase slot (List.mem_filter.mp hmem).1
  have hflags := deactivate_flags host.slots (host.removeWhere gone).1
  have hnext : (host.removeWhere gone).2.slots.next = host.slots.next := deactivate_next _ _
  refine ⟨h.budget, fun address hlt => ?_, fun address hlt => ?_, fun address hlt => ?_,
    fun address hmem => ?_, fun address hmem => ?_, fun gate => ?_, h.inFlight⟩
  · rw [List.mem_append, removed_mem_removedChanges, ← h.active address (hnext ▸ hlt), or_comm]
    exact (hflags address).2.2
  · rw [List.count_append, count_removedChanges, Nat.zero_add]
    exact (hflags address).1 ▸ h.disabled address (hnext ▸ hlt)
  · rw [List.count_append, count_removedChanges, Nat.zero_add]
    exact (hflags address).2.1.trans (h.panics address (hnext ▸ hlt))
  · rw [hnext]
    rcases List.mem_append.mp hmem with hnew | hold
    · obtain ⟨slot, hslot, rfl⟩ := removed_mem_removedChanges.mp hnew
      exact hremoved slot hslot
    · exact h.removed address hold
  · rw [hnext]
    refine h.panicked address ((List.mem_append.mp hmem).resolve_left fun hnew => ?_)
    simp [removedChanges] at hnew
  · rw [List.mem_append]
    refine (h.gates gate).trans ⟨.inr, fun hmem => hmem.resolve_left fun hnew => ?_⟩
    simp [removedChanges] at hnew

structure Listed (host : RenderHost) (slots : List CallbackSlot) : Prop where
  ordered : (slots.map CallbackSlot.address).Pairwise (· < ·)
  known : ∀ slot ∈ slots, slot.address < host.slots.next ∧
    slot.maximumPanics = host.config.maximumPanicsPerCallback

structure Registered (host : RenderHost) : Prop where
  listed : ∀ phase, Listed host (host.phases phase)
  distinct : ∀ phase, (host.phases phase).Pairwise fun slot other =>
    slot.callback.sameIdentity other.callback = false

/-- The registry goes on: nothing that was allocated is forgotten. -/
structure Extends (host later : RenderHost) : Prop where
  config : later.config = host.config
  next : host.slots.next ≤ later.slots.next

theorem Extends.trans {later : RenderHost} (h : Extends host later) (hlater : Extends later third) :
    Extends host third :=
  ⟨hlater.config.trans h.config, Nat.le_trans h.next hlater.next⟩

theorem SameSlots.extends (h : SameSlots host other) : Extends host other :=
  ⟨h.config, Nat.le_of_eq (by rw [h.slots])⟩

theorem Listed.extend {later : RenderHost} {slots : List CallbackSlot} (h : Listed host slots)
    (hext : Extends host later) : Listed later slots where
  ordered := h.ordered
  known slot hslot := ⟨Nat.lt_of_lt_of_le (h.known slot hslot).1 hext.next,
    (h.known slot hslot).2.trans (congrArg _ hext.config.symm)⟩

theorem SameSlots.registered (h : SameSlots host other) (hregistered : host.Registered) :
    other.Registered where
  listed phase := by
    rw [h.phases]
    exact (hregistered.listed phase).extend h.extends
  distinct phase := by
    rw [h.phases]
    exact hregistered.distinct phase

theorem Matches.allocated (h : host.Matches log) (callback : UiCallback)
    (phases : RenderPhase → List CallbackSlot) :
    ({ host with
      slots := (host.slots.allocate callback host.config.maximumPanicsPerCallback).2
      phases } : RenderHost).Matches log := by
  have hfresh : .removed host.slots.next ∉ log := fun hmem =>
    Nat.lt_irrefl _ (h.removed _ hmem)
  have hzero : log.count (.panicked host.slots.next) = 0 :=
    List.count_eq_zero.mpr fun hmem => Nat.lt_irrefl _ (h.panicked _ hmem)
  have hold : ∀ address < host.slots.next + 1, address ≠ host.slots.next →
      address < host.slots.next := fun address hlt hne => by omega
  refine { h with
    active := fun address hlt => ?_
    disabled := fun address hlt => ?_
    panics := fun address hlt => ?_
    removed := fun address hmem => Nat.lt_succ_of_lt (h.removed address hmem)
    panicked := fun address hmem => Nat.lt_succ_of_lt (h.panicked address hmem) }
  · by_cases hnew : address = host.slots.next
    · subst hnew
      simp [CallbackSlots.allocate, hfresh]
    · simpa [CallbackSlots.allocate, hnew] using h.active address (hold address hlt hnew)
  · by_cases hnew : address = host.slots.next
    · subst hnew
      simpa [CallbackSlots.allocate, hzero] using Nat.ne_of_gt h.budget
    · simpa [CallbackSlots.allocate, hnew] using h.disabled address (hold address hlt hnew)
  · by_cases hnew : address = host.slots.next
    · subst hnew
      simp [CallbackSlots.allocate, hzero]
    · simpa [CallbackSlots.allocate, hnew] using h.panics address (hold address hlt hnew)

theorem Matches.append (h : host.Matches log) (hregistered : host.Registered)
    (phase : RenderPhase) (callback : UiCallback) :
    (host.append phase callback).2.Matches log ∧
      (host.append phase callback).2.Registered ∧
      Extends host (host.append phase callback).2 := by
  unfold RenderHost.append
  simp only
  split
  next => exact ⟨h, hregistered, rfl, Nat.le_refl _⟩
  next hnone =>
    split
    next => exact ⟨h, hregistered, rfl, Nat.le_refl _⟩
    next =>
      have hext : Extends host { host with
          slots := (host.slots.allocate callback host.config.maximumPanicsPerCallback).2
          phases := Function.update host.phases phase (host.phases phase ++
            [(host.slots.allocate callback host.config.maximumPanicsPerCallback).1]) } :=
        ⟨rfl, Nat.le_succ _⟩
      refine ⟨h.allocated callback _, ⟨fun other => ?_, fun other => ?_⟩, hext⟩
      · by_cases hsame : other = phase
        · subst hsame
          have hold := (hregistered.listed other).extend hext
          simp only [Function.update_self]
          refine ⟨?_, fun slot hslot => ?_⟩
          · rw [List.map_append, List.pairwise_append]
            refine ⟨hold.ordered, List.pairwise_singleton _ _, fun address haddress new hnew => ?_⟩
            obtain ⟨slot, hslot, rfl⟩ := List.mem_map.mp haddress
            rw [List.mem_singleton.mp hnew]
            exact ((hregistered.listed other).known slot hslot).1
          · rcases List.mem_append.mp hslot with hslot | hnew
            · exact hold.known slot hslot
            · rw [List.mem_singleton.mp hnew]
              exact ⟨Nat.lt_succ_self _, rfl⟩
        · simpa only [Function.update_of_ne hsame] using
            (hregistered.listed other).extend hext
      · by_cases hsame : other = phase
        · subst hsame
          simp only [Function.update_self]
          rw [List.pairwise_append]
          refine ⟨hregistered.distinct other, List.pairwise_singleton _ _,
            fun slot hslot new hnew => ?_⟩
          rw [List.mem_singleton.mp hnew]
          have hother : ¬slot.callback.sameIdentity callback = true := fun hidentity =>
            hnone (List.any_eq_true.mpr ⟨slot, hslot, hidentity⟩)
          exact Bool.not_eq_true _ ▸ hother
        · simpa only [Function.update_of_ne hsame] using hregistered.distinct other

theorem Matches.register (h : host.Matches log) (hregistered : host.Registered)
    (phase : RenderPhase) (callback : UiCallback) :
    (host.register phase callback).2.Matches log ∧
      (host.register phase callback).2.Registered ∧
      Extends host (host.register phase callback).2 := by
  unfold RenderHost.register
  split
  next => exact ⟨h, hregistered, rfl, Nat.le_refl _⟩
  next entered henter =>
    have hsame := sameSlots_of_tryEnter henter
    obtain ⟨hmatches, happended, hext⟩ :=
      (h.tryEnter henter).append (hsame.registered hregistered) phase callback
    have hleave : SameSlots (entered.append phase callback).2
      ((entered.append phase callback).2.leave callback.owner.gate) := sameSlots_leave _
    exact ⟨hmatches.leave _, hleave.registered happended, hsame.extends.trans
      (hext.trans hleave.extends)⟩

theorem removeWhere_registered (hregistered : host.Registered) (gone : CallbackSlot → Bool) :
    (host.removeWhere gone).2.Registered ∧ Extends host (host.removeWhere gone).2 := by
  have hext : Extends host (host.removeWhere gone).2 := ⟨rfl, Nat.le_of_eq (deactivate_next _ _).symm⟩
  refine ⟨⟨fun phase => ⟨?_, fun slot hslot => ?_⟩, fun phase => ?_⟩, hext⟩
  · exact (hregistered.listed phase).ordered.sublist (List.filter_sublist.map _)
  · exact ((hregistered.listed phase).extend hext).known slot (List.mem_filter.mp hslot).1
  · exact (hregistered.distinct phase).sublist List.filter_sublist

theorem SameSlots.refl (host : RenderHost) : SameSlots host host := ⟨rfl, rfl, rfl⟩

theorem Matches.beginInvoke (h : host.Matches log) (hroom : host.HasRoom)
    (hlt : slot.address < host.slots.next)
    (hmaximum : slot.maximumPanics = host.config.maximumPanicsPerCallback) :
    match host.beginInvoke slot with
    | .ok entered => Live log slot ∧ entered.Matches log ∧ SameSlots host entered
    | .error (outcome, skipped) => outcome.called = false ∧ ¬Live log slot ∧
        skipped.Matches log ∧ SameSlots host skipped := by
  unfold RenderHost.beginInvoke
  by_cases hactive : host.slots.isActive slot = false
  · rw [if_pos hactive]
    exact ⟨rfl, fun hlive => hlive.1 ((h.active _ hlt).mp hactive), h, .refl host⟩
  rw [if_neg hactive]
  by_cases hdisabled : (host.slots.flags slot.address).disabled = true
  · rw [if_pos hdisabled]
    have hspent := (h.disabled _ hlt).mp hdisabled
    refine ⟨rfl, fun hlive => ?_, h, .refl host⟩
    exact Nat.not_lt.mpr (hmaximum ▸ hspent) hlive.2.2
  rw [if_neg hdisabled]
  rcases henter : host.tryEnter slot.callback.owner with _ | entered
  · exact ⟨rfl, fun hlive => hlive.2.1 ((h.tryEnter_eq_none hroom).mp henter), h, .refl host⟩
  have hsame := sameSlots_of_tryEnter henter
  have hstill : ¬entered.slots.isActive slot = false := by
    rw [hsame.slots]
    exact hactive
  simp only [if_neg hstill]
  refine ⟨⟨fun hmem => hactive ((h.active _ hlt).mpr hmem), fun hmem => ?_, ?_⟩,
    h.tryEnter henter, hsame⟩
  · rw [(h.tryEnter_eq_none hroom).mpr hmem] at henter
    cases henter
  · rw [hmaximum]
    exact Nat.not_le.mp fun hle => hdisabled ((h.disabled _ hlt).mpr hle)

theorem disabled_after_panic {maximum count panics : Nat} {disabled : Bool}
    (hmaximum : maximum < 2 ^ 32) (hpanics : panics = count % 2 ^ 32)
    (hdisabled : disabled = true ↔ maximum ≤ count) :
    (disabled || decide (maximum ≤ min (panics + 1) (2 ^ 32 - 1))) = true ↔
      maximum ≤ count + 1 := by
  rw [Bool.or_eq_true, decide_eq_true_iff, hdisabled]
  by_cases hspent : maximum ≤ count
  · exact ⟨fun _ => Nat.le_succ_of_le hspent, fun _ => .inl hspent⟩
  · have hcount : panics = count := by rw [hpanics, Nat.mod_eq_of_lt (by omega)]
    omega

theorem recordPanic_extends (slot : CallbackSlot) : Extends host (host.recordPanic slot).2 :=
  ⟨rfl, Nat.le_refl _⟩

theorem recordPanic_registered (slot : CallbackSlot) (h : host.Registered) :
    (host.recordPanic slot).2.Registered :=
  ⟨fun phase => (h.listed phase).extend (recordPanic_extends slot), h.distinct⟩

theorem Matches.recordPanic (h : host.Matches log) (hlt : slot.address < host.slots.next)
    (hmaximum : slot.maximumPanics = host.config.maximumPanicsPerCallback) :
    (host.recordPanic slot).2.Matches (.panicked slot.address :: log) := by
  refine { h with
    active := fun address haddress => ?_
    disabled := fun address haddress => ?_
    panics := fun address haddress => ?_
    removed := fun address hmem => h.removed address (by simpa using hmem)
    panicked := fun address hmem => ?_
    gates := fun gate => by simpa [RenderHost.recordPanic] using h.gates gate }
  · by_cases hsame : address = slot.address
    · subst hsame
      simpa [RenderHost.recordPanic] using h.active slot.address hlt
    · simpa [RenderHost.recordPanic, hsame] using h.active address haddress
  · by_cases hsame : address = slot.address
    · subst hsame
      have hflag := disabled_after_panic host.config.panics_lt (h.panics _ hlt)
        (h.disabled _ hlt)
      simpa [RenderHost.recordPanic, hmaximum] using hflag
    · simpa [RenderHost.recordPanic, hsame, List.count_cons, Ne.symm hsame] using
        h.disabled address haddress
  · by_cases hsame : address = slot.address
    · subst hsame
      simp [RenderHost.recordPanic, h.panics _ hlt]
    · simpa [RenderHost.recordPanic, hsame, List.count_cons, Ne.symm hsame] using
        h.panics address haddress
  · rcases List.mem_cons.mp hmem with heq | hold
    · cases heq
      exact hlt
    · exact h.panicked address hold

end RenderHost

/-- One turn of a snapshot. `log` is what had happened when it came, newest first. -/
structure RenderTurn where
  slot : CallbackSlot
  log : List RenderChange
  outcome : CallbackInvocation

/-- A call of `invoke_all`: the turns taken, the callback that is running, and the slots to
come. -/
structure RenderCall where
  captured : List CallbackSlot
  turns : List RenderTurn
  running : Option (CallbackSlot × List RenderChange)
  rest : List CallbackSlot
  report : RenderInvocationReport

def RenderCall.start (captured : List CallbackSlot) : RenderCall :=
  ⟨captured, [], none, captured, .empty⟩

def RenderCall.record (call : RenderCall) (turn : RenderTurn) : RenderCall :=
  { call with
    turns := call.turns ++ [turn]
    running := none
    report := call.report.record turn.outcome }

inductive CallbackEnd where
  | returned
  | panicked (payload : Payload)
  deriving DecidableEq

inductive RenderAction where
  | register (phase : RenderPhase) (callback : UiCallback)
  | deregister (callback : UiCallback)
  | retire (handle : OwnerHandle)
  | cleanup (owner : OwnerGeneration)
  | capture (phase : RenderPhase)
  | captureFrame (frame : FrameRenderState)
  | invokeAll (captured : List CallbackSlot)
  | advance
  | finish (ended : CallbackEnd)

/-- The callback does not end with a payload whose destructor panics. -/
def RenderAction.Quiet : RenderAction → Prop
  | .finish (.panicked (.panicking _)) => False
  | _ => True

instance : DecidablePred RenderAction.Quiet
  | .finish (.panicked (.panicking _)) => isFalse id
  | .finish (.panicked .quiet) | .finish .returned => isTrue trivial
  | .register _ _ | .deregister _ | .retire _ | .cleanup _ | .capture _ | .captureFrame _
  | .invokeAll _ | .advance => isTrue trivial

/-- One thread that renders. `calls` are the calls it is in, innermost first; between two turns
of the innermost one nothing else runs, and while a callback runs it does what it likes.
`finished` are the calls that returned, `abandoned` those that a panic left. -/
structure RenderThread where
  host : RenderHost
  log : List RenderChange
  snapshots : List (List CallbackSlot)
  calls : List RenderCall
  finished : List RenderCall
  abandoned : List RenderCall

namespace RenderThread

def start (host : RenderHost) : RenderThread := ⟨host, [], [], [], [], []⟩

def atUserCode (thread : RenderThread) : Bool :=
  match thread.calls with
  | [] => true
  | call :: _ => call.running.isSome

/-- What follows the end of the running callback. The panic has been counted when its payload
is dropped; a destructor that panics takes the call with it. -/
def finishCallback (thread : RenderThread) (call : RenderCall) (outer : List RenderCall)
    (slot : CallbackSlot) (before : List RenderChange) : CallbackEnd → RenderThread
  | .returned =>
    { thread with
      host := thread.host.leave slot.callback.owner.gate
      calls := call.record ⟨slot, before, .invoked⟩ :: outer }
  | .panicked payload =>
    let (disabled, host) := thread.host.recordPanic slot
    let thread := { thread with
      host := host.leave slot.callback.owner.gate
      log := .panicked slot.address :: thread.log }
    match payload with
    | .quiet =>
      { thread with calls := call.record ⟨slot, before, .panicked disabled⟩ :: outer }
    | .panicking _ => { thread with calls := outer, abandoned := call :: thread.abandoned }

def advance (thread : RenderThread) : Option RenderThread :=
  match thread.calls with
  | [] => none
  | call :: outer =>
    match call.running, call.rest with
    | some _, _ => none
    | none, [] => some { thread with calls := outer, finished := call :: thread.finished }
    | none, slot :: rest =>
      if thread.host.HasRoom then
        match thread.host.beginInvoke slot with
        | .error (outcome, host) =>
          some { thread with
            host
            calls := { call with rest }.record ⟨slot, thread.log, outcome⟩ :: outer }
        | .ok host =>
          some { thread with
            host
            calls := { call with rest, running := some (slot, thread.log) } :: outer }
      else none

def step (thread : RenderThread) : RenderAction → Option RenderThread
  | .register phase callback =>
    if thread.atUserCode ∧ thread.host.HasRoom then
      some { thread with host := (thread.host.register phase callback).2 }
    else none
  | .deregister callback =>
    if thread.atUserCode then
      let (removed, host) := thread.host.deregister callback
      some { thread with host, log := RenderHost.removedChanges removed ++ thread.log }
    else none
  | .retire handle =>
    if thread.atUserCode then
      (thread.host.retireAndDrain handle).map fun (_, host) =>
        { thread with host, log := .retired handle.gate :: thread.log }
    else none
  | .cleanup owner =>
    if thread.atUserCode then
      (thread.host.cleanupOwnerGeneration owner).map fun ((removed, _), host) =>
        { thread with
          host
          log := (removed.reverse.map fun slot => .retired slot.callback.owner.gate) ++
            (RenderHost.removedChanges removed ++ thread.log) }
    else none
  | .capture phase =>
    if thread.atUserCode then
      some { thread with snapshots := thread.host.snapshot phase :: thread.snapshots }
    else none
  | .captureFrame frame =>
    if thread.atUserCode then
      let captured := thread.host.snapshotFrame frame
      some { thread with
        snapshots := captured.preRender :: captured.postRender ::
          (captured.render.toList ++ thread.snapshots) }
    else none
  | .invokeAll captured =>
    if thread.atUserCode ∧ captured ∈ thread.snapshots then
      some { thread with calls := .start captured :: thread.calls }
    else none
  | .advance => thread.advance
  | .finish ended =>
    match thread.calls with
    | [] => none
    | call :: outer =>
      match call.running with
      | none => none
      | some (slot, before) => some (thread.finishCallback call outer slot before ended)

end RenderThread

/-- The turns of a call so far, its running callback and what is to come are the snapshot, slot
by slot; a slot is called exactly when it is live at its turn; the report counts the turns. -/
structure RenderCall.Faithful (call : RenderCall) (log : List RenderChange) : Prop where
  inOrder : call.turns.map RenderTurn.slot ++
    ((call.running.map Prod.fst).toList ++ call.rest) = call.captured
  turns : ∀ turn ∈ call.turns, turn.log <:+ log ∧
    (turn.outcome.called = true ↔ Live turn.log turn.slot)
  running : ∀ slot before, call.running = some (slot, before) → before <:+ log ∧ Live before slot
  report : call.report = (call.turns.map RenderTurn.outcome).foldl .record .empty

namespace RenderCall.Faithful

variable {call : RenderCall} {log later : List RenderChange}

theorem mono (h : call.Faithful log) (hlog : log <:+ later) : call.Faithful later where
  inOrder := h.inOrder
  turns turn hturn := ⟨(h.turns turn hturn).1.trans hlog, (h.turns turn hturn).2⟩
  running slot before hrunning :=
    ⟨(h.running slot before hrunning).1.trans hlog, (h.running slot before hrunning).2⟩
  report := h.report

theorem start (captured : List CallbackSlot) : (RenderCall.start captured).Faithful log where
  inOrder := rfl
  turns turn hturn := by cases hturn
  running slot before hrunning := by cases hrunning
  report := rfl

variable {rest : List CallbackSlot}

theorem record {turn : RenderTurn} (h : call.Faithful log)
    (hsplit : turn.slot :: rest = (call.running.map Prod.fst).toList ++ call.rest)
    (hlog : turn.log <:+ log) (hcalled : turn.outcome.called = true ↔ Live turn.log turn.slot) :
    (({ call with rest } : RenderCall).record turn).Faithful log where
  inOrder := by
    simp only [RenderCall.record, ← h.inOrder, ← hsplit]
    simp
  turns other hother := by
    simp only [RenderCall.record] at hother
    rcases List.mem_append.mp hother with hold | hnew
    · exact h.turns other hold
    · rw [List.mem_singleton.mp hnew]
      exact ⟨hlog, hcalled⟩
  running slot before hrunning := by cases hrunning
  report := by
    simp only [RenderCall.record, h.report]
    simp

theorem enter {slot : CallbackSlot} (h : call.Faithful log) (hrunning : call.running = none)
    (hrest : call.rest = slot :: rest) (hlive : Live log slot) :
    ({ call with rest, running := some (slot, log) } : RenderCall).Faithful log where
  inOrder := by
    have horder := h.inOrder
    simp only [hrunning, hrest] at horder
    simpa using horder
  turns := h.turns
  running other before hother := by
    cases hother
    exact ⟨List.suffix_rfl, hlive⟩
  report := h.report

end RenderCall.Faithful

namespace RenderThread

structure Sound (thread : RenderThread) : Prop where
  agrees : thread.host.Matches thread.log
  registered : thread.host.Registered
  snapshots : ∀ captured ∈ thread.snapshots, thread.host.Listed captured
  calls : ∀ call, call ∈ thread.calls ∨ call ∈ thread.finished ∨ call ∈ thread.abandoned →
    call.captured ∈ thread.snapshots ∧ call.Faithful thread.log
  finished : ∀ call ∈ thread.finished, call.running = none ∧ call.rest = []

variable {thread next : RenderThread}

theorem Sound.changed (h : thread.Sound) {host : RenderHost} {log : List RenderChange}
    (hagrees : host.Matches log) (hregistered : host.Registered)
    (hextends : thread.host.Extends host) (hlog : thread.log <:+ log) :
    ({ thread with host, log } : RenderThread).Sound where
  agrees := hagrees
  registered := hregistered
  snapshots captured hcaptured := (h.snapshots captured hcaptured).extend hextends
  calls call hcall := ⟨(h.calls call hcall).1, (h.calls call hcall).2.mono hlog⟩
  finished := h.finished

variable {outer : List RenderCall}

theorem Sound.moved (h : thread.Sound) {call call' : RenderCall}
    (hcalls : thread.calls = call :: outer) (hcaptured : call'.captured = call.captured)
    (hfaithful : call'.Faithful thread.log) :
    ({ thread with calls := call' :: outer } : RenderThread).Sound where
  agrees := h.agrees
  registered := h.registered
  snapshots := h.snapshots
  calls other hother := by
    rcases hother with hother | hother
    · rcases List.mem_cons.mp hother with rfl | houter
      · exact ⟨hcaptured ▸ (h.calls call (.inl (hcalls ▸ List.mem_cons_self))).1, hfaithful⟩
      · exact h.calls other (.inl (hcalls ▸ List.mem_cons_of_mem _ houter))
    · exact h.calls other (.inr hother)
  finished := h.finished

theorem Sound.known (h : thread.Sound) {call : RenderCall} (hcall : call ∈ thread.calls)
    {slot : CallbackSlot} (hslot : slot ∈ call.captured) :
    slot.address < thread.host.slots.next ∧
      slot.maximumPanics = thread.host.config.maximumPanicsPerCallback :=
  (h.snapshots call.captured (h.calls call (.inl hcall)).1).known slot hslot

theorem Sound.advance (h : thread.Sound) (hstep : thread.advance = some next) : next.Sound := by
  unfold RenderThread.advance at hstep
  split at hstep
  next => cases hstep
  next call _ hcalls =>
    have hmem : call ∈ thread.calls := hcalls ▸ List.mem_cons_self
    obtain ⟨hcaptured, hfaithful⟩ := h.calls call (.inl hmem)
    split at hstep
    next => cases hstep
    next hrunning hrest =>
      cases hstep
      refine ⟨h.agrees, h.registered, h.snapshots, fun other hother => ?_, fun other hother => ?_⟩
      · rcases hother with houter | hfinished | habandoned
        · exact h.calls other (.inl (hcalls ▸ List.mem_cons_of_mem _ houter))
        · rcases List.mem_cons.mp hfinished with rfl | hold
          · exact ⟨hcaptured, hfaithful⟩
          · exact h.calls other (.inr (.inl hold))
        · exact h.calls other (.inr (.inr habandoned))
      · rcases List.mem_cons.mp hother with rfl | hold
        · exact ⟨hrunning, hrest⟩
        · exact h.finished other hold
    next slot _ hrunning hrest =>
      split at hstep
      next hroom =>
        have hslot : slot ∈ call.captured := by
          rw [← hfaithful.inOrder, hrest]
          simp
        obtain ⟨hlt, hmaximum⟩ := h.known hmem hslot
        have hbegin := h.agrees.beginInvoke hroom hlt hmaximum
        split at hstep
        next host heq =>
          rw [heq] at hbegin
          obtain ⟨hskipped, hdead, hagrees, hsame⟩ := hbegin
          cases hstep
          refine (h.changed hagrees (hsame.registered h.registered) hsame.extends
            List.suffix_rfl).moved hcalls rfl ?_
          refine hfaithful.record ?_ List.suffix_rfl ?_
          · simp [hrunning, hrest]
          · simp [hskipped, hdead]
        next heq =>
          rw [heq] at hbegin
          obtain ⟨hlive, hagrees, hsame⟩ := hbegin
          cases hstep
          exact (h.changed hagrees (hsame.registered h.registered) hsame.extends
            List.suffix_rfl).moved hcalls rfl (hfaithful.enter hrunning hrest hlive)
      next => cases hstep

theorem Sound.finishCallback (h : thread.Sound) {call : RenderCall}
    (hcalls : thread.calls = call :: outer) {slot : CallbackSlot} {before : List RenderChange}
    (hrunning : call.running = some (slot, before)) (ended : CallbackEnd) :
    (thread.finishCallback call outer slot before ended).Sound := by
  have hmem : call ∈ thread.calls := hcalls ▸ List.mem_cons_self
  obtain ⟨_, hfaithful⟩ := h.calls call (.inl hmem)
  obtain ⟨hbefore, hlive⟩ := hfaithful.running slot before hrunning
  have hslot : slot ∈ call.captured := by
    rw [← hfaithful.inOrder, hrunning]
    simp
  obtain ⟨hlt, hmaximum⟩ := h.known hmem hslot
  have hleave : ∀ host : RenderHost,
      host.SameSlots (host.leave slot.callback.owner.gate) := fun host =>
    RenderHost.sameSlots_leave _
  cases ended with
  | returned =>
    refine (h.changed (h.agrees.leave _) ((hleave _).registered h.registered)
      (hleave _).extends List.suffix_rfl).moved hcalls rfl ?_
    exact hfaithful.record (by simp [hrunning]) hbefore
      (by simp [CallbackInvocation.called, hlive])
  | panicked payload =>
    have hpanic := h.agrees.recordPanic hlt hmaximum
    have hregistered := RenderHost.recordPanic_registered slot h.registered
    have hchanged := h.changed (hpanic.leave slot.callback.owner.gate)
      ((hleave _).registered hregistered)
      ((RenderHost.recordPanic_extends slot).trans (hleave _).extends)
      (List.suffix_cons (.panicked slot.address) thread.log)
    cases payload with
    | quiet =>
      refine hchanged.moved hcalls rfl ?_
      exact (hfaithful.mono (List.suffix_cons _ _)).record (by simp [hrunning])
        (hbefore.trans (List.suffix_cons _ _)) (by simp [CallbackInvocation.called, hlive])
    | panicking =>
      refine ⟨hchanged.agrees, hchanged.registered, hchanged.snapshots, fun other hother => ?_,
        hchanged.finished⟩
      rcases hother with houter | hfinished | habandoned
      · exact hchanged.calls other (.inl (hcalls ▸ List.mem_cons_of_mem _ houter))
      · exact hchanged.calls other (.inr (.inl hfinished))
      · rcases List.mem_cons.mp habandoned with rfl | hold
        · exact hchanged.calls other (.inl hmem)
        · exact hchanged.calls other (.inr (.inr hold))

theorem Sound.deregister (h : thread.Sound) (gone : CallbackSlot → Bool) :
    ({ thread with
      host := (thread.host.removeWhere gone).2
      log := RenderHost.removedChanges (thread.host.removeWhere gone).1 ++ thread.log } :
      RenderThread).Sound := by
  obtain ⟨hregistered, hextends⟩ := RenderHost.removeWhere_registered h.registered gone
  exact h.changed (h.agrees.removeWhere fun phase slot hslot =>
    ((h.registered.listed phase).known slot hslot).1) hregistered hextends
    (List.suffix_append _ _)

theorem Sound.captured (h : thread.Sound) (more : List (List CallbackSlot))
    (hmore : ∀ captured ∈ more, thread.host.Listed captured) :
    ({ thread with snapshots := more ++ thread.snapshots } : RenderThread).Sound where
  agrees := h.agrees
  registered := h.registered
  snapshots captured hcaptured := (List.mem_append.mp hcaptured).elim (hmore captured)
    (h.snapshots captured)
  calls call hcall := ⟨List.mem_append_right _ (h.calls call hcall).1, (h.calls call hcall).2⟩
  finished := h.finished

variable {action : RenderAction}

theorem Sound.step (h : thread.Sound) (hstep : thread.step action = some next) : next.Sound := by
  cases action with
  | register phase callback =>
    simp only [RenderThread.step, Option.ite_none_right_eq_some, Option.some.injEq] at hstep
    obtain ⟨_, rfl⟩ := hstep
    obtain ⟨hagrees, hregistered, hextends⟩ := h.agrees.register h.registered phase callback
    exact h.changed hagrees hregistered hextends List.suffix_rfl
  | deregister =>
    simp only [RenderThread.step, Option.ite_none_right_eq_some, Option.some.injEq] at hstep
    obtain ⟨_, rfl⟩ := hstep
    exact h.deregister _
  | retire handle =>
    simp only [RenderThread.step, Option.ite_none_right_eq_some, Option.map_eq_some_iff] at hstep
    obtain ⟨_, ⟨_, host⟩, hretire, rfl⟩ := hstep
    obtain ⟨_, retired, heq, hsame, hagrees⟩ := h.agrees.retireAndDrain handle
    cases hretire.symm.trans heq
    exact h.changed hagrees (hsame.registered h.registered) hsame.extends (List.suffix_cons _ _)
  | cleanup owner =>
    simp only [RenderThread.step, Option.ite_none_right_eq_some, Option.map_eq_some_iff] at hstep
    obtain ⟨_, ⟨⟨_, _⟩, host⟩, hcleanup, rfl⟩ := hstep
    have hremoved := h.deregister fun slot => decide (slot.callback.owner.identity = owner)
    obtain ⟨_, retired, heq, hsame, hagrees⟩ :=
      hremoved.agrees.retireAll .alreadyQuiescent
        (thread.host.removeWhere fun slot => decide (slot.callback.owner.identity = owner)).1
    simp only [RenderHost.cleanupOwnerGeneration, heq, Option.bind_eq_bind, Option.bind_some,
      Option.some.injEq, Prod.mk.injEq] at hcleanup
    obtain ⟨⟨rfl, rfl⟩, rfl⟩ := hcleanup
    exact hremoved.changed hagrees (hsame.registered hremoved.registered) hsame.extends
      (List.suffix_append _ _)
  | capture phase =>
    simp only [RenderThread.step, Option.ite_none_right_eq_some, Option.some.injEq] at hstep
    obtain ⟨_, rfl⟩ := hstep
    exact h.captured [thread.host.snapshot phase] fun captured hcaptured =>
      List.mem_singleton.mp hcaptured ▸ h.registered.listed phase
  | captureFrame frame =>
    simp only [RenderThread.step, Option.ite_none_right_eq_some, Option.some.injEq] at hstep
    obtain ⟨_, rfl⟩ := hstep
    refine h.captured ((thread.host.snapshotFrame frame).preRender ::
      (thread.host.snapshotFrame frame).postRender ::
        (thread.host.snapshotFrame frame).render.toList) fun captured hcaptured => ?_
    rcases List.mem_cons.mp hcaptured with rfl | hcaptured
    · exact h.registered.listed .preRender
    rcases List.mem_cons.mp hcaptured with rfl | hcaptured
    · exact h.registered.listed .postRender
    · have hrender : captured = thread.host.snapshot .render := by
        simp only [RenderHost.snapshotFrame] at hcaptured
        split at hcaptured
        next => exact List.mem_singleton.mp hcaptured
        next => cases hcaptured
      exact hrender ▸ h.registered.listed .render
  | invokeAll captured =>
    simp only [RenderThread.step, Option.ite_none_right_eq_some, Option.some.injEq] at hstep
    obtain ⟨⟨_, hcaptured⟩, rfl⟩ := hstep
    refine ⟨h.agrees, h.registered, h.snapshots, fun call hcall => ?_, h.finished⟩
    rcases hcall with hcall | hcall
    · rcases List.mem_cons.mp hcall with rfl | houter
      · exact ⟨hcaptured, .start captured⟩
      · exact h.calls call (.inl houter)
    · exact h.calls call (.inr hcall)
  | advance => exact h.advance hstep
  | finish ended =>
    simp only [RenderThread.step] at hstep
    split at hstep
    next => cases hstep
    next hcalls =>
      split at hstep
      next => cases hstep
      next hrunning =>
        cases hstep
        exact h.finishCallback hcalls hrunning ended

theorem sound_start {config : RenderRegistryConfig} {host : RenderHost}
    (hnew : RenderHost.new config = .ok host) : (start host).Sound := by
  obtain ⟨config', hvalid, hhost⟩ := except_bind_ok hnew
  cases hhost
  have hbudget : 0 < config'.maximumPanicsPerCallback := by
    unfold RenderRegistryConfig.validate at hvalid
    split at hvalid
    next => cases hvalid
    next =>
      split at hvalid
      next => cases hvalid
      next hpositive =>
        cases hvalid
        exact Nat.pos_of_ne_zero hpositive
  have hagrees : RenderHost.Matches
      ⟨config', fun _ => [], .empty, fun _ => ⟨true, 0⟩, []⟩ [] := by
    refine ⟨hbudget, ?_, ?_, ?_, ?_, ?_, ?_, ?_⟩ <;> simp [CallbackSlots.empty]
  refine ⟨hagrees, ⟨fun phase => ⟨List.Pairwise.nil, fun slot hslot => ?_⟩,
    fun phase => List.Pairwise.nil⟩, fun captured hcaptured => ?_, fun call hcall => ?_,
    fun call hcall => ?_⟩
  · cases hslot
  · cases hcaptured
  · rcases hcall with hcall | hcall | hcall <;> cases hcall
  · cases hcall

theorem abandoned_of_advance (hstep : thread.advance = some next) :
    next.abandoned = thread.abandoned := by
  unfold RenderThread.advance at hstep
  split at hstep
  next => cases hstep
  next =>
    split at hstep
    next => cases hstep
    next =>
      cases hstep
      rfl
    next =>
      split at hstep
      next =>
        split at hstep
        all_goals
          cases hstep
          rfl
      next => cases hstep

theorem abandoned_of_step (hstep : thread.step action = some next) :
    next.abandoned = [] ↔ thread.abandoned = [] ∧ action.Quiet := by
  have hkept : action.Quiet → next.abandoned = thread.abandoned →
      (next.abandoned = [] ↔ thread.abandoned = [] ∧ action.Quiet) := by
    intro hquiet heq
    rw [heq]
    exact ⟨fun h => ⟨h, hquiet⟩, And.left⟩
  cases action with
  | advance => exact hkept trivial (abandoned_of_advance hstep)
  | finish ended =>
    simp only [RenderThread.step] at hstep
    split at hstep
    next => cases hstep
    next =>
      split at hstep
      next => cases hstep
      next =>
        cases hstep
        cases ended with
        | returned => exact hkept trivial rfl
        | panicked payload =>
          cases payload with
          | quiet => exact hkept trivial rfl
          | panicking =>
            constructor
            · intro h
              cases h
            · intro h
              exact h.2.elim
  | retire | cleanup =>
    simp only [RenderThread.step, Option.ite_none_right_eq_some, Option.map_eq_some_iff] at hstep
    obtain ⟨_, _, _, rfl⟩ := hstep
    exact hkept trivial rfl
  | _ =>
    simp only [RenderThread.step, Option.ite_none_right_eq_some, Option.some.injEq] at hstep
    obtain ⟨_, rfl⟩ := hstep
    exact hkept trivial rfl

theorem abandoned_of_run {final : RenderThread} {actions : List RenderAction}
    (hrun : runSteps step thread actions = some final) :
    final.abandoned = [] ↔ thread.abandoned = [] ∧ ∀ action ∈ actions, action.Quiet := by
  induction actions generalizing thread with
  | nil =>
    cases hrun
    simp
  | cons _ _ ih =>
    obtain ⟨_, hstep, hrest⟩ := runSteps_cons.mp hrun
    rw [ih hrest, abandoned_of_step hstep, List.forall_mem_cons, and_assoc]

/-- What holds of every thread that renders: no phase has a registration twice; a snapshot is in
the order of registration; a call of `invoke_all` takes its slots in turn and calls those that
are live at their turn; when it returns, every slot had its turn and the report counts them all;
and nothing that a callback does waits for itself. -/
structure Dispatches (thread : RenderThread) : Prop where
  distinct : ∀ phase, (thread.host.phases phase).Pairwise fun slot other =>
    slot.callback.sameIdentity other.callback = false
  inOrder : ∀ captured ∈ thread.snapshots,
    (captured.map CallbackSlot.address).Pairwise (· < ·)
  faithful : ∀ call, call ∈ thread.calls ∨ call ∈ thread.finished ∨ call ∈ thread.abandoned →
    call.captured ∈ thread.snapshots ∧ call.Faithful thread.log
  complete : ∀ call ∈ thread.finished, call.turns.map RenderTurn.slot = call.captured ∧
    call.report.total = call.captured.length
  retires : ∀ handle, (thread.host.retireAndDrain handle).isSome = true

theorem total_foldl (outcomes : List CallbackInvocation) (report : RenderInvocationReport) :
    (outcomes.foldl .record report).total = report.total + outcomes.length := by
  induction outcomes generalizing report with
  | nil => rfl
  | cons _ _ ih =>
    rw [List.foldl_cons, ih, RenderInvocationReport.total_record, List.length_cons]
    omega

theorem Sound.dispatches (h : thread.Sound) : thread.Dispatches where
  distinct := h.registered.distinct
  inOrder captured hcaptured := (h.snapshots captured hcaptured).ordered
  faithful := h.calls
  complete call hcall := by
    obtain ⟨hrunning, hrest⟩ := h.finished call hcall
    obtain ⟨_, hfaithful⟩ := h.calls call (.inr (.inl hcall))
    have horder : call.turns.map RenderTurn.slot = call.captured := by
      simpa [hrunning, hrest] using hfaithful.inOrder
    refine ⟨horder, ?_⟩
    rw [hfaithful.report, total_foldl, ← horder]
    simp [RenderInvocationReport.empty, RenderInvocationReport.total]
  retires handle := by
    obtain ⟨_, _, heq, _⟩ := h.agrees.retireAndDrain handle
    simp [heq]

/-- Every run dispatches the live registrations, and every call of `invoke_all` in it goes on to
its end exactly when no callback panics with a payload whose destructor panics. -/
theorem frames_dispatch_live_registrations {config : RenderRegistryConfig} {host : RenderHost}
    {actions : List RenderAction} {thread : RenderThread}
    (hnew : RenderHost.new config = .ok host)
    (hrun : runSteps step (start host) actions = some thread) :
    thread.Dispatches ∧ (thread.abandoned = [] ↔ ∀ action ∈ actions, action.Quiet) := by
  have hsound : thread.Sound := runSteps_invariant (P := Sound)
    (fun _ _ _ hstep h => h.step hstep) hrun (sound_start hnew)
  refine ⟨hsound.dispatches, ?_⟩
  rw [abandoned_of_run hrun]
  exact and_iff_right rfl

/-- Two callbacks of one owner, registered for the main phase, and a frame whose first callback
panics with this payload. -/
def panickingFrame (payload : Payload) : List RenderAction :=
  let owner : OwnerHandle := ⟨⟨1, 1⟩, 0⟩
  [.register .render ⟨owner, .managed 1⟩, .register .render ⟨owner, .managed 2⟩, .capture .render,
    .invokeAll [⟨0, ⟨owner, .managed 1⟩, 3⟩, ⟨1, ⟨owner, .managed 2⟩, 3⟩], .advance,
    .finish (.panicked payload)]

/-- After an ordinary panic the frame goes on, calls the second callback and reports both. -/
theorem panicking_callback_reported : ∃ host thread,
    RenderHost.new .default = .ok host ∧
      runSteps step (start host) (panickingFrame .quiet ++
        [.advance, .finish .returned, .advance]) = some thread ∧
      thread.Dispatches ∧ thread.abandoned = [] ∧
      thread.finished.map RenderCall.report = [⟨1, 1, 0, 0, 0⟩] := by
  obtain ⟨host, hnew, thread, hrun, habandoned, hreports⟩ : ∃ host,
      RenderHost.new .default = .ok host ∧ ∃ thread,
        runSteps step (start host) (panickingFrame .quiet ++
          [.advance, .finish .returned, .advance]) = some thread ∧
        thread.abandoned = [] ∧ thread.finished.map RenderCall.report = [⟨1, 1, 0, 0, 0⟩] :=
    ⟨_, rfl, _, rfl, rfl, rfl⟩
  exact ⟨host, thread, hnew, hrun, (frames_dispatch_live_registrations hnew hrun).1, habandoned,
    hreports⟩

/-- A destructor that panics ends the whole call: it does not return, and the second callback,
live as it is, has no turn. -/
theorem panicking_destructor_abandons : ∃ host thread call slot,
    RenderHost.new .default = .ok host ∧
      runSteps step (start host) (panickingFrame (.panicking .quiet)) = some thread ∧
      thread.calls = [] ∧ thread.finished = [] ∧ thread.abandoned = [call] ∧
      slot ∈ call.rest ∧ Live thread.log slot :=
  ⟨_, _, _, ⟨1, ⟨⟨⟨1, 1⟩, 0⟩, .managed 2⟩, 3⟩, rfl, rfl, rfl, rfl, rfl, List.mem_cons_self,
    by decide⟩

end RenderThread

end Nexus.UiHost
