import Mathlib.Tactic.IntervalCases
import Nexus.HostLifecycle

namespace Nexus

open Fallible

inductive DrainMove (owner : OwnerToken) : HostWorld → HostWorld → Prop
  | drain {w : HostWorld} {r : AddonRecord} : w.host.records owner = some r →
      (r.state = .unloadRequested ∨ r.state = .draining) →
      DrainMove owner w (w.setRecord owner (some { r with state := .draining }))
  | attempt {w : HostWorld} {r : AddonRecord} {phase : CleanupPhase}
      {outcome : Call (Except CleanupError Unit)} : w.host.records owner = some r →
      r.state = .draining → CleanupPhase.order[r.cleanupCursor]? = some phase →
      (CleanupPhase.preDrainCount ≤ r.cleanupCursor → (w.gates (.host owner)).inFlight = 0) →
      outcome ≠ .returned (.ok ()) →
      DrainMove owner w (w.withShared (·.record (.cleaned owner phase outcome)))
  | clean {w : HostWorld} {r : AddonRecord} {phase : CleanupPhase} :
      w.host.records owner = some r →
      r.state = .draining → CleanupPhase.order[r.cleanupCursor]? = some phase →
      (CleanupPhase.preDrainCount ≤ r.cleanupCursor → (w.gates (.host owner)).inFlight = 0) →
      DrainMove owner w
        ((w.withShared (·.record (.cleaned owner phase (.returned (.ok ()))))).setRecord owner
          (some { r with cleanupCursor := r.cleanupCursor + 1 }))
  | wait {w : HostWorld} {leaving : Nat} :
      DrainMove owner w (w.withShared fun s => (s.waitForDrain (.host owner) leaving).2)

abbrev DrainMoves (owner : OwnerToken) := Relation.ReflTransGen (DrainMove owner)

/-- What a generation that has a record goes through up to the release of its module, one change
at a time. -/
inductive HostAdvance (owner : OwnerToken) : HostWorld → HostWorld → Prop
  | load {w : HostWorld} {r : AddonRecord} : w.host.records owner = some r →
      r.state = .discovered →
      HostAdvance owner w (w.setRecord owner (some { r with state := .loaded }))
  | request {w : HostWorld} {r : AddonRecord} : w.host.records owner = some r →
      r.state = .loaded →
      HostAdvance owner w ((w.withShared (·.closeGate (.host owner))).setRecord owner
        (some { r with state := .unloadRequested }))
  | fail {w : HostWorld} {r : AddonRecord} : w.host.records owner = some r →
      r.state = .discovered →
      HostAdvance owner w (((w.withShared (·.closeGate (.host owner))).setRecord owner
        (some { r with state := .failed })).dropActive owner)
  | draining {w w' : HostWorld} : DrainMove owner w w' → HostAdvance owner w w'

abbrev HostAdvances (owner : OwnerToken) := Relation.ReflTransGen (HostAdvance owner)

/-- Everything an operation of the host on `owner` can do to the host, one change at a time. -/
inductive HostMove (owner : OwnerToken) : HostWorld → HostWorld → Prop
  | admitted {w : HostWorld} {definition : OwnedAddonDefinition} {mode : LoadMode} :
      owner.signature = definition.signature →
      w.host.activeBySignature owner.signature = none →
      checkedAdd ((w.host.lastGeneration owner.signature).getD 0) 1 = some owner.generation →
      HostMove owner w (w.admitted owner definition mode)
  | advance {w w' : HostWorld} : HostAdvance owner w w' → HostMove owner w w'
  | release {w : HostWorld} {r : AddonRecord} : w.host.records owner = some r →
      r.state = .draining → r.cleanupCursor = CleanupPhase.order.length →
      (w.gates (.host owner)).inFlight = 0 →
      HostMove owner w ((w.setRecord owner (some { r with state := .unloaded })).dropActive owner)
  | cancel {w : HostWorld} {r : AddonRecord} : w.host.records owner = some r →
      r.state = .discovered →
      HostMove owner w (((w.withShared (·.closeGate (.host owner))).dropActive owner).setRecord
        owner none)

abbrev HostMoves (owner : OwnerToken) := Relation.ReflTransGen (HostMove owner)

namespace AddonHost

variable {w : HostWorld} {owner : OwnerToken} {r : AddonRecord}

theorem recordMut_some (h : w.host.records owner = some r) :
    recordMut owner w = (.ok r, w) := by
  simp [recordMut, bind_apply, h]

theorem recordMut_none (h : w.host.records owner = none) :
    recordMut owner w = (.error (.error (.unknownOwner owner)), w) := by
  simp [recordMut, bind_apply, h]

variable {α : Type} {expected : List LifecycleState} {label : String} {rest : AddonRecord → HostM α}

theorem guard_error (h : ∀ r, w.host.records owner = some r → r.state ∉ expected) :
    ∃ e, (recordMut owner >>= fun r => ensureState r expected label >>= fun _ => rest r) w =
      (.error e, w) := by
  rcases hr : w.host.records owner with _ | r
  · exact ⟨.error (.unknownOwner owner), bind_of_error (recordMut_none hr) _⟩
  · refine ⟨.error (.invalidTransition r.owner label r.state), ?_⟩
    rw [bind_of_ok (recordMut_some hr), ensureState, ensure_false (h r hr)]
    rfl

theorem guard_ok (h : w.host.records owner = some r) (hs : r.state ∈ expected) :
    (recordMut owner >>= fun r => ensureState r expected label >>= fun _ => rest r) w =
      rest r w := by
  rw [bind_of_ok (recordMut_some h), ensureState, ensure_true hs]
  rfl

variable (owner) in
theorem acknowledgeLoaded_ok (h : w.host.records owner = some r) (hs : r.state = .discovered) :
    acknowledgeLoaded owner w =
      (.ok (), w.setRecord owner (some { r with state := .loaded })) := by
  rw [acknowledgeLoaded, guard_ok h (by simpa using hs)]
  rfl

variable (owner) in
theorem acknowledgeLoaded_error (h : ∀ r, w.host.records owner = some r → r.state ≠ .discovered) :
    ∃ e, acknowledgeLoaded owner w = (.error e, w) :=
  guard_error fun r hr => by simpa using h r hr

theorem requestUnload_ok {reason : UnloadReason} (h : w.host.records owner = some r)
    (hs : r.state = .loaded)
    (hf : ¬(reason = .runtime ∧ r.definition.flags.contains .disableHotLoading = true)) :
    requestUnload owner reason w =
      (.ok (), (w.withShared (·.closeGate (.host owner))).setRecord owner
        (some { r with state := .unloadRequested })) := by
  rw [requestUnload, guard_ok h (by simpa using hs), ensure_true hf]
  rfl

variable (owner) in
theorem requestUnload_error (reason : UnloadReason)
    (h : ∀ r, w.host.records owner = some r → r.state = .loaded →
      reason = .runtime ∧ r.definition.flags.contains .disableHotLoading = true) :
    ∃ e, requestUnload owner reason w = (.error e, w) := by
  by_cases hl : ∃ r, w.host.records owner = some r ∧ r.state = .loaded
  · obtain ⟨r, hr, hs⟩ := hl
    refine ⟨.error (.runtimeUnloadForbidden owner), ?_⟩
    rw [requestUnload, guard_ok hr (by simpa using hs), ensure_false (not_not.mpr (h r hr hs))]
    rfl
  · exact guard_error fun r hr => by simpa using fun hs => hl ⟨r, hr, hs⟩

theorem acknowledgeModuleReleased_ok (h : w.host.records owner = some r)
    (hs : r.state = .draining) (hc : r.cleanupCursor = CleanupPhase.order.length)
    (hg : (w.gates (.host owner)).inFlight = 0) :
    acknowledgeModuleReleased owner w =
      (.ok (), (w.setRecord owner (some { r with state := .unloaded })).dropActive owner) := by
  rw [acknowledgeModuleReleased, guard_ok h (by simpa using hs), bind_of_ok (read_apply w),
    ensure_true (by simp [hc, hg])]
  rfl

variable (owner) in
theorem acknowledgeModuleReleased_error
    (h : ∀ r, w.host.records owner = some r → r.state = .draining →
      r.cleanupCursor = CleanupPhase.order.length → (w.gates (.host owner)).inFlight ≠ 0) :
    ∃ e, acknowledgeModuleReleased owner w = (.error e, w) := by
  by_cases hd : ∃ r, w.host.records owner = some r ∧ r.state = .draining
  · obtain ⟨r, hr, hs⟩ := hd
    have hn : r.cleanupCursor ≠ CleanupPhase.order.length ∨
        (w.gates (.host owner)).inFlight ≠ 0 := by
      by_cases hc : r.cleanupCursor = CleanupPhase.order.length
      · exact Or.inr (h r hr hs hc)
      · exact Or.inl hc
    refine ⟨.error (.drainIncomplete owner), ?_⟩
    rw [acknowledgeModuleReleased, guard_ok hr (by simpa using hs), bind_of_ok (read_apply w),
      ensure_false (not_not.mpr hn)]
    rfl
  · exact guard_error fun r hr => by simpa using fun hs => hd ⟨r, hr, hs⟩

theorem acknowledgeActivationFailed_ok (h : w.host.records owner = some r)
    (hs : r.state = .discovered) :
    acknowledgeActivationFailed owner w =
      (.ok (), ((w.withShared (·.closeGate (.host owner))).setRecord owner
        (some { r with state := .failed })).dropActive owner) := by
  rw [acknowledgeActivationFailed, guard_ok h (by simpa using hs)]
  rfl

variable (owner) in
theorem acknowledgeActivationFailed_error
    (h : ∀ r, w.host.records owner = some r → r.state ≠ .discovered) :
    ∃ e, acknowledgeActivationFailed owner w = (.error e, w) :=
  guard_error fun r hr => by simpa using h r hr

theorem cancelDiscovery_ok (h : w.host.records owner = some r) (hs : r.state = .discovered) :
    cancelDiscovery owner w =
      (.ok (), ((w.withShared (·.closeGate (.host owner))).dropActive owner).setRecord
        owner none) := by
  rw [cancelDiscovery, guard_ok h (by simpa using hs)]
  rfl

variable (owner) in
theorem cancelDiscovery_error (h : ∀ r, w.host.records owner = some r → r.state ≠ .discovered) :
    ∃ e, cancelDiscovery owner w = (.error e, w) :=
  guard_error fun r hr => by simpa using h r hr

@[simp] theorem setRecord_toShared (w : HostWorld) (owner : OwnerToken) (r : Option AddonRecord) :
    (w.setRecord owner r).toShared = w.toShared := rfl

@[simp] theorem setRecord_records (w : HostWorld) (owner : OwnerToken) (r : Option AddonRecord) :
    (w.setRecord owner r).host.records = Function.update w.host.records owner r := rfl

@[simp] theorem withShared_host (w : HostWorld) (f : Shared → Shared) :
    (w.withShared f).host = w.host := rfl

@[simp] theorem withShared_toShared (w : HostWorld) (f : Shared → Shared) :
    (w.withShared f).toShared = f w.toShared := rfl

@[simp] theorem dropActive_records (w : HostWorld) (owner : OwnerToken) :
    (w.dropActive owner).host.records = w.host.records := by
  unfold HostWorld.dropActive
  split <;> rfl

@[simp] theorem dropActive_toShared (w : HostWorld) (owner : OwnerToken) :
    (w.dropActive owner).toShared = w.toShared := by
  unfold HostWorld.dropActive
  split <;> rfl

variable {cleaner : Cleaner} {phase : CleanupPhase}

theorem cleanupNextPhase_failed (h : w.host.records owner = some r)
    (hp : CleanupPhase.order[r.cleanupCursor]? = some phase)
    (hc : cleaner phase ≠ .returned (.ok ())) :
    ∃ e, cleanupNextPhase cleaner owner w =
      (.error e, w.withShared (·.record (.cleaned owner phase (cleaner phase)))) := by
  rw [cleanupNextPhase, bind_of_ok (recordMut_some h), hp, require_some, pure_bind']
  simp only [shared, bind_of_ok (modify_apply _ w)]
  rcases hcl : cleaner phase with (source | ⟨⟨⟩⟩) | _
  · exact ⟨.error (.cleanup owner phase source), rfl⟩
  · exact absurd hcl hc
  · exact ⟨.unwound, rfl⟩

theorem cleanupNextPhase_ok (h : w.host.records owner = some r)
    (hp : CleanupPhase.order[r.cleanupCursor]? = some phase)
    (hc : cleaner phase = .returned (.ok ())) :
    cleanupNextPhase cleaner owner w =
      (.ok (), (w.withShared (·.record (.cleaned owner phase (.returned (.ok ()))))).setRecord owner
        (some { r with cleanupCursor := r.cleanupCursor + 1 })) := by
  rw [cleanupNextPhase, bind_of_ok (recordMut_some h), hp, require_some, pure_bind']
  simp only [shared, bind_of_ok (modify_apply _ w), hc]
  rfl

/-- The phases a loop of `turns` turns asks for all succeed. -/
def PhasesSucceed (cleaner : Cleaner) (cursor turns : Nat) : Prop :=
  ∀ phase ∈ (CleanupPhase.order.drop cursor).take turns, cleaner phase = .returned (.ok ())

variable {cursor : Nat}

theorem phasesSucceed_succ {turns : Nat} (hp : CleanupPhase.order[cursor]? = some phase) :
    PhasesSucceed cleaner cursor (turns + 1) ↔
      cleaner phase = .returned (.ok ()) ∧ PhasesSucceed cleaner (cursor + 1) turns := by
  obtain ⟨hlt, rfl⟩ := List.getElem?_eq_some_iff.mp hp
  unfold PhasesSucceed
  rw [List.drop_eq_getElem_cons hlt, List.take_succ_cons]
  simp

theorem cleanupPhases_moves (cleaner : Cleaner) (turns : Nat)
    (h : w.host.records owner = some r) (hs : r.state = .draining)
    (hl : r.cleanupCursor + turns ≤ CleanupPhase.order.length)
    (hg : CleanupPhase.preDrainCount < r.cleanupCursor + turns →
      (w.gates (.host owner)).inFlight = 0) :
    DrainMoves owner w (cleanupPhases cleaner owner turns w).2 ∧
      (cleanupPhases cleaner owner turns w).2.gates = w.gates ∧
      ((cleanupPhases cleaner owner turns w).1 = .ok () ↔
        PhasesSucceed cleaner r.cleanupCursor turns) ∧
      ((cleanupPhases cleaner owner turns w).1 = .ok () →
        (cleanupPhases cleaner owner turns w).2.host.records owner =
          some { r with cleanupCursor := r.cleanupCursor + turns }) := by
  induction turns generalizing w r with
  | zero => exact ⟨.refl, rfl, by simp [cleanupPhases, PhasesSucceed], fun _ => h⟩
  | succ _ ih =>
    obtain ⟨phase, hp⟩ : ∃ phase, CleanupPhase.order[r.cleanupCursor]? = some phase :=
      ⟨_, List.getElem?_eq_getElem (by omega)⟩
    have hguard : CleanupPhase.preDrainCount ≤ r.cleanupCursor →
        (w.gates (.host owner)).inFlight = 0 := fun hle => hg (by omega)
    by_cases hc : cleaner phase = .returned (.ok ())
    · have hm := DrainMove.clean h hs hp hguard
      have hnext := ih (w := (w.withShared (·.record (.cleaned owner phase
          (.returned (.ok ()))))).setRecord owner
          (some { r with cleanupCursor := r.cleanupCursor + 1 }))
        (Function.update_self ..) hs (by simp only; omega) (fun hlt => hg (by simp only at hlt; omega))
      rw [cleanupPhases, bind_of_ok (cleanupNextPhase_ok h hp hc), phasesSucceed_succ hp]
      refine ⟨.head hm hnext.1, hnext.2.1, ?_, fun hok => ?_⟩
      · simpa [hc] using hnext.2.2.1
      · rw [hnext.2.2.2 hok]
        simp only [Option.some.injEq, AddonRecord.mk.injEq, true_and]
        omega
    · have hm := DrainMove.attempt h hs hp hguard hc
      obtain ⟨_, he⟩ := cleanupNextPhase_failed h hp hc
      rw [cleanupPhases, bind_of_error he, phasesSucceed_succ hp]
      exact ⟨.single hm, rfl, by simp [hc], fun hok => by simp at hok⟩

theorem cleanupUntil_moves (cleaner : Cleaner) (limit : Nat)
    (h : w.host.records owner = some r) (hs : r.state = .draining)
    (hl : limit ≤ CleanupPhase.order.length)
    (hg : CleanupPhase.preDrainCount < limit → (w.gates (.host owner)).inFlight = 0) :
    DrainMoves owner w (cleanupUntil cleaner owner limit w).2 ∧
      (cleanupUntil cleaner owner limit w).2.gates = w.gates ∧
      ((cleanupUntil cleaner owner limit w).1 = .ok () ↔
        PhasesSucceed cleaner r.cleanupCursor (limit - r.cleanupCursor)) ∧
      ((cleanupUntil cleaner owner limit w).1 = .ok () →
        (cleanupUntil cleaner owner limit w).2.host.records owner =
          some { r with cleanupCursor := max r.cleanupCursor limit }) := by
  rw [cleanupUntil, bind_of_ok (recordMut_some h)]
  rcases Nat.lt_or_ge r.cleanupCursor limit with hlt | hge
  · have hmax : r.cleanupCursor + (limit - r.cleanupCursor) = limit := by omega
    have hmoves := cleanupPhases_moves cleaner (limit - r.cleanupCursor)
      h hs (by omega) (fun hp => hg (by omega))
    rw [hmax] at hmoves
    rwa [Nat.max_eq_right (le_of_lt hlt)]
  · have hturns : limit - r.cleanupCursor = 0 := by omega
    rw [hturns, Nat.max_eq_left hge]
    exact ⟨.refl, rfl, by simp [cleanupPhases, PhasesSucceed], fun _ => h⟩

variable (owner) in
theorem drainRegistrations_error (cleaner : Cleaner) (leaving : Nat)
    (h : ∀ r, w.host.records owner = some r →
      r.state ≠ .unloadRequested ∧ r.state ≠ .draining) :
    ∃ e, drainRegistrations cleaner leaving owner w = (.error e, w) :=
  guard_error fun r hr => by simpa using h r hr

theorem waitForDrain_apply (leaving : Nat) (w : HostWorld) :
    waitForDrain owner leaving w =
      (.ok (decide ((w.gates (.host owner)).inFlight ≤ leaving)),
        w.withShared fun s => (s.waitForDrain (.host owner) leaving).2) := by
  simp only [waitForDrain, shared, bind_of_ok (read_apply w), bind_of_ok (modify_apply _ w),
    pure_apply, Shared.waitForDrain_fst]

theorem remaining_succeed (h : cursor ≤ CleanupPhase.order.length) :
    (PhasesSucceed cleaner cursor (CleanupPhase.preDrainCount - cursor) ∧
      PhasesSucceed cleaner (max cursor CleanupPhase.preDrainCount)
        (CleanupPhase.order.length - max cursor CleanupPhase.preDrainCount)) ↔
    ∀ phase ∈ CleanupPhase.order.drop cursor, cleaner phase = .returned (.ok ()) := by
  have h3 : cursor ≤ 3 := h
  interval_cases cursor <;>
    simp [PhasesSucceed, CleanupPhase.order, CleanupPhase.preDrainCount, and_assoc]

/-- The drain succeeds exactly when the phases from the cursor on succeed and the gate empties
before the deadline. -/
theorem drainRegistrations_moves (cleaner : Cleaner) (leaving : Nat)
    (h : w.host.records owner = some r) (hs : r.state = .unloadRequested ∨ r.state = .draining)
    (hr : r.cleanupCursor ≤ CleanupPhase.order.length) :
    DrainMoves owner w (drainRegistrations cleaner leaving owner w).2 ∧
      ((drainRegistrations cleaner leaving owner w).1 = .ok () ↔
        (∀ phase ∈ CleanupPhase.order.drop r.cleanupCursor, cleaner phase = .returned (.ok ())) ∧
          (w.gates (.host owner)).inFlight ≤ leaving) ∧
      ((drainRegistrations cleaner leaving owner w).1 = .ok () →
        (drainRegistrations cleaner leaving owner w).2.host.records owner =
            some { r with state := .draining, cleanupCursor := CleanupPhase.order.length } ∧
          ((drainRegistrations cleaner leaving owner w).2.gates (.host owner)).inFlight = 0) := by
  set w0 := w.setRecord owner (some { r with state := .draining }) with hw0
  have hm0 : DrainMove owner w w0 := .drain h hs
  have hr0 : w0.host.records owner = some { r with state := .draining } :=
    Function.update_self ..
  have hearly := cleanupUntil_moves cleaner CleanupPhase.preDrainCount
    hr0 rfl (by decide) (fun hlt => absurd hlt (lt_irrefl _))
  have hfirst : drainRegistrations cleaner leaving owner w =
      (cleanupUntil cleaner owner CleanupPhase.preDrainCount >>= fun _ => do
        let drained ← waitForDrain owner leaving
        ensure (drained = true) (.error (.drainTimedOut owner))
        cleanupUntil cleaner owner CleanupPhase.order.length) w0 := by
    rw [drainRegistrations, guard_ok h (by simpa using hs)]
    rfl
  rw [← remaining_succeed hr, and_assoc, hfirst]
  rcases hx : cleanupUntil cleaner owner CleanupPhase.preDrainCount w0 with ⟨_ | _, w1⟩
  · rw [hx] at hearly
    rw [bind_of_error hx]
    refine ⟨.head hm0 hearly.1, ?_, fun hok => by simp at hok⟩
    have hno : ¬PhasesSucceed cleaner r.cleanupCursor
        (CleanupPhase.preDrainCount - r.cleanupCursor) := by simpa using hearly.2.2.1
    simp [hno]
  · rw [hx] at hearly
    obtain ⟨hmoves, hgates, hphases, hrecord⟩ := hearly
    have hphases : PhasesSucceed cleaner r.cleanupCursor
        (CleanupPhase.preDrainCount - r.cleanupCursor) := hphases.mp rfl
    have hgates : w1.gates (.host owner) = w.gates (.host owner) := by rw [hgates]; rfl
    rw [bind_of_ok hx, bind_of_ok (waitForDrain_apply leaving w1), hgates]
    set w2 := w1.withShared fun s => (s.waitForDrain (.host owner) leaving).2 with hw2
    have hm2 : DrainMove owner w1 w2 := .wait
    by_cases hd : (w.gates (.host owner)).inFlight ≤ leaving
    · have hr2 : w2.host.records owner = some { r with
          state := .draining
          cleanupCursor := max r.cleanupCursor CleanupPhase.preDrainCount } := hrecord rfl
      have hg2 : (w2.gates (.host owner)).inFlight = 0 :=
        Shared.waitForDrain_inFlight (by rw [hgates]; exact hd)
      have hlate := cleanupUntil_moves cleaner CleanupPhase.order.length
        hr2 rfl le_rfl (fun _ => hg2)
      rw [ensure_true (by simpa using hd), pure_bind']
      refine ⟨.head hm0 (hmoves.trans (.head hm2 hlate.1)), ?_, fun hok => ⟨?_, ?_⟩⟩
      · rw [hlate.2.2.1]
        simp [hphases, hd]
      · rw [hlate.2.2.2 hok]
        simp only [Nat.max_eq_right (Nat.max_le.mpr ⟨hr, (by decide :
          CleanupPhase.preDrainCount ≤ CleanupPhase.order.length)⟩)]
      · rw [hlate.2.1]
        exact hg2
    · rw [ensure_false (by simpa using hd), fail_bind, fail_apply]
      exact ⟨.head hm0 (hmoves.tail hm2), by simp [hd], fun hok => by simp at hok⟩

theorem discover_cases (access : Except ModuleAccessError DefinitionLease) (mode : LoadMode)
    (limits : MetadataLimits) (w : HostWorld) :
    (∃ e, discover access mode limits w = (.error e, w)) ∨
      ∃ owner definition, (validateAndCopyDefinition access limits).run =
          .returned (.ok definition) ∧ owner.signature = definition.signature ∧
        w.host.activeBySignature owner.signature = none ∧
        checkedAdd ((w.host.lastGeneration owner.signature).getD 0) 1 = some owner.generation ∧
        discover access mode limits w = (.ok owner, w.admitted owner definition mode) := by
  unfold discover
  rcases hv : (validateAndCopyDefinition access limits).run with (source | definition) | _
  · exact Or.inl ⟨.error (.definition source), rfl⟩
  · simp only [bind_of_ok (read_apply w)]
    rcases ha : w.host.activeBySignature definition.signature with _ | existing
    · by_cases hf : mode = .hotReload ∧ (definition.flags.contains .disableHotLoading ∨
        definition.flags.contains .launchOnly)
      · refine Or.inl ⟨.error (.hotReloadForbidden definition.signature), ?_⟩
        simp only [ensure_false (not_not.mpr hf), fail_bind, fail_apply]
      · simp only [ensure_true hf, pure_bind']
        rcases hg : checkedAdd ((w.host.lastGeneration definition.signature).getD 0) 1
          with _ | generation
        · exact Or.inl ⟨.error (.generationExhausted definition.signature), rfl⟩
        · exact Or.inr ⟨⟨definition.signature, generation⟩, definition, rfl, rfl, ha, hg, rfl⟩
    · exact Or.inl ⟨.error (.duplicateSignature definition.signature existing), rfl⟩
  · exact Or.inl ⟨.unwound, rfl⟩

end AddonHost

end Nexus
