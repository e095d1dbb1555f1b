import Nexus.AddonModule

namespace Nexus

open Fallible

namespace ModuleWorld

def become (w : ModuleWorld) (shared : Shared) (state : ModuleState) : ModuleWorld :=
  { toShared := shared, module := { w.module with state := state } }

def loadEntered (w : ModuleWorld) : Shared :=
  ((w.toShared.enterGate w.module.gate).2.record (.loadEntered w.module.id
    w.module.ownedDefinition.signature
    (w.module.ownedDefinition.flags.contains .launchOnly))).leaveGate w.module.gate 1

def unloadEntered (w : ModuleWorld) : Shared :=
  if w.module.unloadCallback.isSome then w.toShared.record (.unloadEntered w.module.id)
  else w.toShared

end ModuleWorld

/-- Everything an operation short of the release can do to a module, one change at a time. -/
inductive ModuleMove : ModuleWorld → ModuleWorld → Prop
  | load {w : ModuleWorld} : w.module.state = .inspected →
      (w.gates w.module.gate).accepting = true →
      ModuleMove w (w.become w.loadEntered .active)
  | loadFailed {w : ModuleWorld} : w.module.state = .inspected →
      (w.gates w.module.gate).accepting = true →
      ModuleMove w (w.become (w.loadEntered.closeGate w.module.gate) .activationFailed)
  | shutdown {w : ModuleWorld} : w.module.state = .active ∨ w.module.state = .activationFailed →
      ModuleMove w (w.become (w.toShared.closeGate w.module.gate) .shutdownRequested)
  | wait {w : ModuleWorld} (leaving : Nat) : w.module.state = .shutdownRequested →
      ModuleMove w { w with toShared := (w.toShared.waitForDrain w.module.gate leaving).2 }
  | quiesce {w : ModuleWorld} : w.module.state = .shutdownRequested →
      (w.gates w.module.gate).inFlight = 0 →
      ModuleMove w (w.become w.toShared .callbacksQuiesced)
  | unload {w : ModuleWorld} : w.module.state = .callbacksQuiesced →
      ModuleMove w (w.become w.unloadEntered .unloadCallbackComplete)
  | complete {w : ModuleWorld} : w.module.state = .unloadCallbackComplete →
      ModuleMove w (w.become w.toShared .hostCleanupComplete)

abbrev ModuleMoves := Relation.ReflTransGen ModuleMove

namespace AddonModule

variable {w : ModuleWorld}

theorem ensureState_ok {operation : ModuleOperation} {required : ModuleState}
    (h : w.module.state = required) :
    ensureState operation required w = (.ok (), w) := by
  rw [ensureState, bind_of_ok (read_apply w), ensure_true h]
  rfl

theorem ensureState_error {operation : ModuleOperation} {required : ModuleState}
    (h : w.module.state ≠ required) :
    ensureState operation required w = (.error (.invalidTransition operation w.module.state), w) := by
  rw [ensureState, bind_of_ok (read_apply w), ensure_false h]
  rfl

theorem activate_blocked (callback : Call Unit)
    (h : w.module.state = .inspected → (w.gates w.module.gate).accepting = false) :
    ∃ e, activate callback w = (.error e, w) := by
  by_cases hs : w.module.state = .inspected
  · refine ⟨.callbackAdmissionClosed, ?_⟩
    have hno : (w.toShared.enterGate w.module.gate).1 ≠ true := by
      simp [Shared.enterGate, CallbackGate.tryEnter, h hs]
    rw [activate, bind_of_ok (ensureState_ok hs), bind_of_ok (read_apply w)]
    simp only [ensure_false hno, fail_bind, fail_apply]
  · exact ⟨_, bind_of_error (ensureState_error hs) _⟩

theorem activate_entered (callback : Call Unit) (hs : w.module.state = .inspected)
    (hg : (w.gates w.module.gate).accepting = true) :
    activate callback w = match callback with
      | .returned () => (.ok (), w.become w.loadEntered .active)
      | .unwound => (.error (.rustPanic .loadCallback),
          w.become (w.loadEntered.closeGate w.module.gate) .activationFailed) := by
  have hyes : (w.toShared.enterGate w.module.gate).1 = true := by
    simp [Shared.enterGate, CallbackGate.tryEnter, hg]
  rw [activate, bind_of_ok (ensureState_ok hs), bind_of_ok (read_apply w)]
  simp only [ensure_true hyes, pure_bind', shared, bind_of_ok (modify_apply _ _)]
  cases callback <;> rfl

theorem requestShutdown_ok (h : w.module.state = .active ∨ w.module.state = .activationFailed) :
    requestShutdown w =
      (.ok (), w.become (w.toShared.closeGate w.module.gate) .shutdownRequested) := by
  rw [requestShutdown, bind_of_ok (read_apply w)]
  rcases h with h | h <;> rw [h] <;> rfl

theorem requestShutdown_error (ha : w.module.state ≠ .active)
    (hf : w.module.state ≠ .activationFailed) :
    ∃ e, requestShutdown w = (.error e, w) := by
  refine ⟨.invalidTransition .requestShutdown w.module.state, ?_⟩
  rw [requestShutdown, bind_of_ok (read_apply w)]
  cases hs : w.module.state
  case active => exact absurd hs ha
  case activationFailed => exact absurd hs hf
  all_goals rfl

theorem waitForCallbacks_apply (leaving : Nat) (hs : w.module.state = .shutdownRequested) :
    waitForCallbacks leaving w =
      if (w.gates w.module.gate).inFlight ≤ leaving then
        (.ok (), w.become (w.toShared.waitForDrain w.module.gate leaving).2 .callbacksQuiesced)
      else (.error .drainTimedOut,
        { w with toShared := (w.toShared.waitForDrain w.module.gate leaving).2 }) := by
  have hfst := w.toShared.waitForDrain_fst w.module.gate leaving
  rw [waitForCallbacks, bind_of_ok (ensureState_ok hs), bind_of_ok (read_apply w)]
  simp only [shared, bind_of_ok (modify_apply _ _)]
  split
  next h =>
    rw [ensure_true (by simpa [hfst] using h)]
    rfl
  next h =>
    rw [ensure_false (by simpa [hfst] using h)]
    rfl

theorem invokeUnload_apply (callback : Call Unit) (hs : w.module.state = .callbacksQuiesced) :
    (invokeUnload callback w).2 = w.become w.unloadEntered .unloadCallbackComplete ∧
      ((invokeUnload callback w).1 = .ok () ↔
        w.module.unloadCallback = none ∨ callback = .returned ()) := by
  unfold invokeUnload
  rw [bind_of_ok (ensureState_ok hs), bind_of_ok (read_apply w)]
  unfold ModuleWorld.unloadEntered
  rcases hu : w.module.unloadCallback with _ | _
  · exact ⟨rfl, by simp [setState]⟩
  · simp only [shared, bind_of_ok (modify_apply _ _), setState]
    rcases callback with ⟨⟨⟩⟩ | _ <;> exact ⟨rfl, by simp⟩

theorem completeHostCleanup_ok (hs : w.module.state = .unloadCallbackComplete) :
    completeHostCleanup (.returned (.ok ())) w =
      (.ok (), w.become w.toShared .hostCleanupComplete) := by
  rw [completeHostCleanup, bind_of_ok (ensureState_ok hs)]
  rfl

theorem completeHostCleanup_failed {cleanup : Call (Except Unit Unit)}
    (h : cleanup ≠ .returned (.ok ())) : ∃ e, completeHostCleanup cleanup w = (.error e, w) := by
  by_cases hs : w.module.state = .unloadCallbackComplete
  · unfold completeHostCleanup
    rw [bind_of_ok (ensureState_ok hs)]
    rcases cleanup with (⟨⟨⟩⟩ | ⟨⟨⟩⟩) | _
    · exact ⟨.hostCleanupFailed, rfl⟩
    · exact absurd rfl h
    · exact ⟨.rustPanic .hostCleanup, rfl⟩
  · exact ⟨_, bind_of_error (ensureState_error hs) _⟩

section Moves

theorem activate_moves (callback : Call Unit) : ModuleMoves w (activate callback w).2 := by
  by_cases h : w.module.state = .inspected ∧ (w.gates w.module.gate).accepting = true
  · rw [activate_entered _ h.1 h.2]
    cases callback
    · exact .single (.load h.1 h.2)
    · exact .single (.loadFailed h.1 h.2)
  · obtain ⟨_, he⟩ := activate_blocked callback (w := w)
      fun hs => by simpa [hs] using h
    rw [he]

theorem requestShutdown_moves : ModuleMoves w (requestShutdown w).2 := by
  by_cases h : w.module.state = .active ∨ w.module.state = .activationFailed
  · rw [requestShutdown_ok h]
    exact .single (.shutdown h)
  · obtain ⟨_, he⟩ := requestShutdown_error (w := w) (fun ha => h (Or.inl ha))
      (fun hf => h (Or.inr hf))
    rw [he]

theorem waitForCallbacks_moves (leaving : Nat) :
    ModuleMoves w (waitForCallbacks leaving w).2 := by
  by_cases hs : w.module.state = .shutdownRequested
  · rw [waitForCallbacks_apply _ hs]
    split
    next hle =>
      exact .tail (.single (.wait leaving hs))
        (.quiesce hs (Shared.waitForDrain_inFlight hle))
    next => exact .single (.wait leaving hs)
  · rw [waitForCallbacks, bind_of_error (ensureState_error hs)]

theorem invokeUnload_moves (callback : Call Unit) :
    ModuleMoves w (invokeUnload callback w).2 := by
  by_cases hs : w.module.state = .callbacksQuiesced
  · rw [(invokeUnload_apply _ hs).1]
    exact .single (.unload hs)
  · unfold invokeUnload
    rw [bind_of_error (ensureState_error hs)]

theorem completeHostCleanup_moves (cleanup : Call (Except Unit Unit)) :
    ModuleMoves w (completeHostCleanup cleanup w).2 := by
  by_cases h : w.module.state = .unloadCallbackComplete ∧ cleanup = .returned (.ok ())
  · obtain ⟨hs, rfl⟩ := h
    rw [completeHostCleanup_ok hs]
    exact .single (.complete hs)
  · by_cases hs : w.module.state = .unloadCallbackComplete
    · obtain ⟨_, he⟩ := completeHostCleanup_failed (w := w) fun hc => h ⟨hs, hc⟩
      rw [he]
    · unfold completeHostCleanup
      rw [bind_of_error (ensureState_error hs)]

end Moves

section Release

variable {m : AddonModule} {s : Shared} {freeLibrary : Call (Except PlatformError Unit)}

def Freeable (m : AddonModule) (s : Shared) (handle : ModuleHandle) : Prop :=
  Releasable m.state ∧ (s.gates m.gate).inFlight = 0 ∧ m.handle = some handle

theorem closeUnactivated_inFlight (m : AddonModule) (s : Shared) (ref : GateRef) :
    ((m.closeUnactivated s).gates ref).inFlight = (s.gates ref).inFlight := by
  unfold closeUnactivated
  split
  · rw [Shared.closeGate, Shared.setGate_gates, Function.update_apply]
    split
    next h => rw [h]; rfl
    next => rfl
  · rfl

variable (freeLibrary) in
theorem release_refused (h : ∀ handle, ¬m.Freeable s handle) :
    ∃ e, release freeLibrary m s = (.error (m.retain e), s) ∨
      release freeLibrary m s = (.error (m.retain e), m.closeUnactivated s) := by
  by_cases hr : Releasable m.state
  · by_cases hg : (s.gates m.gate).inFlight = 0
    · refine ⟨.invalidTransition .release m.state, Or.inr ?_⟩
      have hh : m.handle = none := by
        rcases hh : m.handle with _ | handle
        · rfl
        · exact absurd ⟨hr, hg, hh⟩ (h handle)
      unfold release
      rw [ensure_true hr, pure_bind', bind_of_ok (modify_apply _ _), bind_of_ok (read_apply _),
        ensure_true (by rw [closeUnactivated_inFlight, hg]), pure_bind', hh, require_none,
        fail_bind, fail_apply]
    · refine ⟨.callbackDrainIncomplete, Or.inr ?_⟩
      unfold release
      rw [ensure_true hr, pure_bind', bind_of_ok (modify_apply _ _), bind_of_ok (read_apply _),
        ensure_false (by rwa [closeUnactivated_inFlight]), fail_bind, fail_apply]
  · refine ⟨.invalidTransition .release m.state, Or.inl ?_⟩
    unfold release
    rw [ensure_false hr, fail_bind, fail_apply]

theorem release_freed {handle : ModuleHandle} (h : m.Freeable s handle) :
    release freeLibrary m s =
      ((match freeLibrary with
        | .returned (.ok ()) => .ok ()
        | .returned (.error source) => .error (m.retain (.platform .freeLibrary source))
        | .unwound => .error (retain { m with handle := none, state := .releaseUncertain }
            (.rustPanic .freeLibrary))),
        (m.closeUnactivated s).record (.freed m.id handle .release freeLibrary)) := by
  unfold release
  rw [ensure_true h.1, pure_bind', bind_of_ok (modify_apply _ _), bind_of_ok (read_apply _),
    ensure_true (by rw [closeUnactivated_inFlight, h.2.1]), pure_bind', h.2.2, require_some,
    pure_bind', bind_of_ok (modify_apply _ _)]
  rcases freeLibrary with (source | ⟨⟨⟩⟩) | _ <;> rfl

theorem drop_cases (freeLibrary : Call (Except PlatformError Unit)) (m : AddonModule)
    (s : Shared) :
    drop freeLibrary m s = m.closeUnactivated s ∨
      ∃ handle, m.Freeable s handle ∧ m.releaseOnDrop = true ∧
        drop freeLibrary m s =
          (m.closeUnactivated s).record (.freed m.id handle .drop freeLibrary) := by
  unfold drop
  rcases hh : m.handle with _ | handle
  · exact Or.inl rfl
  · by_cases h : m.releaseOnDrop = true ∧ ((m.closeUnactivated s).gates m.gate).inFlight = 0 ∧
        Releasable m.state
    · refine Or.inr ⟨handle, ⟨h.2.2, ?_, hh⟩, h.1, if_pos h⟩
      rw [← closeUnactivated_inFlight]
      exact h.2.1
    · exact Or.inl (if_neg h)

end Release

end AddonModule

namespace AddonLoader

variable {answers : LoadAnswers} {limits : MetadataLimits} {id : Nat} {handle : ModuleHandle}

theorem inspect_ok {m : AddonModule} (h : inspect answers limits id handle = .ok m) :
    m.id = id ∧ m.handle = some handle ∧ m.state = .inspected ∧ m.releaseOnDrop = true ∧
      m.unloadCallback = m.definition.unload ∧
      m.ownedDefinition.signature = m.definition.signature ∧
      m.ownedDefinition.signature ≠ 0 ∧ m.ownedDefinition.flags = m.definition.flags := by
  unfold inspect at h
  obtain ⟨image, _, h⟩ := except_bind_ok h
  obtain ⟨_, _, h⟩ := except_bind_ok h
  obtain ⟨_, _, h⟩ := except_bind_ok h
  obtain ⟨_, _, h⟩ := except_bind_ok h
  obtain ⟨_, _, h⟩ := except_bind_ok h
  obtain ⟨definition, _, h⟩ := except_bind_ok h
  obtain ⟨_, hv, h⟩ := except_bind_ok h
  obtain ⟨owned, ho, h⟩ := except_bind_ok h
  have hrun : (validateAndCopyDefinition (.ok ⟨definition, image.readBounded⟩) limits).run =
      .returned (.ok owned) := by
    rcases hr : (validateAndCopyDefinition (.ok ⟨definition, image.readBounded⟩) limits).run
      with (e | owned') | _ <;> rw [hr] at hv <;> cases hv <;> cases ho
    rfl
  obtain ⟨_, hlease, hs, hne, hf, _, _⟩ := validateAndCopyDefinition_ok hrun
  obtain rfl := Except.ok.inj hlease
  split at h
  next => cases h
  next =>
    obtain ⟨_, _, h⟩ := except_bind_ok h
    obtain ⟨_, _, h⟩ := except_bind_ok h
    cases h
    exact ⟨rfl, rfl, rfl, rfl, rfl, hs, hne, hf⟩

theorem loadAbsolute_cases (answers : LoadAnswers) (limits : MetadataLimits) (s : Shared) :
    (∃ e, loadAbsolute answers limits s = (.error e, s)) ∨
    (∃ e handle, loadAbsolute answers limits s =
      (.error e, { s.record (.loaded s.nextModule handle) with nextModule := s.nextModule + 1 }.record
        (.freed s.nextModule handle .provisional answers.freeLibrary))) ∨
    ∃ m handle, inspect answers limits s.nextModule handle = .ok m ∧
      loadAbsolute answers limits s =
        (.ok m, { s.record (.loaded s.nextModule handle) with
          nextModule := s.nextModule + 1 }.openGate m.gate) := by
  unfold loadAbsolute
  rcases hl : platformCall .loadLibrary .loadLibrary answers.loadLibrary with e | handle
  · exact Or.inl ⟨e, rfl⟩
  · refine Or.inr ?_
    rcases hi : inspect answers limits s.nextModule handle with e | m
    · refine Or.inl ⟨e, handle, ?_⟩
      simp only [ofExcept_ok, pure_bind', bind_of_ok (read_apply _), bind_of_ok (modify_apply _ _),
        hi, fail_apply]
    · refine Or.inr ⟨m, handle, hi, ?_⟩
      simp only [ofExcept_ok, pure_bind', bind_of_ok (read_apply _), bind_of_ok (modify_apply _ _),
        hi, pure_apply]

end AddonLoader

end Nexus
