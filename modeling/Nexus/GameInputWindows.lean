import Mathlib.Logic.Equiv.Basic
import Nexus.GameInputSessions

namespace Nexus.GameWindows

def Separate {ι : Type} (held : ι → Option GameWindowLease) : Prop :=
  ∀ holder other window lease, held holder = some window → held other = some lease →
    window.generation = lease.generation → holder = other

section Separate

variable {ι : Type} [DecidableEq ι] {held : ι → Option GameWindowLease}

theorem Separate.swap (h : Separate held) (first second : ι) :
    Separate (held ∘ Equiv.swap first second) := by
  intro holder other window lease hwindow hlease hgeneration
  exact (Equiv.swap first second).injective (h _ _ window lease hwindow hlease hgeneration)

theorem Separate.release (h : Separate held) (gone : ι) :
    Separate (Function.update held gone none) := by
  intro holder other window lease hwindow hlease hgeneration
  rcases eq_or_ne holder gone with rfl | hholder
  · rw [Function.update_self] at hwindow
    cases hwindow
  rcases eq_or_ne other gone with rfl | hother
  · rw [Function.update_self] at hlease
    cases hlease
  rw [Function.update_of_ne hholder] at hwindow
  rw [Function.update_of_ne hother] at hlease
  exact h _ _ window lease hwindow hlease hgeneration

theorem Separate.issue (h : Separate held) (holder : ι) {window : GameWindowLease}
    (hfresh : ∀ other lease, held other = some lease → lease.generation ≠ window.generation) :
    Separate (Function.update held holder (some window)) := by
  intro first second one two hone htwo hgeneration
  rcases eq_or_ne first holder with rfl | hfirst
  · rcases eq_or_ne second first with rfl | hsecond
    · rfl
    rw [Function.update_self] at hone
    rw [Function.update_of_ne hsecond] at htwo
    obtain rfl := Option.some.inj hone
    exact absurd hgeneration.symm (hfresh second two htwo)
  rw [Function.update_of_ne hfirst] at hone
  rcases eq_or_ne second holder with rfl | hsecond
  · rw [Function.update_self] at htwo
    obtain rfl := Option.some.inj htwo
    exact absurd hgeneration (hfresh first one hone)
  rw [Function.update_of_ne hsecond] at htwo
  exact h _ _ one two hone htwo hgeneration

end Separate

namespace GameInputWorld

def held (world : GameInputWorld) : Option Nat → Option GameWindowLease
  | none => world.sessions.active.map (·.window)
  | some thread => (world.calls thread).bind Call.window?

def Pending (world : GameInputWorld) (window : GameWindowLease) : Prop :=
  ∃ thread identity, world.calls thread = some (.selected identity window)

variable {world next : GameInputWorld} {action : GameInputAction} {window : GameWindowLease}

theorem Pending.held (h : Pending world window) :
    ∃ thread, world.held (some thread) = some window := by
  obtain ⟨thread, _, hcall⟩ := h
  refine ⟨thread, ?_⟩
  change (world.calls thread).bind Call.window? = some window
  rw [hcall]
  rfl

inductive Move (world : GameInputWorld) (action : GameInputAction) (next : GameInputWorld) :
    Prop where
  | selected (thread : Nat) (identity : RenderSessionIdentity) (window : GameWindowLease)
      (hidle : world.calls thread = none)
      (hgeneration : window.generation = world.adapter.nextGeneration + 1)
      (hword : window.generation < 2 ^ 64)
      (hnext : next = setCall thread (some (.selected identity window))
        { world with adapter := ⟨window.generation, some window⟩ })
  | refused (thread : Nat) (identity : RenderSessionIdentity) (window : GameWindowLease)
      (hcall : world.calls thread = some (.selected identity window))
      (hreason : world.sessions.stopped = true ∨ 2 ^ 64 ≤ world.sessions.nextAttachmentId + 1)
      (hnext : next = setCall thread (some (.dropping (some window) none)) world)
  | attached (thread : Nat) (identity : RenderSessionIdentity) (attached : ActiveGameWindow)
      (haction : action = .attachSession thread)
      (hcall : world.calls thread = some (.selected identity attached.window))
      (hopen : world.sessions.stopped = false)
      (hid : attached.attachmentId = world.sessions.nextAttachmentId + 1)
      (hnext : next = setCall thread
        (some (.dropping (world.sessions.active.map (·.window)) (some attached.lease)))
        { world with
          sessions := ⟨attached.attachmentId, world.sessions.stopped, some attached⟩
          attached := attached :: world.attached })
  | withdrawn (thread : Nat) (stopped : Bool) (leases : List GameInputSessionLease)
      (hidle : world.calls thread = none)
      (hstopped : world.sessions.stopped = true → stopped = true)
      (hleases : leases ⊆ world.leases)
      (hnext : next = setCall thread
        (some (.dropping (world.sessions.active.map (·.window)) none))
        { world with sessions := ⟨world.sessions.nextAttachmentId, stopped, none⟩, leases })
  | ignored (thread : Nat) (leases : List GameInputSessionLease)
      (hidle : world.calls thread = none) (hleases : leases ⊆ world.leases)
      (hnext : next = setCall thread (some (.dropping none none)) { world with leases })
  | released (thread : Nat) (window : GameWindowLease) (result : Option GameInputSessionLease)
      (hcall : world.calls thread = some (.dropping (some window) result))
      (hnext : next = world.dropWindow thread (some window) result)
  | returned (thread : Nat) (result : Option GameInputSessionLease)
      (hcall : world.calls thread = some (.dropping none result))
      (hnext : next = world.dropWindow thread none result)
  | foundDead (window : GameWindowLease) (hactive : world.adapter.active = some window)
      (hnext : next = { world with
        adapter := { world.adapter with active := none }
        dead := window.generation :: world.dead })
  | unchanged (hnext : next = world)

theorem postAll_cases (outcomes : List PostOutcome) (state : WindowState) :
    WindowState.postAll outcomes state = state ∨
      WindowState.postAll outcomes state = { state with active := none } := by
  induction outcomes with
  | nil => exact .inl rfl
  | cons outcome _ ih =>
    match outcome with
    | .unencoded => exact .inl rfl
    | .posted => exact ih
    | .refused true => exact .inl rfl
    | .refused false => exact .inr rfl

theorem send_cases (live : Bool) (outcomes : List PostOutcome) (state : WindowState) :
    state.send live outcomes = state ∨
      state.send live outcomes = { state with active := none } := by
  unfold WindowState.send
  split
  · exact .inl rfl
  split
  · exact postAll_cases outcomes state
  · exact .inr rfl

theorem move_of_send (live : Bool) (outcomes : List PostOutcome) :
    Move world action (world.send live outcomes) := by
  rcases hactive : world.adapter.active with _ | window
  · have hsame : world.adapter.send live outcomes = world.adapter := by
      unfold WindowState.send
      rw [hactive]
      rfl
    refine .unchanged ?_
    unfold send
    dsimp only
    rw [hsame, hactive]
    rfl
  rcases send_cases live outcomes world.adapter with hsend | hsend
  · refine .unchanged ?_
    unfold send
    dsimp only
    rw [hsend, hactive]
    rfl
  · refine .foundDead window hactive ?_
    unfold send
    dsimp only
    rw [hsend, hactive]
    rfl

variable {thread : Nat}

theorem move_of_attachRenderSession (hidle : world.calls thread = none)
    (identity : RenderSessionIdentity) (hwnd : Nat) (live : Bool) :
    Move world action (world.attachRenderSession thread identity hwnd live) := by
  unfold attachRenderSession WindowState.attach
  by_cases hinvalid : hwnd = 0 ∨ live = false
  · rw [if_pos hinvalid]
    exact .unchanged rfl
  rw [if_neg hinvalid]
  unfold Overlay.checkedAdd
  by_cases hword : world.adapter.nextGeneration + 1 < 2 ^ 64
  · rw [if_pos hword]
    exact .selected thread identity ⟨world.adapter.nextGeneration + 1, hwnd⟩ hidle rfl hword rfl
  · rw [if_neg hword]
    exact .unchanged rfl

theorem move_of_attachSession {identity : RenderSessionIdentity}
    (hcall : world.calls thread = some (.selected identity window)) :
    Move world (.attachSession thread) (world.attachSession thread identity window) := by
  unfold attachSession GameWindowState.attach
  by_cases hstopped : world.sessions.stopped = true
  · rw [if_pos hstopped]
    exact .refused thread identity window hcall (.inl hstopped) rfl
  rw [if_neg hstopped]
  unfold Overlay.checkedAdd
  by_cases hword : world.sessions.nextAttachmentId + 1 < 2 ^ 64
  · rw [if_pos hword]
    exact .attached thread identity ⟨identity, world.sessions.nextAttachmentId + 1, window⟩ rfl
      hcall (Bool.eq_false_iff.mpr hstopped) rfl rfl
  · rw [if_neg hword]
    exact .refused thread identity window hcall (.inr (Nat.le_of_not_lt hword)) rfl

theorem move_of_dropLease (hidle : world.calls thread = none) (lease : GameInputSessionLease) :
    Move world action (world.dropLease thread lease) := by
  have hleases : world.leases.erase lease ⊆ world.leases := List.erase_subset
  unfold dropLease GameWindowState.detach
  rcases hactive : world.sessions.active with _ | active
  · exact .ignored thread _ hidle hleases rfl
  dsimp only
  split
  · refine .withdrawn thread world.sessions.stopped _ hidle id hleases ?_
    rw [hactive]
  · exact .ignored thread _ hidle hleases rfl

theorem move_of_step (h : step world action = some next) : Move world action next := by
  match action with
  | .attachRenderSession thread identity hwnd live =>
    rcases hidle : world.calls thread with _ | call
    · simp only [step, hidle] at h
      exact Option.some.inj h ▸ move_of_attachRenderSession hidle identity hwnd live
    · simp only [step, hidle] at h
      cases h
  | .attachSession thread =>
    rcases hcall : world.calls thread with _ | _ | _
    · simp only [step, hcall] at h
      cases h
    · simp only [step, hcall] at h
      exact Option.some.inj h ▸ move_of_attachSession hcall
    · simp only [step, hcall] at h
      cases h
  | .dropLease thread lease =>
    rcases hidle : world.calls thread with _ | call
    · simp only [step, hidle] at h
      split at h
      · exact Option.some.inj h ▸ move_of_dropLease hidle lease
      · cases h
    · simp only [step, hidle] at h
      cases h
  | .shutdown thread =>
    rcases hidle : world.calls thread with _ | call
    · simp only [step, hidle] at h
      exact .withdrawn thread true world.leases hidle (fun _ => rfl) (List.Subset.refl _)
        (Option.some.inj h).symm
    · simp only [step, hidle] at h
      cases h
  | .dropWindow thread =>
    rcases hcall : world.calls thread with _ | _ | ⟨_ | window, result⟩
    · simp only [step, hcall] at h
      cases h
    · simp only [step, hcall] at h
      cases h
    · simp only [step, hcall] at h
      exact .returned thread result hcall (Option.some.inj h).symm
    · simp only [step, hcall] at h
      exact .released thread window result hcall (Option.some.inj h).symm
  | .send live outcomes => exact Option.some.inj h ▸ move_of_send live outcomes

theorem held_setCall (thread : Nat) (call : Option Call) (world : GameInputWorld) :
    held (setCall thread call world) =
      Function.update (held world) (some thread) (call.bind Call.window?) := by
  funext holder
  rcases holder with _ | other
  · exact (Function.update_of_ne (by nofun) _ _).symm
  rcases eq_or_ne other thread with rfl | hne
  · rw [Function.update_self]
    change (Function.update world.calls other call other).bind Call.window? = _
    rw [Function.update_self]
  · rw [Function.update_of_ne (fun heq => hne (Option.some.inj heq))]
    change (Function.update world.calls thread call other).bind Call.window? = _
    rw [Function.update_of_ne hne]
    rfl

variable {other : GameInputWorld}

theorem held_traded {active : Option ActiveGameWindow} {call : Call}
    (hcalls : other.calls = world.calls) (hactive : other.sessions.active = active)
    (hgiven : active.map (·.window) = held world (some thread))
    (htaken : call.window? = held world none) :
    held (setCall thread (some call) other) = held world ∘ Equiv.swap none (some thread) := by
  rw [held_setCall, Equiv.comp_swap_eq_update]
  funext holder
  rcases holder with _ | reader
  · rw [Function.update_of_ne (by nofun), Function.update_self]
    change other.sessions.active.map (·.window) = _
    rw [hactive, hgiven]
  rcases eq_or_ne reader thread with rfl | hne
  · rw [Function.update_self, Function.update_of_ne (by nofun), Function.update_self]
    exact htaken
  · rw [Function.update_of_ne (fun heq => hne (Option.some.inj heq)),
      Function.update_of_ne (by nofun),
      Function.update_of_ne (fun heq => hne (Option.some.inj heq))]
    change (other.calls reader).bind Call.window? = _
    rw [hcalls]
    rfl

inductive Holding (world next : GameInputWorld) : Prop where
  | issued (thread : Nat) (window : GameWindowLease)
      (hgeneration : window.generation = world.adapter.nextGeneration + 1)
      (hword : window.generation < 2 ^ 64)
      (hadapter : next.adapter = ⟨window.generation, some window⟩)
      (hheld : held next = Function.update (held world) (some thread) (some window))
  | swapped (first second : Option Nat) (hadapter : next.adapter = world.adapter)
      (hheld : held next = held world ∘ Equiv.swap first second)
  | released (holder : Option Nat) (window : GameWindowLease)
      (hwindow : held world holder = some window)
      (hadapter : next.adapter = world.adapter.detach window.generation)
      (hheld : held next = Function.update (held world) holder none)
  | kept (hgeneration : next.adapter.nextGeneration = world.adapter.nextGeneration)
      (hadapter : next.adapter.active = world.adapter.active ∨ next.adapter.active = none)
      (hheld : held next = held world)

variable {call : Option Call}

theorem held_of_call (h : world.calls thread = call) :
    held world (some thread) = call.bind Call.window? := by
  change (world.calls thread).bind Call.window? = _
  rw [h]

theorem held_unchanged {before : Option Call} (hcalls : other.calls = world.calls)
    (hactive : other.sessions.active = world.sessions.active)
    (hbefore : world.calls thread = before)
    (hsame : call.bind Call.window? = before.bind Call.window?) :
    held (setCall thread call other) = held world := by
  have hother : held other = held world := by
    funext holder
    rcases holder with _ | reader
    · change other.sessions.active.map (·.window) = _
      rw [hactive]
      rfl
    · change (other.calls reader).bind Call.window? = _
      rw [hcalls]
      rfl
  rw [held_setCall, hother, hsame, ← held_of_call hbefore]
  exact Function.update_eq_self (some thread) (held world)

theorem Move.holding (h : Move world action next) : Holding world next := by
  cases h with
  | selected thread _ window _ hgeneration hword hnext =>
    subst hnext
    exact .issued thread window hgeneration hword rfl (held_setCall thread _ _)
  | refused _ _ _ hcall _ hnext | returned _ _ hcall hnext =>
    subst hnext
    exact .kept rfl (.inl rfl) (held_unchanged rfl rfl hcall rfl)
  | attached thread _ _ _ hcall _ _ hnext =>
    subst hnext
    exact .swapped none (some thread) rfl (held_traded rfl rfl (held_of_call hcall).symm rfl)
  | withdrawn thread _ _ hidle _ _ hnext =>
    subst hnext
    exact .swapped none (some thread) rfl (held_traded rfl rfl (held_of_call hidle).symm rfl)
  | ignored _ _ hidle _ hnext =>
    subst hnext
    exact .kept rfl (.inl rfl) (held_unchanged rfl rfl hidle rfl)
  | released thread window _ hcall hnext =>
    subst hnext
    exact .released (some thread) window (held_of_call hcall) rfl (held_setCall thread _ _)
  | foundDead _ _ hnext =>
    subst hnext
    exact .kept rfl (.inr rfl) rfl
  | unchanged hnext =>
    subst hnext
    exact .kept rfl (.inl rfl) rfl

/-- The adapter's window has a lease, and the leases are of different selections. -/
structure Held (world : GameInputWorld) : Prop where
  separate : Separate (held world)
  bounded : ∀ holder window, held world holder = some window →
    window.generation ≤ world.adapter.nextGeneration
  word : world.adapter.nextGeneration < 2 ^ 64
  leased : ∀ window, world.adapter.active = some window →
    ∃ holder, held world holder = some window

theorem held_start : Held start where
  separate holder _ _ _ hwindow := by
    rcases holder with _ | _
    · cases hwindow
    · cases hwindow
  bounded holder _ hwindow := by
    rcases holder with _ | _
    · cases hwindow
    · cases hwindow
  word := by decide
  leased _ hactive := by cases hactive

theorem detach_active {generation : Nat} {state : WindowState} {window : WindowAttachment}
    (h : (state.detach generation).active = some window) :
    state.active = some window ∧ window.generation ≠ generation := by
  unfold WindowState.detach at h
  split at h
  · cases h
  next hother =>
    refine ⟨h, fun heq => hother ?_⟩
    rw [h]
    exact decide_eq_true heq

theorem detach_nextGeneration (generation : Nat) (state : WindowState) :
    (state.detach generation).nextGeneration = state.nextGeneration := by
  unfold WindowState.detach
  split
  · rfl
  · rfl

theorem Held.move (h : Held world) (hmove : Move world action next) : Held next := by
  cases hmove.holding with
  | issued thread window _ hword hadapter hheld =>
    have hfresh : ∀ other lease, held world other = some lease →
        lease.generation ≠ window.generation := fun other lease hlease => by
      have := h.bounded other lease hlease
      omega
    refine ⟨?_, ?_, ?_, ?_⟩
    · rw [hheld]
      exact h.separate.issue (some thread) hfresh
    · intro holder lease hlease
      rw [hheld] at hlease
      rw [hadapter]
      rcases eq_or_ne holder (some thread) with rfl | hne
      · rw [Function.update_self] at hlease
        exact Option.some.inj hlease ▸ Nat.le_refl _
      · rw [Function.update_of_ne hne] at hlease
        have := h.bounded holder lease hlease
        change lease.generation ≤ window.generation
        omega
    · rw [hadapter]
      exact hword
    · intro other hactive
      rw [hadapter] at hactive
      obtain rfl := Option.some.inj hactive
      refine ⟨some thread, ?_⟩
      rw [hheld, Function.update_self]
  | swapped first second hadapter hheld =>
    refine ⟨?_, ?_, hadapter ▸ h.word, ?_⟩
    · rw [hheld]
      exact h.separate.swap first second
    · intro holder window hwindow
      rw [hheld] at hwindow
      rw [hadapter]
      exact h.bounded _ window hwindow
    · intro window hactive
      rw [hadapter] at hactive
      obtain ⟨holder, hwindow⟩ := h.leased window hactive
      refine ⟨Equiv.swap first second holder, ?_⟩
      rw [hheld, Function.comp_apply, Equiv.swap_apply_self]
      exact hwindow
  | released holder _ hwindow hadapter hheld =>
    have hnumber : next.adapter.nextGeneration = world.adapter.nextGeneration := by
      rw [hadapter, detach_nextGeneration]
    refine ⟨?_, ?_, hnumber ▸ h.word, ?_⟩
    · rw [hheld]
      exact h.separate.release holder
    · intro other lease hlease
      rw [hheld] at hlease
      rw [hnumber]
      rcases eq_or_ne other holder with rfl | hne
      · rw [Function.update_self] at hlease
        cases hlease
      · rw [Function.update_of_ne hne] at hlease
        exact h.bounded other lease hlease
    · intro lease hactive
      rw [hadapter] at hactive
      obtain ⟨hbefore, hother⟩ := detach_active hactive
      obtain ⟨keeper, hlease⟩ := h.leased lease hbefore
      have hne : keeper ≠ holder := by
        rintro rfl
        rw [hwindow] at hlease
        exact hother (congrArg WindowAttachment.generation (Option.some.inj hlease).symm)
      refine ⟨keeper, ?_⟩
      rw [hheld, Function.update_of_ne hne]
      exact hlease
  | kept hgeneration hadapter hheld =>
    refine ⟨hheld ▸ h.separate, ?_, hgeneration ▸ h.word, ?_⟩
    · rw [hheld, hgeneration]
      exact h.bounded
    · intro window hactive
      rw [hheld]
      rcases hadapter with hsame | hnone
      · exact h.leased window (hsame ▸ hactive)
      · rw [hnone] at hactive
        cases hactive

def generations (world : GameInputWorld) : List Nat := world.attached.map (·.window.generation)

structure Attached (world : GameInputWorld) : Prop where
  nodup : world.generations.Nodup
  issued : ∀ generation ∈ world.generations,
    0 < generation ∧ generation ≤ world.adapter.nextGeneration
  pending : ∀ window, Pending world window →
    0 < window.generation ∧ window.generation ∉ world.generations
  count : world.attached.length = world.sessions.nextAttachmentId
  numbered : ∀ attached ∈ world.attached, attached.attachmentId ≤ world.sessions.nextAttachmentId
  active : ∀ active, world.sessions.active = some active →
    active.attachmentId = world.sessions.nextAttachmentId
  stopped : world.sessions.stopped = true → world.sessions.active = none

theorem attached_start : Attached start where
  nodup := List.nodup_nil
  issued _ hmem := by cases hmem
  pending _ hpending := by
    obtain ⟨_, _, hcall⟩ := hpending
    cases hcall
  count := rfl
  numbered _ hmem := by cases hmem
  active _ hactive := by cases hactive
  stopped h := by cases h

theorem length_le_of_nodup {numbers : List Nat} {bound : Nat} (hnodup : numbers.Nodup)
    (h : ∀ number ∈ numbers, 0 < number ∧ number ≤ bound) : numbers.length ≤ bound := by
  have hsubset : numbers ⊆ List.range' 1 bound := by
    intro number hmem
    obtain ⟨_, _⟩ := h number hmem
    rw [List.mem_range'_1]
    omega
  have hlength := hnodup.length_le_of_subset hsubset
  rw [List.length_range'] at hlength
  exact hlength

theorem Attached.not_exhausted (h : Attached world) (hheld : Held world)
    (hpending : Pending world window) : world.sessions.nextAttachmentId + 1 < 2 ^ 64 := by
  obtain ⟨hpositive, hfresh⟩ := h.pending window hpending
  obtain ⟨_, hwindow⟩ := hpending.held
  have hlength : (window.generation :: world.generations).length ≤
      world.adapter.nextGeneration := by
    refine length_le_of_nodup (List.nodup_cons.mpr ⟨hfresh, h.nodup⟩) fun generation hmem => ?_
    rcases List.mem_cons.mp hmem with rfl | hold
    · exact ⟨hpositive, hheld.bounded _ window hwindow⟩
    · exact h.issued generation hold
  have hword := hheld.word
  have hcount := h.count
  unfold generations at hlength
  rw [List.length_cons, List.length_map] at hlength
  omega

theorem Attached.framed (h : Attached world) (hattached : next.attached = world.attached)
    (hgeneration : world.adapter.nextGeneration ≤ next.adapter.nextGeneration)
    (hpending : ∀ window, Pending next window → Pending world window ∨
      world.adapter.nextGeneration < window.generation)
    (hid : next.sessions.nextAttachmentId = world.sessions.nextAttachmentId)
    (hactive : next.sessions.active = world.sessions.active ∨ next.sessions.active = none)
    (hstopped : next.sessions.stopped = true →
      world.sessions.stopped = true ∨ next.sessions.active = none) : Attached next := by
  have hgenerations : next.generations = world.generations := by
    unfold generations
    rw [hattached]
  refine ⟨hgenerations ▸ h.nodup, ?_, ?_, ?_, ?_, ?_, ?_⟩
  · intro generation hmem
    rw [hgenerations] at hmem
    obtain ⟨hpositive, hle⟩ := h.issued generation hmem
    exact ⟨hpositive, Nat.le_trans hle hgeneration⟩
  · intro window hwindow
    rw [hgenerations]
    rcases hpending window hwindow with hold | hnew
    · exact h.pending window hold
    · refine ⟨Nat.lt_of_le_of_lt (Nat.zero_le _) hnew, fun hmem => ?_⟩
      exact Nat.not_le_of_lt hnew (h.issued _ hmem).2
  · rw [hattached, hid]
    exact h.count
  · rw [hattached, hid]
    exact h.numbered
  · intro active hsome
    rw [hid]
    rcases hactive with hsame | hnone
    · exact h.active active (hsame ▸ hsome)
    · rw [hnone] at hsome
      cases hsome
  · intro hstop
    rcases hstopped hstop with hold | hnone
    · rcases hactive with hsame | hnone
      · rw [hsame]
        exact h.stopped hold
      · exact hnone
    · exact hnone

theorem pending_setCall (h : Pending (setCall thread call other) window) :
    (∃ identity, call = some (.selected identity window)) ∨
      ∃ reader identity, reader ≠ thread ∧
        other.calls reader = some (.selected identity window) := by
  obtain ⟨reader, identity, hcall⟩ := h
  change Function.update other.calls thread call reader = _ at hcall
  rcases eq_or_ne reader thread with rfl | hne
  · rw [Function.update_self] at hcall
    exact .inl ⟨identity, hcall⟩
  · rw [Function.update_of_ne hne] at hcall
    exact .inr ⟨reader, identity, hne, hcall⟩

theorem pending_of_setCall (hcalls : other.calls = world.calls)
    (hcall : ∀ identity window, call ≠ some (.selected identity window))
    (h : Pending (setCall thread call other) window) : Pending world window := by
  rcases pending_setCall h with ⟨identity, heq⟩ | ⟨reader, identity, _, hsome⟩
  · exact absurd heq (hcall identity window)
  · exact ⟨reader, identity, hcalls ▸ hsome⟩

theorem Pending.elsewhere (h : Pending world window) (hcalls : other.calls = world.calls)
    (hother : ∀ identity, world.calls thread ≠ some (.selected identity window)) :
    Pending (setCall thread call other) window := by
  obtain ⟨reader, identity, hcall⟩ := h
  refine ⟨reader, identity, ?_⟩
  have hne : reader ≠ thread := by
    rintro rfl
    exact hother identity hcall
  change Function.update other.calls thread call reader = _
  rw [Function.update_of_ne hne, hcalls]
  exact hcall

theorem Attached.move (h : Attached world) (hheld : Held world) (hmove : Move world action next) :
    Attached next := by
  cases hmove with
  | selected _ _ _ _ hgeneration _ hnext =>
    subst hnext
    refine h.framed rfl (hgeneration ▸ Nat.le_succ _) (fun other hpending => ?_) rfl (.inl rfl) .inl
    rcases pending_setCall hpending with ⟨_, heq⟩ | ⟨reader, session, _, hsome⟩
    · cases heq
      exact .inr (hgeneration ▸ Nat.lt_succ_self _)
    · exact .inl ⟨reader, session, hsome⟩
  | refused _ _ _ _ _ hnext | ignored _ _ _ _ hnext | returned _ _ _ hnext =>
    subst hnext
    exact h.framed rfl (Nat.le_refl _) (fun _ => .inl ∘ pending_of_setCall rfl (by nofun)) rfl
      (.inl rfl) .inl
  | attached thread identity attached _ hcall hopen hid hnext =>
    have hpending : Pending world attached.window := ⟨thread, identity, hcall⟩
    obtain ⟨hpositive, hfresh⟩ := h.pending attached.window hpending
    have hcount := h.count
    subst hnext
    refine ⟨List.nodup_cons.mpr ⟨hfresh, h.nodup⟩, ?_, ?_, ?_, ?_, ?_, ?_⟩
    · intro generation hmem
      rcases List.mem_cons.mp hmem with rfl | hold
      · exact ⟨hpositive, hheld.bounded (some thread) attached.window (held_of_call hcall)⟩
      · exact h.issued generation hold
    · intro window hwindow
      rcases pending_setCall hwindow with ⟨_, heq⟩ | ⟨reader, session, hne, hsome⟩
      · cases heq
      obtain ⟨hother, hold⟩ := h.pending window ⟨reader, session, hsome⟩
      refine ⟨hother, fun hmem => ?_⟩
      rcases List.mem_cons.mp hmem with heq | hmem
      · have hreader : held world (some reader) = some window := held_of_call hsome
        have hsame := hheld.separate _ _ _ _ hreader (held_of_call hcall) heq
        exact hne (Option.some.inj hsame)
      · exact hold hmem
    · change (attached :: world.attached).length = attached.attachmentId
      rw [List.length_cons, hid, hcount]
    · intro other hmem
      change other.attachmentId ≤ attached.attachmentId
      rcases List.mem_cons.mp hmem with rfl | hold
      · exact Nat.le_refl _
      · have := h.numbered other hold
        omega
    · intro active hactive
      exact congrArg ActiveGameWindow.attachmentId (Option.some.inj hactive).symm
    · intro hstopped
      change world.sessions.stopped = true at hstopped
      rw [hopen] at hstopped
      cases hstopped
  | withdrawn _ _ _ _ _ _ hnext =>
    subst hnext
    exact h.framed rfl (Nat.le_refl _) (fun _ => .inl ∘ pending_of_setCall rfl (by nofun)) rfl
      (.inr rfl) fun _ => .inr rfl
  | released _ _ _ _ hnext =>
    subst hnext
    exact h.framed rfl (Nat.le_of_eq (detach_nextGeneration _ _).symm)
      (fun _ => .inl ∘ pending_of_setCall rfl (by nofun)) rfl (.inl rfl) .inl
  | foundDead _ _ hnext =>
    subst hnext
    exact h.framed rfl (Nat.le_refl _) (fun _ => .inl) rfl (.inl rfl) .inl
  | unchanged hnext =>
    subst hnext
    exact h

/-- Why the adapter may not have the window that was selected for a lease. -/
inductive Kept (world : GameInputWorld) (window : GameWindowLease) : Prop where
  | dead (h : window.generation ∈ world.dead)
  | current (h : world.adapter.active = some window)
  | outrun (later : GameWindowLease) (hpending : Pending world later)
      (h : window.generation < later.generation)
  | superseded (later : ActiveGameWindow) (hattached : later ∈ world.attached)
      (h : window.generation < later.window.generation)
  | stopped (h : world.sessions.stopped = true)

def Wanted (world : GameInputWorld) (window : GameWindowLease) : Prop :=
  Pending world window ∨ held world none = some window

def Guarded (world : GameInputWorld) : Prop := ∀ window, Wanted world window → Kept world window

theorem guarded_start : Guarded start := by
  rintro window (⟨_, _, hcall⟩ | hheld)
  · cases hcall
  · cases hheld

theorem Wanted.held (h : Wanted world window) : ∃ holder, world.held holder = some window := by
  rcases h with hpending | hactive
  · obtain ⟨thread, hheld⟩ := hpending.held
    exact ⟨some thread, hheld⟩
  · exact ⟨none, hactive⟩

theorem Wanted.ne_dropped (hheld : Held world) {dropped : GameWindowLease}
    {result : Option GameInputSessionLease} (h : Wanted world window)
    (hcall : world.calls thread = some (.dropping (some dropped) result)) :
    window.generation ≠ dropped.generation := by
  intro heq
  rcases h with ⟨_, _, hreader⟩ | hactive
  · have hsame := hheld.separate _ _ _ _ (held_of_call hreader) (held_of_call hcall) heq
    obtain rfl := Option.some.inj hsame
    rw [hreader] at hcall
    cases hcall
  · cases hheld.separate _ _ _ _ hactive (held_of_call hcall) heq

theorem active_detach {generation : Nat} {state : WindowState} {window : WindowAttachment}
    (h : state.active = some window) (hne : window.generation ≠ generation) :
    (state.detach generation).active = some window := by
  unfold WindowState.detach
  rw [h, if_neg]
  · exact h
  · exact fun heq => hne (of_decide_eq_true heq)

theorem Kept.framed (h : Kept world window)
    (hdead : ∀ generation ∈ world.dead, generation ∈ next.dead)
    (hactive : world.adapter.active = some window →
      next.adapter.active = some window ∨ window.generation ∈ next.dead)
    (hpending : ∀ later, Pending world later → Pending next later)
    (hattached : next.attached = world.attached)
    (hstopped : world.sessions.stopped = true → next.sessions.stopped = true) :
    Kept next window := by
  cases h with
  | dead h => exact .dead (hdead _ h)
  | current h =>
    rcases hactive h with hsame | hfound
    · exact .current hsame
    · exact .dead hfound
  | outrun later hlater h => exact .outrun later (hpending later hlater) h
  | superseded later hmem h => exact .superseded later (hattached ▸ hmem) h
  | stopped h => exact .stopped (hstopped h)

theorem Kept.move (h : Guarded world) (hheld : Held world) (hattached : Attached world)
    (hmove : Move world action next) (hwanted : Wanted world window) : Kept next window := by
  have hkept := h window hwanted
  cases hmove with
  | selected thread identity selected _ hgeneration _ hnext =>
    subst hnext
    obtain ⟨holder, hwindow⟩ := hwanted.held
    refine .outrun selected ⟨thread, identity, Function.update_self ..⟩ ?_
    rw [hgeneration]
    exact Nat.lt_succ_of_le (hheld.bounded holder window hwindow)
  | refused thread identity _ hcall hreason hnext =>
    subst hnext
    rcases hreason with hstopped | _
    · exact .stopped hstopped
    · have := hattached.not_exhausted hheld ⟨thread, identity, hcall⟩
      omega
  | attached _ _ attached _ hcall hopen _ hnext =>
    subst hnext
    cases hkept with
    | dead hdead => exact .dead hdead
    | current hactive => exact .current hactive
    | outrun later hpending hlt =>
      by_cases hlater : later = attached.window
      · subst hlater
        exact .superseded attached List.mem_cons_self hlt
      · refine .outrun later (hpending.elsewhere rfl fun session heq => hlater ?_) hlt
        rw [hcall] at heq
        cases heq
        rfl
    | superseded later hmem hlt => exact .superseded later (List.mem_cons_of_mem _ hmem) hlt
    | stopped hstopped =>
      rw [hopen] at hstopped
      cases hstopped
  | withdrawn _ _ _ hidle hstopped _ hnext =>
    subst hnext
    refine hkept.framed (fun _ => id) .inl (fun _ hpending => hpending.elsewhere rfl ?_) rfl
      hstopped
    rw [hidle]
    nofun
  | ignored _ _ hidle _ hnext =>
    subst hnext
    refine hkept.framed (fun _ => id) .inl (fun _ hpending => hpending.elsewhere rfl ?_) rfl id
    rw [hidle]
    nofun
  | released _ _ _ hcall hnext =>
    subst hnext
    have hne := hwanted.ne_dropped hheld hcall
    refine hkept.framed (fun _ => id) (fun hactive => .inl (active_detach hactive hne))
      (fun _ hpending => hpending.elsewhere rfl ?_) rfl id
    rw [hcall]
    nofun
  | returned _ _ hcall hnext =>
    subst hnext
    refine hkept.framed (fun _ => id) .inl (fun _ hpending => hpending.elsewhere rfl ?_) rfl id
    rw [hcall]
    nofun
  | foundDead _ hactive hnext =>
    subst hnext
    refine hkept.framed (fun _ => List.mem_cons_of_mem _) (fun hsame => .inr ?_) (fun _ => id) rfl
      id
    rw [hactive] at hsame
    cases hsame
    exact List.mem_cons_self
  | unchanged hnext =>
    subst hnext
    exact hkept

theorem Wanted.before (hmove : Move world action next) (h : Wanted next window) :
    Wanted world window ∨ next.adapter.active = some window := by
  cases hmove with
  | selected _ _ _ _ _ _ hnext =>
    subst hnext
    rcases h with hpending | hactive
    · rcases pending_setCall hpending with ⟨session, heq⟩ | ⟨reader, session, _, hsome⟩
      · cases heq
        exact .inr rfl
      · exact .inl (.inl ⟨reader, session, hsome⟩)
    · exact .inl (.inr hactive)
  | refused _ _ _ _ _ hnext | ignored _ _ _ _ hnext | released _ _ _ _ hnext | returned _ _ _ hnext =>
    subst hnext
    exact .inl (h.imp (pending_of_setCall rfl (by nofun)) id)
  | attached thread identity _ _ hcall _ _ hnext =>
    subst hnext
    rcases h with hpending | hactive
    · rcases pending_setCall hpending with ⟨session, heq⟩ | ⟨reader, session, _, hsome⟩
      · cases heq
      · exact .inl (.inl ⟨reader, session, hsome⟩)
    · cases hactive
      exact .inl (.inl ⟨thread, identity, hcall⟩)
  | withdrawn _ _ _ _ _ _ hnext =>
    subst hnext
    rcases h with hpending | hactive
    · exact .inl (.inl (pending_of_setCall rfl (by nofun) hpending))
    · cases hactive
  | foundDead _ _ hnext | unchanged hnext =>
    subst hnext
    exact .inl h

theorem Guarded.move (h : Guarded world) (hheld : Held world) (hattached : Attached world)
    (hmove : Move world action next) : Guarded next := by
  intro window hwanted
  rcases hwanted.before hmove with hbefore | hselected
  · exact Kept.move h hheld hattached hmove hbefore
  · exact .current hselected

/-- A session that is attached is of a later selection than those attached before. -/
def InOrder (world : GameInputWorld) : GameInputAction → Prop
  | .attachSession thread =>
    match world.calls thread with
    | some (.selected _ window) => ∀ generation ∈ world.generations, generation < window.generation
    | _ => True
  | _ => True

instance (world : GameInputWorld) : ∀ action, Decidable (InOrder world action)
  | .attachSession thread => by
    unfold InOrder
    dsimp only
    exact match world.calls thread with
      | some (.selected _ window) =>
        inferInstanceAs
          (Decidable (∀ generation ∈ world.generations, generation < window.generation))
      | some (.dropping _ _) => .isTrue trivial
      | none => .isTrue trivial
  | .attachRenderSession .. | .dropLease .. | .shutdown .. | .dropWindow .. | .send .. =>
    .isTrue trivial

/-- The active session is of the latest of the selections whose sessions were attached. -/
def Newest (world : GameInputWorld) : Prop :=
  ∀ active, world.sessions.active = some active →
    ∀ attached ∈ world.attached, attached.window.generation ≤ active.window.generation

theorem Newest.move (h : Newest world) (horder : InOrder world action)
    (hmove : Move world action next) : Newest next := by
  cases hmove with
  | attached _ _ _ haction hcall _ _ hnext =>
    subst hnext haction
    intro active hactive other hmem
    obtain rfl := Option.some.inj hactive
    rcases List.mem_cons.mp hmem with rfl | hold
    · exact Nat.le_refl _
    · unfold InOrder at horder
      dsimp only at horder
      rw [hcall] at horder
      exact Nat.le_of_lt (horder _ (List.mem_map_of_mem hold))
  | selected _ _ _ _ _ _ hnext | refused _ _ _ _ _ hnext | ignored _ _ _ _ hnext
  | released _ _ _ _ hnext | returned _ _ _ hnext | foundDead _ _ hnext | unchanged hnext =>
    subst hnext
    exact h
  | withdrawn _ _ _ _ _ _ hnext =>
    subst hnext
    intro active hactive
    cases hactive

structure Living (world : GameInputWorld) : Prop where
  bounded : ∀ generation ∈ world.dead, generation ≤ world.adapter.nextGeneration
  alive : ∀ window, world.adapter.active = some window → window.generation ∉ world.dead

theorem living_start : Living start where
  bounded _ hmem := by cases hmem
  alive _ hactive := by cases hactive

theorem Living.framed (h : Living world) (hdead : next.dead = world.dead)
    (hgeneration : next.adapter.nextGeneration = world.adapter.nextGeneration)
    (hactive : ∀ window, next.adapter.active = some window →
      world.adapter.active = some window) : Living next := by
  refine ⟨?_, fun window hsome => ?_⟩
  · rw [hdead, hgeneration]
    exact h.bounded
  · rw [hdead]
    exact h.alive window (hactive window hsome)

theorem Living.move (h : Living world) (hheld : Held world) (hmove : Move world action next) :
    Living next := by
  cases hmove with
  | selected _ _ window _ _ _ hnext =>
    subst hnext
    refine ⟨fun generation hmem => ?_, fun other hactive hmem => ?_⟩
    · have := h.bounded generation hmem
      change generation ≤ window.generation
      omega
    · cases hactive
      have := h.bounded _ hmem
      omega
  | refused _ _ _ _ _ hnext | attached _ _ _ _ _ _ _ hnext | withdrawn _ _ _ _ _ _ hnext
  | ignored _ _ _ _ hnext | returned _ _ _ hnext =>
    subst hnext
    exact h.framed rfl rfl fun _ => id
  | released _ _ _ _ hnext =>
    subst hnext
    exact h.framed rfl (detach_nextGeneration _ _) fun _ hactive => (detach_active hactive).1
  | foundDead window hactive hnext =>
    subst hnext
    refine ⟨fun generation hmem => ?_, by nofun⟩
    rcases List.mem_cons.mp hmem with rfl | hold
    · obtain ⟨holder, hwindow⟩ := hheld.leased window hactive
      exact hheld.bounded holder window hwindow
    · exact h.bounded generation hold
  | unchanged hnext =>
    subst hnext
    exact h

def Returned (world : GameInputWorld) (lease : GameInputSessionLease) : Prop :=
  lease ∈ world.leases ∨
    ∃ thread window, world.calls thread = some (.dropping window (some lease))

/-- A call only returns a lease of a session that it attached. -/
def Leased (world : GameInputWorld) : Prop :=
  ∀ lease, Returned world lease → lease ∈ world.attached.map ActiveGameWindow.lease

theorem leased_start : Leased start := by
  rintro lease (hmem | ⟨_, _, hcall⟩)
  · cases hmem
  · cases hcall

theorem returned_setCall (hcalls : other.calls = world.calls) {lease : GameInputSessionLease}
    (h : Returned (setCall thread call other) lease) :
    lease ∈ other.leases ∨ (∃ window, call = some (.dropping window (some lease))) ∨
      Returned world lease := by
  rcases h with hmem | ⟨reader, window, hcall⟩
  · exact .inl hmem
  change Function.update other.calls thread call reader = _ at hcall
  rcases eq_or_ne reader thread with rfl | hne
  · rw [Function.update_self] at hcall
    exact .inr (.inl ⟨window, hcall⟩)
  · rw [Function.update_of_ne hne, hcalls] at hcall
    exact .inr (.inr (.inr ⟨reader, window, hcall⟩))

theorem Leased.framed (h : Leased world) (hcalls : other.calls = world.calls)
    (hleases : ∀ lease ∈ other.leases, Returned world lease)
    (hcall : ∀ window lease, call ≠ some (.dropping window (some lease)))
    (hattached : other.attached = world.attached) : Leased (setCall thread call other) := by
  intro lease hreturned
  change lease ∈ other.attached.map ActiveGameWindow.lease
  rw [hattached]
  rcases returned_setCall hcalls hreturned with hmem | ⟨window, heq⟩ | hbefore
  · exact h lease (hleases lease hmem)
  · exact absurd heq (hcall window lease)
  · exact h lease hbefore

theorem Leased.move (h : Leased world) (hmove : Move world action next) : Leased next := by
  cases hmove with
  | selected _ _ _ _ _ _ hnext | refused _ _ _ _ _ hnext =>
    subst hnext
    exact h.framed rfl (fun _ => .inl) (by nofun) rfl
  | attached _ _ attached _ _ _ _ hnext =>
    subst hnext
    intro lease hreturned
    change lease ∈ (attached :: world.attached).map ActiveGameWindow.lease
    rw [List.map_cons]
    rcases returned_setCall rfl hreturned with hmem | ⟨window, heq⟩ | hbefore
    · exact List.mem_cons_of_mem _ (h lease (.inl hmem))
    · cases heq
      exact List.mem_cons_self
    · exact List.mem_cons_of_mem _ (h lease hbefore)
  | withdrawn _ _ _ _ _ hleases hnext =>
    subst hnext
    exact h.framed rfl (fun _ hmem => .inl (hleases hmem)) (by simp) rfl
  | ignored _ _ _ hleases hnext =>
    subst hnext
    exact h.framed rfl (fun _ hmem => .inl (hleases hmem)) (by nofun) rfl
  | released thread window _ hcall hnext =>
    subst hnext
    refine h.framed rfl (fun lease hmem => ?_) (by nofun) rfl
    rcases List.mem_append.mp hmem with hresult | hold
    · exact .inr ⟨thread, some window, Option.mem_toList.mp hresult ▸ hcall⟩
    · exact .inl hold
  | returned thread _ hcall hnext =>
    subst hnext
    refine h.framed rfl (fun lease hmem => ?_) (by nofun) rfl
    rcases List.mem_append.mp hmem with hresult | hold
    · exact .inr ⟨thread, none, Option.mem_toList.mp hresult ▸ hcall⟩
    · exact .inl hold
  | foundDead _ _ hnext | unchanged hnext =>
    subst hnext
    exact h

theorem Move.stopped (hmove : Move world action next) (hstopped : world.sessions.stopped = true) :
    next.sessions.stopped = true ∧ next.attached = world.attached := by
  cases hmove with
  | selected _ _ _ _ _ _ hnext | refused _ _ _ _ _ hnext | ignored _ _ _ _ hnext
  | released _ _ _ _ hnext | returned _ _ _ hnext | foundDead _ _ hnext | unchanged hnext =>
    subst hnext
    exact ⟨hstopped, rfl⟩
  | attached _ _ _ _ _ hopen =>
    rw [hopen] at hstopped
    cases hstopped
  | withdrawn _ _ _ _ hstop _ hnext =>
    subst hnext
    exact ⟨hstop hstopped, rfl⟩

structure Sound (world : GameInputWorld) : Prop where
  held : Held world
  attached : Attached world
  guarded : Guarded world
  living : Living world
  leased : Leased world

theorem sound_start : Sound start :=
  ⟨held_start, attached_start, guarded_start, living_start, leased_start⟩

theorem Sound.step (h : Sound world) (hstep : step world action = some next) : Sound next := by
  have hmove := move_of_step hstep
  exact ⟨h.held.move hmove, h.attached.move h.held hmove, h.guarded.move h.held h.attached hmove,
    h.living.move h.held hmove, h.leased.move hmove⟩

variable {actions : List GameInputAction}

theorem sound_run (hrun : StepRuns.runSteps GameInputWorld.step start actions = some world) :
    Sound world :=
  StepRuns.runSteps_invariant (P := Sound) (fun _ _ _ hstep h => h.step hstep) hrun sound_start

theorem newest_run (horder : StepRuns.EveryStep GameInputWorld.step InOrder start actions)
    (hrun : StepRuns.runSteps GameInputWorld.step start actions = some world) : Newest world :=
  horder.invariant (Q := Newest)
    (fun _ _ _ hstep horder h => h.move horder (move_of_step hstep)) hrun (by nofun)

theorem stopped_run {final : GameInputWorld}
    (hrun : StepRuns.runSteps GameInputWorld.step world actions = some final)
    (hstopped : world.sessions.stopped = true) :
    final.sessions.stopped = true ∧ final.attached = world.attached := by
  refine StepRuns.runSteps_invariant
    (P := fun next => next.sessions.stopped = true ∧ next.attached = world.attached)
    (fun _ _ _ hstep h => ?_) hrun ⟨hstopped, rfl⟩
  obtain ⟨hstop, hattached⟩ := (move_of_step hstep).stopped h.1
  exact ⟨hstop, hattached.trans h.2⟩

theorem Idle.not_pending (h : world.Idle) (window : GameWindowLease) : ¬ Pending world window := by
  rintro ⟨thread, identity, hcall⟩
  rw [h thread] at hcall
  cases hcall

theorem Sound.active_of_idle (h : Sound world) (hidle : world.Idle) {window : WindowAttachment}
    (hactive : world.adapter.active = some window) :
    ∃ active, world.sessions.active = some active ∧ active.window = window := by
  obtain ⟨_ | thread, hheld⟩ := h.held.leased window hactive
  · exact Option.map_eq_some_iff.mp hheld
  · rw [held_of_call (hidle thread)] at hheld
    cases hheld

theorem Sound.detached_of_stopped (h : Sound world) (hidle : world.Idle)
    (hstopped : world.sessions.stopped = true) : world.adapter.active = none := by
  refine Option.eq_none_iff_forall_ne_some.mpr fun window hactive => ?_
  obtain ⟨active, hsome, _⟩ := h.active_of_idle hidle hactive
  rw [h.attached.stopped hstopped] at hsome
  cases hsome

/-- The adapter's window is that of the active session, unless it was found dead. -/
def Follows (world : GameInputWorld) : Prop :=
  ∀ window, world.adapter.active = some window ↔
    ∃ active, world.sessions.active = some active ∧ active.window = window ∧
      window.generation ∉ world.dead

theorem Sound.follows (h : Sound world) (hnewest : Newest world) (hidle : world.Idle) :
    Follows world := by
  intro window
  constructor
  · intro hactive
    obtain ⟨active, hsome, hwindow⟩ := h.active_of_idle hidle hactive
    exact ⟨active, hsome, hwindow, h.living.alive window hactive⟩
  · rintro ⟨active, hsome, rfl, halive⟩
    have hwanted : Wanted world active.window := by
      refine .inr ?_
      change world.sessions.active.map (·.window) = _
      rw [hsome]
      rfl
    cases h.guarded active.window hwanted with
    | dead hdead => exact absurd hdead halive
    | current hactive => exact hactive
    | outrun later hpending => exact absurd hpending (hidle.not_pending later)
    | superseded later hmem hlt =>
      exact absurd (hnewest active hsome later hmem) (Nat.not_le_of_lt hlt)
    | stopped hstopped =>
      rw [h.attached.stopped hstopped] at hsome
      cases hsome

def Superseded (world : GameInputWorld) (lease : GameInputSessionLease) : Prop :=
  ∃ later ∈ world.attached, lease.attachmentId < later.attachmentId

theorem Sound.dropLease_superseded (h : Sound world) {lease : GameInputSessionLease}
    (hsuperseded : Superseded world lease) (thread : Nat) :
    world.dropLease thread lease =
      setCall thread (some (.dropping none none))
        { world with leases := world.leases.erase lease } := by
  obtain ⟨later, hmem, _⟩ := hsuperseded
  have hdetach : world.sessions.detach lease = (none, world.sessions) := by
    unfold GameWindowState.detach
    rcases hactive : world.sessions.active with _ | active
    · rfl
    · have hid := h.attached.active active hactive
      have hle := h.attached.numbered later hmem
      dsimp only
      rw [if_neg fun hsame => by omega]
  unfold dropLease
  rw [hdetach]
  rfl

/-- The adapter and the sessions agree between calls when the sessions are attached in the order of
their selections. What they hold never belongs to a superseded lease or outlives a shutdown. -/
theorem game_window_follows_session {actions : List GameInputAction} {world : GameInputWorld}
    (hrun : StepRuns.runSteps step start actions = some world) :
    (StepRuns.EveryStep step InOrder start actions → world.Idle → world.Follows) ∧
    (world.Idle → ∀ window, world.adapter.active = some window →
      ∃ active, world.sessions.active = some active ∧ active.window = window) ∧
    (∀ thread lease next, step world (.dropLease thread lease) = some next →
      world.Superseded lease → next.adapter = world.adapter ∧ next.sessions = world.sessions ∧
        next.calls thread = some (.dropping none none)) ∧
    ∀ thread begun later final, step world (.shutdown thread) = some begun →
      StepRuns.runSteps step begun later = some final →
        final.attached = world.attached ∧
        (∀ lease, final.Returned lease → lease ∈ world.attached.map ActiveGameWindow.lease) ∧
        (final.Idle → final.adapter.active = none) := by
  have hsound := sound_run hrun
  refine ⟨fun horder hidle => hsound.follows (newest_run horder hrun) hidle,
    fun hidle _ hactive => hsound.active_of_idle hidle hactive, ?_, ?_⟩
  · intro thread lease next hstep hsuperseded
    rcases hcall : world.calls thread with _ | call
    · simp only [step, hcall] at hstep
      split at hstep
      · rw [hsound.dropLease_superseded hsuperseded] at hstep
        cases Option.some.inj hstep
        exact ⟨rfl, rfl, Function.update_self ..⟩
      · cases hstep
    · simp only [step, hcall] at hstep
      cases hstep
  · intro thread begun later final hstep hlater
    have hbegun : begun.sessions.stopped = true ∧ begun.attached = world.attached := by
      rcases hcall : world.calls thread with _ | call
      · simp only [step, hcall] at hstep
        cases Option.some.inj hstep
        exact ⟨rfl, rfl⟩
      · simp only [step, hcall] at hstep
        cases hstep
    obtain ⟨hstopped, hattached⟩ := stopped_run hlater hbegun.1
    have hfinal : Sound final := StepRuns.runSteps_invariant (P := Sound)
      (fun _ _ _ hstep h => h.step hstep) hlater (hsound.step hstep)
    rw [hbegun.2] at hattached
    refine ⟨hattached, fun lease hreturned => ?_,
      fun hidle => hfinal.detached_of_stopped hidle hstopped⟩
    rw [← hattached]
    exact hfinal.leased lease hreturned

/-- Two attachments that overlap, with their sessions attached in the order of their selections. -/
def overlapping : List GameInputAction :=
  [.attachRenderSession 1 ⟨7, 1⟩ 16 true, .attachRenderSession 2 ⟨7, 2⟩ 32 true, .attachSession 1,
    .attachSession 2, .dropWindow 2, .dropWindow 1]

theorem overlapping_follows : ∃ world, StepRuns.runSteps step start overlapping = some world ∧
    world.adapter.active = some ⟨2, 32⟩ ∧ world.Follows := by
  obtain ⟨world, hrun, hactive⟩ : ∃ world, StepRuns.runSteps step start overlapping = some world ∧
      world.adapter.active = some ⟨2, 32⟩ := ⟨_, rfl, rfl⟩
  refine ⟨world, hrun, hactive, (game_window_follows_session hrun).1 (by decide +kernel) ?_⟩
  cases Option.some.inj hrun
  rintro (_ | _ | _ | thread)
  · rfl
  · rfl
  · rfl
  · rfl

/-- The sessions of two attachments are attached against the order of their selections, so that the
earlier window's session is active and the later window's lease detaches the adapter. -/
theorem crossed_attachments : ∃ actions world,
    StepRuns.runSteps step start actions = some world ∧ world.Idle ∧
      (∃ active, world.sessions.active = some active ∧
        active.window.generation ∉ world.dead) ∧
      world.adapter.active = none := by
  refine ⟨[.attachRenderSession 1 ⟨7, 1⟩ 16 true, .attachRenderSession 2 ⟨7, 2⟩ 32 true,
    .attachSession 2, .attachSession 1, .dropWindow 2, .dropWindow 1], _, rfl, ?_,
    ⟨⟨⟨7, 1⟩, 2, ⟨1, 16⟩⟩, rfl, by decide⟩, rfl⟩
  rintro (_ | _ | _ | thread)
  · rfl
  · rfl
  · rfl
  · rfl

end GameInputWorld

end Nexus.GameWindows
