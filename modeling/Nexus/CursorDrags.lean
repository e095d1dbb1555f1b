import Mathlib.Data.List.Induction
import Nexus.EventLog
import Nexus.WindowRouting

namespace Nexus.WindowInput

/-- What happened around the cursor. The last is the first in a log. -/
inductive CursorEvent where
  | lockSet (enabled : Bool)
  | resetSet (enabled : Bool)
  /-- A camera message, and where the cursor was. -/
  | asked (message : WindowMessage) (snapshot : CursorSnapshot)
  /-- A drag began or ended. -/
  | dragging (active : Bool)
  | confined (point : CursorPoint) (done : Bool)
  | released (done : Bool)
  | moved (point : CursorPoint) (done : Bool)

structure CursorWorld where
  service : MouseResetService
  log : List CursorEvent

namespace CursorWorld

def new : CursorWorld := ⟨⟨false, false, false, false, false, none⟩, []⟩

variable (platform : CursorPlatform)

def setDrag (active pending : Bool) (world : CursorWorld) : CursorWorld where
  service := { world.service with dragActive := active, resetPending := pending }
  log := if active = world.service.dragActive then world.log else .dragging active :: world.log

def releaseClip (world : CursorWorld) : CursorWorld :=
  if world.service.clipActive then
    { service := { world.service with clipActive := !platform.releaseConfinement }
      log := .released platform.releaseConfinement :: world.log }
  else world

/-- Moves the cursor back if that is pending, as far as a position is known. -/
def restorePosition (world : CursorWorld) : CursorWorld :=
  if world.service.resetPending then
    match world.service.lastVisible with
    | some point =>
      { service := { world.service with resetPending := !platform.moveTo point }
        log := .moved point (platform.moveTo point) :: world.log }
    | none => { world with service := { world.service with resetPending := false } }
  else world

def finishDrag (world : CursorWorld) : CursorWorld :=
  let world := (world.releaseClip platform).restorePosition platform
  world.setDrag (world.service.clipActive || world.service.resetPending)
    world.service.resetPending

def setLockCursor (enabled : Bool) (world : CursorWorld) : CursorWorld :=
  let wasEnabled := world.service.lockCursor
  let world : CursorWorld :=
    ⟨{ world.service with lockCursor := enabled }, .lockSet enabled :: world.log⟩
  if wasEnabled && !enabled then
    let world := world.releaseClip platform
    if !world.service.resetCursor then
      world.setDrag world.service.clipActive world.service.resetPending
    else world
  else world

def setResetCursor (enabled : Bool) (world : CursorWorld) : CursorWorld :=
  let log := .resetSet enabled :: world.log
  if enabled then
    ⟨{ world.service with
      resetCursor := true
      resetPending := world.service.resetPending || world.service.dragActive }, log⟩
  else
    let world : CursorWorld :=
      ⟨{ world.service with resetCursor := false, resetPending := false }, log⟩
    if world.service.clipActive then world else world.setDrag false false

def record (message : WindowMessage) (snapshot : CursorSnapshot) (world : CursorWorld) :
    CursorWorld where
  service := if MouseResetService.shouldRecordPosition message snapshot.visible then
      { world.service with lastVisible := some snapshot.position }
    else world.service
  log := .asked message snapshot :: world.log

def beginDrag (lockEnabled resetEnabled : Bool) (world : CursorWorld) : CursorWorld :=
  if !world.service.dragActive && world.service.lastVisible.isSome &&
      (lockEnabled || resetEnabled) then world.setDrag true resetEnabled
  else world

def confineDrag (lockEnabled : Bool) (world : CursorWorld) : CursorWorld :=
  if world.service.dragActive && lockEnabled && !world.service.clipActive then
    match world.service.lastVisible with
    | some point =>
      { service := { world.service with clipActive := platform.confineTo point }
        log := .confined point (platform.confineTo point) :: world.log }
    | none => world
  else world

def askReset (resetEnabled : Bool) (world : CursorWorld) : CursorWorld :=
  if world.service.dragActive && resetEnabled then
    { world with service := { world.service with resetPending := true } }
  else world

def startDrag (world : CursorWorld) : CursorWorld :=
  let lockEnabled := world.service.lockCursor
  let resetEnabled := world.service.resetCursor
  ((world.beginDrag lockEnabled resetEnabled).confineDrag platform lockEnabled).askReset
    resetEnabled

def handle (message : WindowMessage) (world : CursorWorld) : CursorWorld :=
  if message.message = WM_ACTIVATEAPP then world.finishDrag platform
  else if MouseResetService.isCameraMouseMessage message.message then
    match platform.snapshot with
    | none => world
    | some snapshot =>
      let world := world.record message snapshot
      if world.service.dragActive && snapshot.visible then world.finishDrag platform
      else if !snapshot.visible && message.wparam &&& 3 ≠ 0 then world.startDrag platform
      else world
  else world

def shutdown (world : CursorWorld) : CursorWorld :=
  let world := world.releaseClip platform
  world.setDrag world.service.clipActive false

theorem service_finishDrag (world : CursorWorld) :
    (world.finishDrag platform).service = world.service.finishDrag platform := by
  obtain ⟨⟨_, _, _, clip, pending, visible⟩, _⟩ := world
  unfold finishDrag releaseClip restorePosition setDrag MouseResetService.finishDrag
  cases clip <;> cases pending <;> cases visible <;> simp

theorem service_startDrag (world : CursorWorld) :
    (world.startDrag platform).service = world.service.startDrag platform := by
  obtain ⟨⟨lock, reset, drag, clip, _, visible⟩, _⟩ := world
  unfold startDrag askReset confineDrag beginDrag setDrag MouseResetService.startDrag
  cases lock <;> cases reset <;> cases drag <;> cases clip <;> cases visible <;> simp

theorem service_handle (message : WindowMessage) (world : CursorWorld) :
    (world.handle platform message).service = world.service.handle platform message := by
  unfold handle MouseResetService.handle
  split
  · exact service_finishDrag platform world
  · split
    · cases platform.snapshot with
      | none => rfl
      | some snapshot =>
        dsimp only
        have hservice : (world.record message snapshot).service =
            if MouseResetService.shouldRecordPosition message snapshot.visible then
              { world.service with lastVisible := some snapshot.position }
            else world.service := rfl
        rw [← hservice]
        generalize world.record message snapshot = recorded
        by_cases hends : (recorded.service.dragActive && snapshot.visible) = true
        · rw [if_pos hends, if_pos hends]
          exact service_finishDrag platform recorded
        · rw [if_neg hends, if_neg hends]
          by_cases hstarts : (!snapshot.visible && decide (message.wparam &&& 3 ≠ 0)) = true
          · rw [if_pos hstarts, if_pos hstarts]
            exact service_startDrag platform recorded
          · rw [if_neg hstarts, if_neg hstarts]
    · rfl

end CursorWorld

def clipHeld : List CursorEvent → Bool
  | [] => false
  | .confined _ true :: _ => true
  | .released true :: _ => false
  | _ :: earlier => clipHeld earlier

def inDrag : List CursorEvent → Bool
  | [] => false
  | .dragging active :: _ => active
  | _ :: earlier => inDrag earlier

def lockOn : List CursorEvent → Bool
  | [] => false
  | .lockSet enabled :: _ => enabled
  | _ :: earlier => lockOn earlier

def resetOn : List CursorEvent → Bool
  | [] => false
  | .resetSet enabled :: _ => enabled
  | _ :: earlier => resetOn earlier

def lastPress : List CursorEvent → Option CursorPoint
  | [] => none
  | .asked message snapshot :: earlier =>
    if MouseResetService.shouldRecordPosition message snapshot.visible then some snapshot.position
    else lastPress earlier
  | _ :: earlier => lastPress earlier

/-- The cursor is moved only to the recorded position, in a drag and with the reset option on. -/
def MovesBack (event : CursorEvent) (earlier : List CursorEvent) : Prop :=
  ∀ point done, event = .moved point done →
    lastPress earlier = some point ∧ inDrag earlier = true ∧ resetOn earlier = true

theorem clipHeld_iff {log : List CursorEvent} :
    clipHeld log = true ↔ ∃ later point earlier,
      log = later ++ .confined point true :: earlier ∧ .released true ∉ later := by
  constructor
  · intro h
    induction log with
    | nil => cases h
    | cons event log ih =>
      have hrest : event ≠ .released true → clipHeld log = true →
          ∃ later point earlier, event :: log = later ++ .confined point true :: earlier ∧
            .released true ∉ later := by
        intro hne hheld
        obtain ⟨later, point, earlier, rfl, hnone⟩ := ih hheld
        exact ⟨event :: later, point, earlier, rfl,
          List.not_mem_cons_of_ne_of_not_mem hne.symm hnone⟩
      cases event with
      | confined point done =>
        cases done with
        | true => exact ⟨[], point, log, rfl, List.not_mem_nil⟩
        | false => exact hrest nofun h
      | released done =>
        cases done with
        | true => cases h
        | false => exact hrest (by simp) h
      | lockSet | resetSet | asked | dragging | moved => exact hrest nofun h
  · rintro ⟨later, point, earlier, rfl, hnone⟩
    induction later with
    | nil => rfl
    | cons event _ ih =>
      obtain ⟨hne, hrest⟩ := not_or.mp (mt List.mem_cons.mpr hnone)
      have hheld := ih hrest
      cases event with
      | confined _ done =>
        cases done with
        | true => rfl
        | false => exact hheld
      | released done =>
        cases done with
        | true => exact absurd rfl hne
        | false => exact hheld
      | lockSet | resetSet | asked | dragging | moved => exact hheld

/-- The service is as the log says, in the middle of a call too. -/
structure CursorWorld.Agrees (world : CursorWorld) : Prop where
  clip : world.service.clipActive = clipHeld world.log
  drag : world.service.dragActive = inDrag world.log
  lock : world.service.lockCursor = lockOn world.log
  reset : world.service.resetCursor = resetOn world.log
  visible : world.service.lastVisible = lastPress world.log
  pending : world.service.resetPending = true →
    world.service.dragActive = true ∧ world.service.resetCursor = true
  moves : EachEvent MovesBack world.log

namespace CursorWorld

variable (platform : CursorPlatform) {world : CursorWorld}

theorem agrees_new : new.Agrees where
  clip := rfl
  drag := rfl
  lock := rfl
  reset := rfl
  visible := rfl
  pending h := by cases h
  moves := trivial

theorem Agrees.setDrag (h : world.Agrees) {active pending : Bool}
    (hpending : pending = true → active = true ∧ world.service.resetCursor = true) :
    (world.setDrag active pending).Agrees := by
  unfold CursorWorld.setDrag
  split
  next hsame =>
    exact ⟨h.clip, hsame.trans h.drag, h.lock, h.reset, h.visible, hpending, h.moves⟩
  next => exact ⟨h.clip, rfl, h.lock, h.reset, h.visible, hpending, nofun, h.moves⟩

theorem Agrees.releaseClip (h : world.Agrees) : (world.releaseClip platform).Agrees := by
  unfold CursorWorld.releaseClip
  split
  next hclip =>
    have hmoves : EachEvent MovesBack (.released platform.releaseConfinement :: world.log) :=
      ⟨nofun, h.moves⟩
    cases hdone : platform.releaseConfinement with
    | true =>
      rw [hdone] at hmoves
      exact ⟨rfl, h.drag, h.lock, h.reset, h.visible, h.pending, hmoves⟩
    | false =>
      rw [hdone] at hmoves
      exact ⟨hclip.symm.trans h.clip, h.drag, h.lock, h.reset, h.visible, h.pending, hmoves⟩
  next => exact h

theorem Agrees.restorePosition (h : world.Agrees) : (world.restorePosition platform).Agrees := by
  unfold CursorWorld.restorePosition
  split
  next hpending =>
    split
    next hvisible =>
      refine ⟨h.clip, h.drag, h.lock, h.reset, h.visible, fun _ => h.pending hpending,
        fun other done hmoved => ?_, h.moves⟩
      cases hmoved
      obtain ⟨hdrag, hreset⟩ := h.pending hpending
      exact ⟨h.visible.symm.trans hvisible, h.drag.symm.trans hdrag, h.reset.symm.trans hreset⟩
    next => exact ⟨h.clip, h.drag, h.lock, h.reset, h.visible, nofun, h.moves⟩
  next => exact h

theorem Agrees.finishDrag (h : world.Agrees) : (world.finishDrag platform).Agrees := by
  have hrestored := (h.releaseClip platform).restorePosition platform
  refine hrestored.setDrag fun hpending => ⟨?_, (hrestored.pending hpending).2⟩
  rw [hpending]
  exact Bool.or_true _

theorem Agrees.record (h : world.Agrees) (message : WindowMessage) (snapshot : CursorSnapshot) :
    (world.record message snapshot).Agrees := by
  unfold CursorWorld.record
  split
  next hrecords =>
    refine ⟨h.clip, h.drag, h.lock, h.reset, ?_, h.pending, nofun, h.moves⟩
    simp only [lastPress, if_pos hrecords]
  next hrecords =>
    refine ⟨h.clip, h.drag, h.lock, h.reset, ?_, h.pending, nofun, h.moves⟩
    simp only [lastPress, if_neg hrecords, h.visible]

theorem Agrees.beginDrag (h : world.Agrees) (lockEnabled : Bool) :
    (world.beginDrag lockEnabled world.service.resetCursor).Agrees := by
  unfold CursorWorld.beginDrag
  split
  · exact h.setDrag fun hreset => ⟨rfl, hreset⟩
  · exact h

theorem Agrees.confineDrag (h : world.Agrees) (lockEnabled : Bool) :
    (world.confineDrag platform lockEnabled).Agrees := by
  unfold CursorWorld.confineDrag
  split
  next =>
    have hclip : world.service.clipActive = false := by simp_all
    split
    next point _ =>
      refine ⟨?_, h.drag, h.lock, h.reset, h.visible, h.pending, nofun, h.moves⟩
      cases hdone : platform.confineTo point with
      | true => rfl
      | false => exact hclip.symm.trans h.clip
    next => exact h
  next => exact h

theorem Agrees.askReset (h : world.Agrees) : (world.askReset world.service.resetCursor).Agrees := by
  unfold CursorWorld.askReset
  split
  next hasked =>
    have hdrag := Bool.and_eq_true_iff.mp hasked
    exact ⟨h.clip, h.drag, h.lock, h.reset, h.visible, fun _ => hdrag, h.moves⟩
  next => exact h

@[simp]
theorem resetCursor_beginDrag (lockEnabled resetEnabled : Bool) :
    (world.beginDrag lockEnabled resetEnabled).service.resetCursor =
      world.service.resetCursor := by
  unfold beginDrag
  split <;> rfl

@[simp]
theorem resetCursor_confineDrag (lockEnabled : Bool) :
    (world.confineDrag platform lockEnabled).service.resetCursor = world.service.resetCursor := by
  unfold confineDrag
  split
  · split <;> rfl
  · rfl

theorem Agrees.startDrag (h : world.Agrees) : (world.startDrag platform).Agrees := by
  have hconfined := (h.beginDrag world.service.lockCursor).confineDrag platform
    world.service.lockCursor
  have hasked := hconfined.askReset
  rw [resetCursor_confineDrag, resetCursor_beginDrag] at hasked
  exact hasked

theorem Agrees.handle (h : world.Agrees) (message : WindowMessage) :
    (world.handle platform message).Agrees := by
  unfold CursorWorld.handle
  split
  · exact h.finishDrag platform
  · split
    · cases platform.snapshot with
      | none => exact h
      | some snapshot =>
        have hrecorded := h.record message snapshot
        dsimp only
        split
        · exact hrecorded.finishDrag platform
        · split
          · exact hrecorded.startDrag platform
          · exact hrecorded
    · exact h

theorem Agrees.setLockCursor (h : world.Agrees) (enabled : Bool) :
    (world.setLockCursor platform enabled).Agrees := by
  have hset : Agrees ⟨{ world.service with lockCursor := enabled },
      .lockSet enabled :: world.log⟩ :=
    ⟨h.clip, h.drag, rfl, h.reset, h.visible, h.pending, nofun, h.moves⟩
  unfold CursorWorld.setLockCursor
  dsimp only
  split
  · have hreleased := hset.releaseClip platform
    split
    next hreset =>
      refine hreleased.setDrag fun hpending => ?_
      rw [(hreleased.pending hpending).2] at hreset
      cases hreset
    next => exact hreleased
  · exact hset

theorem Agrees.setResetCursor (h : world.Agrees) (enabled : Bool) :
    (world.setResetCursor enabled).Agrees := by
  unfold CursorWorld.setResetCursor
  cases enabled with
  | true =>
    refine ⟨h.clip, h.drag, h.lock, rfl, h.visible, fun hpending => ?_, nofun, h.moves⟩
    rcases Bool.or_eq_true_iff.mp hpending with hwas | hnow
    · exact ⟨(h.pending hwas).1, rfl⟩
    · exact ⟨hnow, rfl⟩
  | false =>
    have hset : Agrees ⟨{ world.service with resetCursor := false, resetPending := false },
        .resetSet false :: world.log⟩ :=
      ⟨h.clip, h.drag, h.lock, rfl, h.visible, nofun, nofun, h.moves⟩
    dsimp only
    split
    next hactive => cases hactive
    next =>
      split
      · exact hset
      · exact hset.setDrag nofun

theorem Agrees.shutdown (h : world.Agrees) : (world.shutdown platform).Agrees :=
  (h.releaseClip platform).setDrag nofun

end CursorWorld

/-- Between two calls a clip is held in a drag, and a drag goes on for a reason. -/
structure MouseResetService.Sound (service : MouseResetService) : Prop where
  held : service.clipActive = true → service.dragActive = true
  reason : service.dragActive = true → service.clipActive = true ∨ service.resetPending = true ∨
    service.lockCursor = true ∨ service.resetCursor = true

namespace MouseResetService

variable {platform : CursorPlatform} {service : MouseResetService}

theorem Sound.finishDrag : (service.finishDrag platform).Sound where
  held hclip := Bool.or_eq_true_iff.mpr (.inl hclip)
  reason hdrag := (Bool.or_eq_true_iff.mp hdrag).imp id .inl

theorem Sound.startDrag (h : service.Sound) : (service.startDrag platform).Sound := by
  obtain ⟨lock, reset, drag, _, _, _⟩ := service
  obtain ⟨_, _⟩ := h
  constructor
  · intro hclip
    unfold MouseResetService.startDrag at hclip ⊢
    cases drag <;> simp_all
  · intro hdrag
    unfold MouseResetService.startDrag at hdrag ⊢
    cases drag <;> cases lock <;> cases reset <;> simp_all

end MouseResetService

namespace CursorWorld

variable {platform : CursorPlatform} {world : CursorWorld}

theorem sound_finishDrag : (world.finishDrag platform).service.Sound := by
  rw [service_finishDrag]
  exact MouseResetService.Sound.finishDrag

theorem sound_handle (h : world.service.Sound) (message : WindowMessage) :
    (world.handle platform message).service.Sound := by
  unfold handle
  split
  · exact sound_finishDrag
  · split
    · cases platform.snapshot with
      | none => exact h
      | some snapshot =>
        have hrecorded : (world.record message snapshot).service.Sound := by
          unfold record
          split
          · exact ⟨h.held, h.reason⟩
          · exact h
        dsimp only
        split
        · exact sound_finishDrag
        · split
          · rw [service_startDrag]
            exact hrecorded.startDrag
          · exact hrecorded
    · exact h

theorem service_releaseClip : (world.releaseClip platform).service =
    { world.service with
      clipActive := world.service.clipActive && !platform.releaseConfinement } := by
  obtain ⟨⟨_, _, _, clip, _, _⟩, _⟩ := world
  cases clip <;> rfl

theorem sound_setLockCursor (h : world.service.Sound) (enabled : Bool) :
    (world.setLockCursor platform enabled).service.Sound := by
  unfold setLockCursor
  dsimp only
  split
  next =>
    split
    next => exact ⟨id, fun hclip => .inl hclip⟩
    next hreset =>
      simp only [service_releaseClip] at hreset ⊢
      exact ⟨fun hclip => h.held (Bool.and_eq_true_iff.mp hclip).1,
        fun _ => .inr (.inr (.inr (by simpa using hreset)))⟩
  next hkept =>
    refine ⟨h.held, fun hdrag => ?_⟩
    rcases h.reason hdrag with hclip | hpending | hlock | hreset
    · exact .inl hclip
    · exact .inr (.inl hpending)
    · rw [hlock] at hkept
      exact .inr (.inr (.inl (by simpa using hkept)))
    · exact .inr (.inr (.inr hreset))

theorem sound_setResetCursor (h : world.service.Sound) (enabled : Bool) :
    (world.setResetCursor enabled).service.Sound := by
  unfold setResetCursor
  cases enabled with
  | true => exact ⟨h.held, fun _ => .inr (.inr (.inr rfl))⟩
  | false =>
    dsimp only
    split
    next hactive => cases hactive
    next =>
      split
      next hclip => exact ⟨h.held, fun _ => .inl hclip⟩
      next hclip => exact ⟨fun hactive => absurd hactive hclip, nofun⟩

theorem sound_shutdown : (world.shutdown platform).service.Sound := ⟨id, .inl⟩

end CursorWorld

inductive CursorCall where
  | setLockCursor (enabled : Bool)
  | setResetCursor (enabled : Bool)
  | handle (message : WindowMessage)
  | shutdown

namespace CursorCall

variable {platform : CursorPlatform} {world : CursorWorld}

def step (platform : CursorPlatform) (world : CursorWorld) : CursorCall → CursorWorld
  | setLockCursor enabled => world.setLockCursor platform enabled
  | setResetCursor enabled => world.setResetCursor enabled
  | handle message => world.handle platform message
  | shutdown => world.shutdown platform

def run (calls : List (CursorCall × CursorPlatform)) : CursorWorld :=
  calls.foldl (fun world call => call.1.step call.2 world) .new

/-- The calls at which a clip is to be released: a camera message with a visible cursor, a change
of the active application, the lock option switched off, and the shutdown. -/
def Releases (platform : CursorPlatform) (world : CursorWorld) : CursorCall → Prop
  | setLockCursor enabled => world.service.lockCursor = true ∧ enabled = false
  | setResetCursor _ => False
  | handle message => message.message = WM_ACTIVATEAPP ∨
      MouseResetService.isCameraMouseMessage message.message = true ∧
        ∃ snapshot, platform.snapshot = some snapshot ∧ snapshot.visible = true
  | shutdown => True

theorem agrees_step (h : world.Agrees) (call : CursorCall) : (call.step platform world).Agrees := by
  cases call with
  | setLockCursor enabled => exact h.setLockCursor platform enabled
  | setResetCursor enabled => exact h.setResetCursor enabled
  | handle message => exact h.handle platform message
  | shutdown => exact h.shutdown platform

theorem sound_step (h : world.service.Sound) (call : CursorCall) :
    (call.step platform world).service.Sound := by
  cases call with
  | setLockCursor enabled => exact CursorWorld.sound_setLockCursor h enabled
  | setResetCursor enabled => exact CursorWorld.sound_setResetCursor h enabled
  | handle message => exact CursorWorld.sound_handle h message
  | shutdown => exact CursorWorld.sound_shutdown

theorem run_agrees (calls : List (CursorCall × CursorPlatform)) :
    (run calls).Agrees ∧ (run calls).service.Sound := by
  induction calls using List.reverseRecOn with
  | nil => exact ⟨CursorWorld.agrees_new, nofun, nofun⟩
  | append_singleton _ call ih =>
    rw [run, List.foldl_append]
    exact ⟨agrees_step ih.1 call.1, sound_step ih.2 call.1⟩

end CursorCall

namespace CursorWorld

variable (platform : CursorPlatform) (world : CursorWorld)

theorem clipActive_finishDrag : (world.finishDrag platform).service.clipActive =
    (world.service.clipActive && !platform.releaseConfinement) := by
  rw [service_finishDrag]
  rfl

theorem releaseClip_adds : ∃ added, (world.releaseClip platform).log = added ++ world.log ∧
    (world.service.clipActive = true → .released platform.releaseConfinement ∈ added) ∧
    ∀ point done, .moved point done ∉ added := by
  unfold releaseClip
  split
  next => exact ⟨[_], rfl, fun _ => List.mem_singleton_self _, by simp⟩
  next hfree => exact ⟨[], rfl, fun hclip => absurd hclip hfree, by simp⟩

theorem setDrag_adds (active pending : Bool) :
    ∃ added, (world.setDrag active pending).log = added ++ world.log ∧
      ∀ point done, .moved point done ∉ added := by
  unfold setDrag
  split
  next => exact ⟨[], rfl, by simp⟩
  next => exact ⟨[.dragging active], rfl, by simp⟩

theorem setDragIf_adds (ends : Prop) [Decidable ends] (active pending : Bool) :
    ∃ added, (if ends then world.setDrag active pending else world).log = added ++ world.log ∧
      (∀ point done, .moved point done ∉ added) ∧
      (if ends then world.setDrag active pending else world).service.clipActive =
        world.service.clipActive := by
  split
  next =>
    obtain ⟨added, hadded, hstill⟩ := setDrag_adds world active pending
    exact ⟨added, hadded, hstill, rfl⟩
  next => exact ⟨[], rfl, by simp, rfl⟩

theorem restorePosition_adds :
    ∃ added, (world.restorePosition platform).log = added ++ world.log ∧
      ∀ point done, .moved point done ∈ added →
        (world.restorePosition platform).service.resetPending = !done := by
  unfold restorePosition
  split
  next =>
    split
    next point _ =>
      refine ⟨[.moved point (platform.moveTo point)], rfl, fun other done hmoved => ?_⟩
      cases List.mem_singleton.mp hmoved
      rfl
    next => exact ⟨[], rfl, by simp⟩
  next => exact ⟨[], rfl, by simp⟩

theorem finishDrag_adds : ∃ added, (world.finishDrag platform).log = added ++ world.log ∧
    (world.service.clipActive = true → .released platform.releaseConfinement ∈ added) ∧
    ∀ point done, .moved point done ∈ added → (world.finishDrag platform).service.dragActive =
      ((world.finishDrag platform).service.clipActive || !done) := by
  obtain ⟨released, hreleased, hdone, hunmoved⟩ := releaseClip_adds platform world
  obtain ⟨moved, hmoved, hpending⟩ := restorePosition_adds platform
    (world.releaseClip platform)
  let restored := (world.releaseClip platform).restorePosition platform
  obtain ⟨ended, hended, hstill⟩ := setDrag_adds restored
    (restored.service.clipActive || restored.service.resetPending) restored.service.resetPending
  refine ⟨ended ++ (moved ++ released), ?_, fun hclip => ?_, fun point done hin => ?_⟩
  · rw [List.append_assoc, List.append_assoc, ← hreleased, ← hmoved]
    exact hended
  · exact List.mem_append_right _ (List.mem_append_right _ (hdone hclip))
  · rcases List.mem_append.mp hin with hin | hin
    · exact absurd hin (hstill point done)
    · rcases List.mem_append.mp hin with hin | hin
      · rw [← hpending point done hin]
        rfl
      · exact absurd hin (hunmoved point done)

theorem startDrag_adds : ∃ added, (world.startDrag platform).log = added ++ world.log ∧
    ∀ point done, .moved point done ∉ added := by
  have hbegun : ∀ lockEnabled resetEnabled, ∃ added,
      (world.beginDrag lockEnabled resetEnabled).log = added ++ world.log ∧
        ∀ point done, .moved point done ∉ added := by
    intro lockEnabled resetEnabled
    obtain ⟨added, hadded, hstill, _⟩ := setDragIf_adds world
      ((!world.service.dragActive && world.service.lastVisible.isSome &&
        (lockEnabled || resetEnabled)) = true) true resetEnabled
    exact ⟨added, hadded, hstill⟩
  have hconfined : ∀ started : CursorWorld, ∀ lockEnabled, ∃ added,
      (started.confineDrag platform lockEnabled).log = added ++ started.log ∧
        ∀ point done, .moved point done ∉ added := by
    intro started lockEnabled
    unfold confineDrag
    split
    next =>
      split
      next point _ => exact ⟨[.confined point _], rfl, by simp⟩
      next => exact ⟨[], rfl, by simp⟩
    next => exact ⟨[], rfl, by simp⟩
  have hasked : ∀ started : CursorWorld, ∀ resetEnabled,
      (started.askReset resetEnabled).log = started.log := by
    intro started resetEnabled
    unfold askReset
    split <;> rfl
  obtain ⟨begun, hbegin, hstill⟩ := hbegun world.service.lockCursor world.service.resetCursor
  obtain ⟨confined, hconfine, hunmoved⟩ := hconfined
    (world.beginDrag world.service.lockCursor world.service.resetCursor) world.service.lockCursor
  refine ⟨confined ++ begun, ?_, fun point done hin => ?_⟩
  · rw [List.append_assoc, ← hbegin, ← hconfine]
    exact hasked _ _
  · exact (List.mem_append.mp hin).elim (hunmoved point done) (hstill point done)

end CursorWorld

namespace CursorCall

variable {platform : CursorPlatform} {world : CursorWorld}

/-- What a call adds to a log: where a clip is to be released it is tried, and a drag in which the
cursor is moved ends, unless the release or the move fails. -/
structure Adds (platform : CursorPlatform) (world : CursorWorld) (call : CursorCall)
    (added : List CursorEvent) : Prop where
  log : (call.step platform world).log = added ++ world.log
  released : world.service.clipActive = true → call.Releases platform world →
    .released platform.releaseConfinement ∈ added ∧
      (call.step platform world).service.clipActive = !platform.releaseConfinement
  ended : ∀ point done, .moved point done ∈ added →
    (call.step platform world).service.dragActive =
      ((call.step platform world).service.clipActive || !done)

theorem setLockCursor_adds (enabled : Bool) :
    ∃ added, (setLockCursor enabled).Adds platform world added := by
  let set : CursorWorld :=
    ⟨{ world.service with lockCursor := enabled }, .lockSet enabled :: world.log⟩
  let freed := set.releaseClip platform
  obtain ⟨released, hreleased, hdone, hunmoved⟩ :=
    CursorWorld.releaseClip_adds platform set
  obtain ⟨ended, hended, hstill, hsame⟩ := CursorWorld.setDragIf_adds freed
    ((!freed.service.resetCursor) = true) freed.service.clipActive freed.service.resetPending
  by_cases hdisabled : (world.service.lockCursor && !enabled) = true
  · have hstep : (setLockCursor enabled).step platform world =
        if (!freed.service.resetCursor) = true then
          freed.setDrag freed.service.clipActive freed.service.resetPending
        else freed := if_pos hdisabled
    refine ⟨ended ++ (released ++ [.lockSet enabled]), ?_, fun hheld _ => ⟨?_, ?_⟩,
      fun point done hin => ?_⟩
    · have hlog : freed.log = released ++ .lockSet enabled :: world.log := hreleased
      rw [hstep, hended, hlog]
      simp
    · simp [hdone hheld]
    · rw [hstep, hsame, CursorWorld.service_releaseClip]
      exact Bool.and_eq_right_iff_imp.mpr fun _ => hheld
    · simp [hstill, hunmoved] at hin
  · have hstep : (setLockCursor enabled).step platform world = set := if_neg hdisabled
    refine ⟨[.lockSet enabled], ?_, fun _ hreleases => ?_, by simp⟩
    · rw [hstep]
      rfl
    · obtain ⟨hlock, rfl⟩ := hreleases
      rw [hlock] at hdisabled
      exact absurd rfl hdisabled

theorem setResetCursor_adds (enabled : Bool) :
    ∃ added, (setResetCursor enabled).Adds platform world added := by
  cases enabled with
  | true => exact ⟨[.resetSet true], rfl, nofun, by simp⟩
  | false =>
    obtain ⟨ended, hended, hstill, _⟩ := CursorWorld.setDragIf_adds
      ⟨{ world.service with resetCursor := false, resetPending := false },
        .resetSet false :: world.log⟩ (¬world.service.clipActive = true) false false
    refine ⟨ended ++ [.resetSet false], ?_, nofun, fun point done hin => ?_⟩
    · rw [List.append_assoc]
      refine Eq.trans (congrArg CursorWorld.log ?_) hended
      exact (ite_not _ _ _).symm
    · simp [hstill] at hin

theorem shutdown_adds : ∃ added, shutdown.Adds platform world added := by
  obtain ⟨released, hreleased, hdone, hunmoved⟩ :=
    CursorWorld.releaseClip_adds platform world
  obtain ⟨ended, hended, hstill⟩ := CursorWorld.setDrag_adds (world.releaseClip platform)
    (world.releaseClip platform).service.clipActive false
  refine ⟨ended ++ released, ?_, fun hheld _ => ⟨?_, ?_⟩, fun point done hin => ?_⟩
  · rw [List.append_assoc, ← hreleased]
    exact hended
  · exact List.mem_append_right _ (hdone hheld)
  · have hclip : (shutdown.step platform world).service.clipActive =
        (world.releaseClip platform).service.clipActive := rfl
    rw [hclip, CursorWorld.service_releaseClip, hheld]
    rfl
  · exact absurd hin (by simp [hstill, hunmoved])

theorem step_camera (world : CursorWorld) {message : WindowMessage} {snapshot : CursorSnapshot}
    (hactivates : message.message ≠ WM_ACTIVATEAPP)
    (hcamera : MouseResetService.isCameraMouseMessage message.message = true)
    (hsnapshot : platform.snapshot = some snapshot) :
    (handle message).step platform world =
      if ((world.record message snapshot).service.dragActive && snapshot.visible) = true then
        (world.record message snapshot).finishDrag platform
      else if (!snapshot.visible && message.wparam &&& 3 ≠ 0) = true then
        (world.record message snapshot).startDrag platform
      else world.record message snapshot := by
  dsimp only [step]
  unfold CursorWorld.handle
  rw [if_neg hactivates, if_pos hcamera, hsnapshot]

theorem service_record (world : CursorWorld) (message : WindowMessage) (snapshot : CursorSnapshot) :
    (world.record message snapshot).service.clipActive = world.service.clipActive ∧
      (world.record message snapshot).service.dragActive = world.service.dragActive := by
  unfold CursorWorld.record
  split <;> exact ⟨rfl, rfl⟩

theorem camera_adds (h : world.service.Sound) {message : WindowMessage}
    {snapshot : CursorSnapshot} (hactivates : message.message ≠ WM_ACTIVATEAPP)
    (hcamera : MouseResetService.isCameraMouseMessage message.message = true)
    (hsnapshot : platform.snapshot = some snapshot) :
    ∃ added, (handle message).Adds platform world added := by
  have hstep := step_camera world hactivates hcamera hsnapshot
  obtain ⟨hclip, hdrag⟩ := service_record world message snapshot
  by_cases hends :
      ((world.record message snapshot).service.dragActive && snapshot.visible) = true
  · rw [if_pos hends] at hstep
    obtain ⟨added, hadded, hdone, hended⟩ := CursorWorld.finishDrag_adds platform
      (world.record message snapshot)
    refine ⟨added ++ [.asked message snapshot], ?_, fun hheld _ => ⟨?_, ?_⟩,
      fun point done hin => ?_⟩
    · rw [hstep, hadded, List.append_assoc]
      rfl
    · exact List.mem_append_left _ (hdone (hclip.trans hheld))
    · rw [hstep, CursorWorld.clipActive_finishDrag, hclip, hheld, Bool.true_and]
    · rw [hstep]
      exact hended point done (by simpa using hin)
  · rw [if_neg hends] at hstep
    have hfree : world.service.clipActive = true →
        ¬(handle message).Releases platform world := by
      rintro hheld (hactivates' | ⟨_, other, hother, hvisible⟩)
      · exact hactivates hactivates'
      · obtain rfl := Option.some.inj (hsnapshot.symm.trans hother)
        exact hends (by rw [hdrag, h.held hheld, hvisible, Bool.true_and])
    by_cases hstarts : (!snapshot.visible && decide (message.wparam &&& 3 ≠ 0)) = true
    · rw [if_pos hstarts] at hstep
      obtain ⟨added, hadded, hstill⟩ := CursorWorld.startDrag_adds platform
        (world.record message snapshot)
      refine ⟨added ++ [.asked message snapshot], ?_,
        fun hheld hreleases => absurd hreleases (hfree hheld), fun point done hin => ?_⟩
      · rw [hstep, hadded, List.append_assoc]
        rfl
      · exact absurd hin (by simp [hstill])
    · rw [if_neg hstarts] at hstep
      exact ⟨[.asked message snapshot], congrArg CursorWorld.log hstep,
        fun hheld hreleases => absurd hreleases (hfree hheld), by simp⟩

theorem handle_adds (h : world.service.Sound) (message : WindowMessage) :
    ∃ added, (handle message).Adds platform world added := by
  by_cases hactivates : message.message = WM_ACTIVATEAPP
  · have hstep : (handle message).step platform world = world.finishDrag platform :=
      if_pos hactivates
    obtain ⟨added, hadded, hdone, hended⟩ := CursorWorld.finishDrag_adds platform world
    refine ⟨added, hstep ▸ hadded, fun hheld _ => ⟨hdone hheld, ?_⟩, hstep ▸ hended⟩
    rw [hstep, CursorWorld.clipActive_finishDrag, hheld, Bool.true_and]
  · by_cases hcamera : MouseResetService.isCameraMouseMessage message.message = true
    · cases hsnapshot : platform.snapshot with
      | some => exact camera_adds h hactivates hcamera hsnapshot
      | none =>
        have hstep : (handle message).step platform world = world := by
          dsimp only [step]
          unfold CursorWorld.handle
          rw [if_neg hactivates, if_pos hcamera, hsnapshot]
        refine ⟨[], congrArg CursorWorld.log hstep, fun _ hreleases => ?_, nofun⟩
        rcases hreleases with hactivates' | ⟨_, snapshot, hsome, _⟩
        · exact absurd hactivates' hactivates
        · rw [hsnapshot] at hsome
          cases hsome
    · have hstep : (handle message).step platform world = world :=
        (if_neg hactivates).trans (if_neg hcamera)
      refine ⟨[], congrArg CursorWorld.log hstep, fun _ hreleases => ?_, nofun⟩
      rcases hreleases with hactivates' | ⟨hcamera', _⟩
      · exact absurd hactivates' hactivates
      · exact absurd hcamera' hcamera

theorem step_adds (h : world.service.Sound) (call : CursorCall) :
    ∃ added, call.Adds platform world added := by
  cases call with
  | setLockCursor enabled => exact setLockCursor_adds enabled
  | setResetCursor enabled => exact setResetCursor_adds enabled
  | handle message => exact handle_adds h message
  | shutdown => exact shutdown_adds

/-- The clip of a camera drag is never leaked. -/
theorem clip_never_leaked (calls : List (CursorCall × CursorPlatform)) :
    let world := run calls
    (world.service.clipActive = true ↔ ∃ later point earlier,
      world.log = later ++ .confined point true :: earlier ∧ .released true ∉ later) ∧
    (world.service.clipActive = true → world.service.dragActive = true) ∧
    (world.service.dragActive = true →
      world.service.clipActive = true ∨ world.service.resetPending = true ∨
        world.service.lockCursor = true ∨ world.service.resetCursor = true) ∧
    EachEvent MovesBack world.log ∧
    ∀ (platform : CursorPlatform) (call : CursorCall), ∃ added, call.Adds platform world added := by
  obtain ⟨hagrees, hsound⟩ := run_agrees calls
  refine ⟨?_, hsound.held, hsound.reason, hagrees.moves, fun platform call => step_adds hsound call⟩
  rw [hagrees.clip]
  exact clipHeld_iff

end CursorCall

end Nexus.WindowInput
