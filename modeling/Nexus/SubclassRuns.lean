import Nexus.EventLog
import Nexus.WindowSubclasses

namespace Nexus.WindowInput

variable {P : SubclassWorld → Prop} {world : SubclassWorld} {entry : SubclassEntry}

/-- What every change to the registry, the handles, the windows and the targets keeps. -/
structure KeptBySteps (P : SubclassWorld → Prop) : Prop where
  others : ∀ {world} windows targets alive, P world → P (world.others windows targets alive)
  register : ∀ {world} hwnd adapterId target answers, P world →
    P (world.register hwnd adapterId target answers).2
  dropHandle : ∀ {world} entry, P world → P (world.dropHandle entry)
  removeRegisteredEntry : ∀ {world} entry, P world → P (world.removeRegisteredEntry entry)
  restoreIfTopmost : ∀ {world} {entry : SubclassEntry} done, P world →
    world.registry entry.hwnd = some entry → P (world.restoreIfTopmost entry done)
  resetTarget : ∀ {world} target, P world → P (world.resetTarget target)

/-- Whatever happens while a message is handled keeps `P`. -/
structure Meanwhile.Keeps (during : Meanwhile (SubclassWorld → SubclassWorld))
    (P : SubclassWorld → Prop) : Prop where
  found : ∀ world, P world → P (during.found world)
  retired : ∀ world, P world → P (during.retired world)
  unleased : ∀ world, P world → P (during.unleased world)
  beforeUi : ∀ world, P world → P (during.beforeUi world)
  enqueued : ∀ world, P world → P (during.enqueued world)
  captured : ∀ world, P world → P (during.captured world)
  afterUi : ∀ world, P world → P (during.afterUi world)
  shutDown : ∀ world, P world → P (during.shutDown world)
  redirected : ∀ world, P world → P (during.redirected world)
  predecessor : ∀ world, P world → P (during.predecessor world)

namespace KeptBySteps

theorem install (h : KeptBySteps P) {waiting : SubclassWorld → SubclassWorld}
    (hwaiting : ∀ world, P world → P (waiting world)) (hwnd adapterId : BitVec 64) (target : Nat)
    (answers : InstallAnswers) (hP : P world) :
    P (world.install hwnd adapterId target answers waiting).2 := by
  unfold SubclassWorld.install
  split
  · exact hP
  split
  · exact hP
  split
  · exact hP
  · exact h.register hwnd adapterId target answers (hwaiting world hP)

theorem restoreInactive (h : KeptBySteps P) (entry : SubclassEntry) (done : Bool) (hP : P world) :
    P (world.restoreInactiveTargetIfTopmost entry done) := by
  unfold SubclassWorld.restoreInactiveTargetIfTopmost
  split
  next hregistered => exact h.restoreIfTopmost done hP (of_decide_eq_true hregistered)
  next => exact hP

theorem restoreIfUnleased (h : KeptBySteps P) (entry : SubclassEntry) (done : Bool)
    (hP : P world) : P (world.restoreIfUnleasedAndTopmost entry done).2 := by
  unfold SubclassWorld.restoreIfUnleasedAndTopmost
  split
  · exact hP
  next hregistered =>
    split
    · exact hP
    · exact h.restoreIfTopmost done hP (by simpa [SubclassWorld.isRegistered] using hregistered)

variable {answers : MessageAnswers} {during : Meanwhile (SubclassWorld → SubclassWorld)}

theorem passThrough (h : KeptBySteps P) (hduring : during.Keeps P) (entry : SubclassEntry)
    (target : Nat) (original : WindowMessage) (hP : P world) :
    P (passThrough answers during entry target original world).world := by
  unfold WindowInput.passThrough
  split
  · exact hduring.predecessor world hP
  · exact hduring.predecessor _
      (h.restoreInactive entry _ (hduring.retired _ (h.resetTarget target hP)))

theorem route (h : KeptBySteps P) (hduring : during.Keeps P) (entry : SubclassEntry)
    (target : Nat) (original : WindowMessage) (hP : P world) :
    P (route answers during entry target original world).world := by
  have hbefore := hduring.beforeUi world hP
  unfold WindowInput.route
  dsimp only
  split
  · exact h.passThrough hduring entry target original hbefore
  split
  · exact hbefore
  have hcaptured := hduring.captured _ (hduring.enqueued _ hbefore)
  split
  · exact h.passThrough hduring entry target original hcaptured
  split
  · exact hcaptured
  have hafter := hduring.afterUi _ hcaptured
  split
  · exact h.passThrough hduring entry target original hafter
  split
  · exact hafter
  have hshut := hduring.shutDown _ hafter
  split
  · exact h.passThrough hduring entry target original hshut
  have hredirected := hduring.redirected _ hshut
  split
  · exact h.passThrough hduring entry target original hredirected
  · exact hduring.predecessor _ hredirected

theorem overlayWndProc (h : KeptBySteps P) (hduring : during.Keeps P) (message : WindowMessage)
    (hP : P world) : P (overlayWndProc answers during message world).world := by
  unfold WindowInput.overlayWndProc
  split
  · exact hP
  next entry _ =>
    have hfound := hduring.found world hP
    dsimp only
    split
    · exact h.removeRegisteredEntry entry
        (hduring.predecessor _ (hduring.retired _ hfound))
    split
    · exact hduring.predecessor _ (h.restoreInactive entry _ (hduring.retired _ hfound))
    have hunleased : P (isUnleased answers during entry (during.found world)).2 := by
      unfold isUnleased
      split
      · exact h.restoreIfUnleased entry _ (hduring.unleased _ hfound)
      · exact hfound
    split
    · exact hduring.predecessor _ hunleased
    split
    · exact h.route hduring entry entry.target message hunleased
    · exact hduring.predecessor _ hunleased

mutual

theorem run (h : KeptBySteps P) : ∀ (call : SubclassCall) (world : SubclassWorld), P world →
    P (call.run world)
  | .others windows targets alive, _, hP => h.others windows targets alive hP
  | .install hwnd adapterId target answers waiting, _, hP =>
    h.install (runCalls_kept h waiting) hwnd adapterId target answers hP
  | .drop entry, _, hP => h.dropHandle entry hP
  | .message message _ ⟨found, retired, unleased, beforeUi, enqueued, captured, afterUi, shutDown,
      redirected, predecessor⟩, _, hP =>
    h.overlayWndProc ⟨runCalls_kept h found, runCalls_kept h retired, runCalls_kept h unleased,
      runCalls_kept h beforeUi, runCalls_kept h enqueued, runCalls_kept h captured,
      runCalls_kept h afterUi, runCalls_kept h shutDown, runCalls_kept h redirected,
      runCalls_kept h predecessor⟩ message hP

theorem runCalls_kept (h : KeptBySteps P) : ∀ (calls : List SubclassCall) (world : SubclassWorld),
    P world → P (runCalls calls world)
  | [], _, hP => hP
  | call :: calls, world, hP => runCalls_kept h calls (call.run world) (run h call world hP)

end

end KeptBySteps

def registeredIn (hwnd : BitVec 64) : List SubclassEvent → Option SubclassEntry
  | [] => none
  | .others _ :: earlier => registeredIn hwnd earlier
  | .installed entry :: earlier =>
    if entry.hwnd = hwnd then some entry else registeredIn hwnd earlier
  | .restored entry done :: earlier =>
    if done ∧ entry.hwnd = hwnd then none else registeredIn hwnd earlier
  | .destroyed entry :: earlier => if entry.hwnd = hwnd then none else registeredIn hwnd earlier

def windowsIn : List SubclassEvent → BitVec 64 → Option WindowProcedure
  | [], _ => none
  | .others windows :: _, hwnd => windows hwnd
  | .installed entry :: earlier, hwnd =>
    if entry.hwnd = hwnd then some .overlay else windowsIn earlier hwnd
  | .restored entry done :: earlier, hwnd =>
    if done ∧ entry.hwnd = hwnd then some entry.original else windowsIn earlier hwnd
  | .destroyed _ :: earlier, hwnd => windowsIn earlier hwnd

/-- The predecessor saved is the procedure that ours replaces, and it is written back only over
ours. -/
def InOrder (event : SubclassEvent) (earlier : List SubclassEvent) : Prop :=
  match event with
  | .others _ => True
  | .installed entry =>
    registeredIn entry.hwnd earlier = none ∧ windowsIn earlier entry.hwnd = some entry.original
  | .restored entry _ =>
    registeredIn entry.hwnd earlier = some entry ∧ windowsIn earlier entry.hwnd = some .overlay
  | .destroyed entry => registeredIn entry.hwnd earlier = some entry

theorem registeredIn_stays {hwnd : BitVec 64} {added earlier : List SubclassEvent}
    (horder : EachEvent InOrder (added ++ earlier)) (h : registeredIn hwnd earlier = some entry)
    (hrestored : .restored entry true ∉ added) (hdestroyed : .destroyed entry ∉ added) :
    registeredIn hwnd (added ++ earlier) = some entry := by
  induction added with
  | nil => exact h
  | cons event _ ih =>
    obtain ⟨hevent, hrest⟩ := horder
    obtain ⟨hneRestored, hnoRestored⟩ := not_or.mp (mt List.mem_cons.mpr hrestored)
    obtain ⟨hneDestroyed, hnoDestroyed⟩ := not_or.mp (mt List.mem_cons.mpr hdestroyed)
    have hstill := ih hrest hnoRestored hnoDestroyed
    cases event with
    | others => exact hstill
    | installed other =>
      have hother : other.hwnd ≠ hwnd := by
        rintro rfl
        cases hstill.symm.trans hevent.1
      exact (if_neg hother).trans hstill
    | restored other done =>
      have hother : ¬(done = true ∧ other.hwnd = hwnd) := by
        rintro ⟨rfl, rfl⟩
        obtain rfl := Option.some.inj (hstill.symm.trans hevent.1)
        exact hneRestored rfl
      exact (if_neg hother).trans hstill
    | destroyed other =>
      have hother : other.hwnd ≠ hwnd := by
        rintro rfl
        obtain rfl := Option.some.inj (hstill.symm.trans hevent)
        exact hneDestroyed rfl
      exact (if_neg hother).trans hstill

/-- The leases of an entry in the registry are its handles, and the registry and the windows are as
the log says. -/
structure SubclassWorld.Sound (world : SubclassWorld) : Prop where
  registry : ∀ hwnd, world.registry hwnd = registeredIn hwnd world.log
  windows : ∀ hwnd, world.windows hwnd = windowsIn world.log hwnd
  hwnd : ∀ {hwnd entry}, world.registry hwnd = some entry → entry.hwnd = hwnd
  leases : ∀ {hwnd entry}, world.registry hwnd = some entry →
    world.leases entry = world.handles.count entry
  fresh : ∀ {hwnd entry}, world.registry hwnd = some entry → entry.id < world.nextId
  handles : ∀ entry ∈ world.handles, entry.id < world.nextId
  order : EachEvent InOrder world.log

namespace SubclassWorld

theorem sound_new : new.Sound where
  registry _ := rfl
  windows _ := rfl
  hwnd := nofun
  leases := nofun
  fresh := nofun
  handles := nofun
  order := trivial

theorem Sound.others (h : world.Sound) (windows : BitVec 64 → Option WindowProcedure)
    (targets : Nat → TargetFlags) (alive : Nat → Bool) :
    (world.others windows targets alive).Sound :=
  ⟨h.registry, fun _ => rfl, h.hwnd, h.leases, h.fresh, h.handles, trivial, h.order⟩

theorem Sound.resetTarget (h : world.Sound) (target : Nat) : (world.resetTarget target).Sound :=
  ⟨h.registry, h.windows, h.hwnd, h.leases, h.fresh, h.handles, h.order⟩

theorem Sound.addLease (h : world.Sound) {hwnd : BitVec 64}
    (hentry : world.registry hwnd = some entry) :
    (world.addLease entry (world.leases entry + 1)).Sound where
  registry := h.registry
  windows := h.windows
  hwnd := h.hwnd
  leases := by
    intro other found hfound
    dsimp only [SubclassWorld.addLease]
    by_cases hsame : found = entry
    · rw [hsame, Function.update_self, List.count_cons_self, h.leases hentry]
    · rw [Function.update_of_ne hsame, List.count_cons_of_ne (Ne.symm hsame), h.leases hfound]
  fresh := h.fresh
  handles := by
    intro other hother
    rcases List.mem_cons.mp hother with rfl | hother
    · exact h.fresh hentry
    · exact h.handles other hother
  order := h.order

theorem update_eq {β : Type} (f : BitVec 64 → β) (hwnd other : BitVec 64) (value : β) :
    Function.update f hwnd value other = if hwnd = other then value else f other := by
  by_cases hother : hwnd = other
  · rw [if_pos hother, ← hother, Function.update_self]
  · rw [if_neg hother, Function.update_of_ne (Ne.symm hother)]

theorem registered_of_update {hwnd other : BitVec 64} {value : Option SubclassEntry}
    (h : Function.update world.registry hwnd value other = some entry) :
    value = some entry ∧ hwnd = other ∨ world.registry other = some entry := by
  rw [update_eq] at h
  split at h
  next hother => exact .inl ⟨h, hother⟩
  next => exact .inr h

theorem Sound.insertEntry (h : world.Sound) {hwnd : BitVec 64} (adapterId : BitVec 64)
    (target : Nat) {original : WindowProcedure} (hfree : world.registry hwnd = none)
    (hwindow : world.windows hwnd = some original) :
    (world.insertEntry hwnd adapterId target original).2.Sound := by
  let entry : SubclassEntry := ⟨world.nextId, hwnd, adapterId, original, target⟩
  have hnew : ∀ other : SubclassEntry, other.id < world.nextId → other ≠ entry := by
    rintro other hlt rfl
    exact Nat.lt_irrefl _ hlt
  refine ⟨fun other => ?_, fun other => ?_, fun hfound => ?_, fun {_ found} hfound => ?_,
    fun hfound => ?_, fun found hfound => ?_, ⟨?_, ?_⟩, h.order⟩
  · exact (update_eq ..).trans (by rw [h.registry]; rfl)
  · exact (update_eq ..).trans (by rw [h.windows]; rfl)
  · rcases registered_of_update hfound with ⟨hentry, rfl⟩ | hold
    · cases hentry
      rfl
    · exact h.hwnd hold
  · have hleases : Function.update world.leases entry 1 found =
        (entry :: world.handles).count found := by
      rcases registered_of_update hfound with ⟨hentry, _⟩ | hold
      · cases hentry
        have hcount : world.handles.count entry = 0 :=
          List.count_eq_zero.mpr fun hmem => hnew entry (h.handles entry hmem) rfl
        rw [Function.update_self, List.count_cons_self, hcount]
      · have hother := hnew found (h.fresh hold)
        rw [Function.update_of_ne hother, List.count_cons_of_ne hother.symm, h.leases hold]
    exact hleases
  · rcases registered_of_update hfound with ⟨hentry, _⟩ | hold
    · cases hentry
      exact Nat.lt_succ_self _
    · exact Nat.lt_succ_of_lt (h.fresh hold)
  · rcases List.mem_cons.mp hfound with rfl | hold
    · exact Nat.lt_succ_self _
    · exact Nat.lt_succ_of_lt (h.handles found hold)
  · exact (h.registry hwnd).symm.trans hfree
  · exact (h.windows hwnd).symm.trans hwindow

theorem Sound.register (h : world.Sound) (hwnd adapterId : BitVec 64) (target : Nat)
    (answers : InstallAnswers) : (world.register hwnd adapterId target answers).2.Sound := by
  unfold SubclassWorld.register
  split
  · exact h
  split
  next hentry =>
    dsimp only
    split
    · exact h
    split
    · exact h.addLease hentry
    · exact h
  next hfree =>
    split
    · exact h
    split
    · exact h
    next hwindow =>
      split
      · exact h
      · exact h.insertEntry adapterId target hfree hwindow

theorem registered_of_removed {hwnd other : BitVec 64}
    (h : Function.update world.registry hwnd none other = some entry) :
    world.registry other = some entry := by
  rcases registered_of_update h with ⟨hnone, _⟩ | hold
  · cases hnone
  · exact hold

theorem Sound.removeRegisteredEntry (h : world.Sound) (entry : SubclassEntry) :
    (world.removeRegisteredEntry entry).Sound := by
  unfold SubclassWorld.removeRegisteredEntry
  split
  next hregistered =>
    refine ⟨fun other => ?_, h.windows, fun hfound => h.hwnd (registered_of_removed hfound),
      fun hfound => h.leases (registered_of_removed hfound),
      fun hfound => h.fresh (registered_of_removed hfound), h.handles, ?_, h.order⟩
    · exact (update_eq ..).trans (by rw [h.registry]; rfl)
    · exact (h.registry entry.hwnd).symm.trans (of_decide_eq_true hregistered)
  next => exact h

theorem Sound.restoreIfTopmost (h : world.Sound) (done : Bool)
    (hregistered : world.registry entry.hwnd = some entry) :
    (world.restoreIfTopmost entry done).Sound := by
  unfold SubclassWorld.restoreIfTopmost
  split
  next => exact h
  next htopmost =>
    have horder : EachEvent InOrder (.restored entry done :: world.log) :=
      ⟨⟨(h.registry entry.hwnd).symm.trans hregistered,
        (h.windows entry.hwnd).symm.trans (not_not.mp htopmost)⟩, h.order⟩
    cases done with
    | false => exact ⟨h.registry, h.windows, h.hwnd, h.leases, h.fresh, h.handles, horder⟩
    | true =>
      refine ⟨fun other => ?_, fun other => ?_, fun hfound => h.hwnd (registered_of_removed hfound),
        fun hfound => h.leases (registered_of_removed hfound),
        fun hfound => h.fresh (registered_of_removed hfound), h.handles, horder⟩
      · refine (update_eq ..).trans ?_
        rw [h.registry]
        simp only [if_true, registeredIn, true_and]
      · refine (update_eq ..).trans ?_
        rw [h.windows]
        simp only [if_true, windowsIn, true_and]

theorem Sound.dropHandle (h : world.Sound) (entry : SubclassEntry) :
    (world.dropHandle entry).Sound := by
  unfold SubclassWorld.dropHandle
  split
  next hhandle =>
    have hcount : 0 < world.handles.count entry := List.count_pos_iff.mpr hhandle
    have hother : ∀ found, found ≠ entry →
        (world.handles.erase entry).count found = world.handles.count found :=
      fun found hne => List.count_erase_of_ne hne
    have hhandles : ∀ found ∈ world.handles.erase entry, found.id < world.nextId :=
      fun found hfound => h.handles found (List.mem_of_mem_erase hfound)
    unfold SubclassWorld.releaseSubclass
    dsimp only
    split
    next hunregistered =>
      refine ⟨h.registry, h.windows, h.hwnd, fun {hwnd found} hfound => ?_, h.fresh, hhandles,
        h.order⟩
      have hne : found ≠ entry := by
        rintro rfl
        have hregistered : world.registry found.hwnd = some found := h.hwnd hfound ▸ hfound
        rw [← h.leases hfound] at hcount
        simp [isRegistered, hregistered, Nat.ne_of_gt hcount] at hunregistered
      exact (h.leases hfound).trans (hother found hne).symm
    next =>
      refine ⟨h.registry, h.windows, h.hwnd, fun {_ found} hfound => ?_, h.fresh, hhandles, h.order⟩
      dsimp only
      by_cases hsame : found = entry
      · rw [hsame, Function.update_self, List.count_erase_self, h.leases (hsame ▸ hfound)]
      · rw [Function.update_of_ne hsame, hother found hsame, h.leases hfound]
  next => exact h

theorem keptBySteps_sound : KeptBySteps Sound where
  others windows targets alive h := h.others windows targets alive
  register hwnd adapterId target answers h := h.register hwnd adapterId target answers
  dropHandle entry h := h.dropHandle entry
  removeRegisteredEntry entry h := h.removeRegisteredEntry entry
  restoreIfTopmost done h hregistered := h.restoreIfTopmost done hregistered
  resetTarget target h := h.resetTarget target

end SubclassWorld

theorem runCalls_sound (calls : List SubclassCall) : (runCalls calls .new).Sound :=
  SubclassWorld.keptBySteps_sound.runCalls_kept calls _ SubclassWorld.sound_new

end Nexus.WindowInput
