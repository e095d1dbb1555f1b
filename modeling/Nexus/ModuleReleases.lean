import Nexus.ModuleMoves

namespace Nexus

open Fallible

structure FreeAttempt where
  handle : ModuleHandle
  releaser : Releaser
  outcome : Call (Except PlatformError Unit)
  deriving DecidableEq

structure History where
  handle : Option ModuleHandle
  entered : Bool
  unloads : Nat
  attempts : List FreeAttempt
  deriving DecidableEq

/-- Attempts are newest first. -/
def history (id : Nat) : List Event → History
  | [] => ⟨none, false, 0, []⟩
  | .loaded m handle :: log =>
    if m = id then { history id log with handle := some handle } else history id log
  | .loadEntered m _ _ :: log =>
    if m = id then { history id log with entered := true } else history id log
  | .unloadEntered m :: log =>
    if m = id then { history id log with unloads := (history id log).unloads + 1 }
    else history id log
  | .freed m handle releaser outcome :: log =>
    if m = id then { history id log with
      attempts := ⟨handle, releaser, outcome⟩ :: (history id log).attempts }
    else history id log
  | _ :: log => history id log

def FreeAttempt.Refused (attempt : FreeAttempt) : Prop :=
  ∃ source, attempt.outcome = .returned (.error source)

/-- A reference is released after it was loaded, again only by an explicit release and only
when every earlier call returned an ordinary error. -/
def ReleasedOnce (event : Event) (earlier : List Event) : Prop :=
  ∀ id handle releaser outcome, event = .freed id handle releaser outcome →
    (history id earlier).handle = some handle ∧
      ∀ attempt ∈ (history id earlier).attempts, attempt.Refused ∧ releaser = .release

structure Custody (m : AddonModule) (past : History) : Prop where
  handle : ∀ handle, m.handle = some handle → past.handle = some handle
  refused : m.handle.isSome → ∀ attempt ∈ past.attempts, attempt.Refused
  pinned : past.attempts ≠ [] → m.releaseOnDrop = false
  unentered : m.state = .inspected → past.entered = false

inductive Holding where
  | module (m : AddonModule)
  | failure (f : ReleaseFailure)

def Holding.held : Holding → AddonModule
  | .module m => m
  | .failure f => f.module

/-- The values of all loads so far and, in `rejected`, the loads that returned an error after
the platform had loaded. -/
structure LoaderWorld extends Shared where
  holdings : Nat → Option Holding
  rejected : List Nat

inductive LoaderOp where
  | load (answers : LoadAnswers) (limits : MetadataLimits)
  | activate (id : Nat) (callback : Call Unit)
  | requestShutdown (id : Nat)
  | waitForCallbacks (id : Nat) (leaving : Nat)
  | invokeUnload (id : Nat) (callback : Call Unit)
  | completeHostCleanup (id : Nat) (cleanup : Call (Except Unit Unit))
  | release (id : Nat) (freeLibrary : Call (Except PlatformError Unit))
  | intoParts (id : Nat)
  | drop (id : Nat) (freeLibrary : Call (Except PlatformError Unit))
  | enter (gate : GateRef)
  | leave (gate : GateRef) (count : Nat)

namespace LoaderWorld

def start : LoaderWorld := ⟨Shared.start, fun _ => none, []⟩

def hold (w : LoaderWorld) (shared : Shared) (id : Nat) (holding : Option Holding) :
    LoaderWorld :=
  { w with toShared := shared, holdings := Function.update w.holdings id holding }

def load (w : LoaderWorld) (answers : LoadAnswers) (limits : MetadataLimits) : LoaderWorld :=
  match AddonLoader.loadAbsolute answers limits w.toShared with
  | (.ok m, s) => w.hold s m.id (some (.module m))
  | (.error _, s) =>
    { w with
      toShared := s
      rejected := if s.nextModule = w.nextModule then w.rejected else w.nextModule :: w.rejected }

def call (w : LoaderWorld) (id : Nat) (method : ModuleM Unit) : LoaderWorld :=
  match w.holdings id with
  | some (.module m) =>
    let r := (method ⟨w.toShared, m⟩).2
    w.hold r.toShared id (some (.module r.module))
  | _ => w

def release (w : LoaderWorld) (id : Nat) (freeLibrary : Call (Except PlatformError Unit)) :
    LoaderWorld :=
  match w.holdings id with
  | some (.module m) =>
    match AddonModule.release freeLibrary m w.toShared with
    | (.ok (), s) => w.hold s id none
    | (.error failure, s) => w.hold s id (some (.failure failure))
  | _ => w

def intoParts (w : LoaderWorld) (id : Nat) : LoaderWorld :=
  match w.holdings id with
  | some (.failure failure) => w.hold w.toShared id (some (.module failure.intoParts.1))
  | _ => w

def drop (w : LoaderWorld) (id : Nat) (freeLibrary : Call (Except PlatformError Unit)) :
    LoaderWorld :=
  match w.holdings id with
  | some holding => w.hold (holding.held.drop freeLibrary w.toShared) id none
  | none => w

def step (w : LoaderWorld) : LoaderOp → LoaderWorld
  | .load answers limits => w.load answers limits
  | .activate id callback => w.call id (AddonModule.activate callback)
  | .requestShutdown id => w.call id AddonModule.requestShutdown
  | .waitForCallbacks id leaving => w.call id (AddonModule.waitForCallbacks leaving)
  | .invokeUnload id callback => w.call id (AddonModule.invokeUnload callback)
  | .completeHostCleanup id cleanup => w.call id (AddonModule.completeHostCleanup cleanup)
  | .release id freeLibrary => w.release id freeLibrary
  | .intoParts id => w.intoParts id
  | .drop id freeLibrary => w.drop id freeLibrary
  | .enter gate => { w with toShared := (w.toShared.enterGate gate).2 }
  | .leave gate count => { w with toShared := w.toShared.leaveGate gate count }

def after (ops : List LoaderOp) : LoaderWorld := ops.foldl step start

end LoaderWorld

/-- An event an operation short of the release adds for the module of load `id`. -/
def StepEvent (id : Nat) : Event → Prop
  | .opened _ | .closed _ | .admitted _ | .left .. => True
  | .loadEntered m _ _ | .unloadEntered m => m = id
  | _ => False

def AddsSteps (id : Nat) (s s' : Shared) : Prop :=
  ∃ events, s'.log = events ++ s.log ∧ ∀ event ∈ events, StepEvent id event

theorem AddsSteps.cons {id : Nat} {s s' : Shared} {event : Event}
    (h : s'.log = event :: s.log) (he : StepEvent id event) : AddsSteps id s s' :=
  ⟨[event], h, by simpa using he⟩

theorem AddsSteps.trans {id : Nat} {s t u : Shared} (h : AddsSteps id s t)
    (h' : AddsSteps id t u) : AddsSteps id s u := by
  obtain ⟨events, he, hs⟩ := h
  obtain ⟨events', he', hs'⟩ := h'
  refine ⟨events' ++ events, by rw [he', he, List.append_assoc], fun event hm => ?_⟩
  rcases List.mem_append.mp hm with hm | hm
  · exact hs' event hm
  · exact hs event hm

theorem AddsSteps.refl (id : Nat) (s : Shared) : AddsSteps id s s := ⟨[], rfl, by simp⟩

theorem stepEvent_history {id : Nat} (other : Nat) {event : Event} (h : StepEvent id event)
    (log : List Event) :
    (other ≠ id → history other (event :: log) = history other log) ∧
      (history other (event :: log)).handle = (history other log).handle ∧
      (history other (event :: log)).attempts = (history other log).attempts := by
  cases event with
  | opened | closed | admitted | left => exact ⟨fun _ => rfl, rfl, rfl⟩
  | cleaned | loaded | freed | bound | startupFinished => exact absurd h not_false
  | loadEntered m | unloadEntered m =>
    obtain rfl : m = id := h
    refine ⟨fun hne => if_neg (Ne.symm hne), ?_, ?_⟩ <;>
    · simp only [history]
      split <;> rfl

namespace AddsSteps

variable {id : Nat} {s s' : Shared}

theorem history_eq (h : AddsSteps id s s') (other : Nat) :
    (other ≠ id → history other s'.log = history other s.log) ∧
      (history other s'.log).handle = (history other s.log).handle ∧
      (history other s'.log).attempts = (history other s.log).attempts := by
  obtain ⟨events, he, hs⟩ := h
  rw [he]
  clear he
  induction events with
  | nil => exact ⟨fun _ => rfl, rfl, rfl⟩
  | cons event events ih =>
    obtain ⟨ih1, ih2, ih3⟩ := ih fun e hm => hs e (List.mem_cons_of_mem _ hm)
    obtain ⟨h1, h2, h3⟩ := stepEvent_history other (hs event (List.mem_cons_self ..))
      (events ++ s.log)
    exact ⟨fun hne => (h1 hne).trans (ih1 hne), h2.trans ih2, h3.trans ih3⟩

theorem releasedOnce (h : AddsSteps id s s') (hs : EachEvent ReleasedOnce s.log) :
    EachEvent ReleasedOnce s'.log := by
  obtain ⟨events, he, hev⟩ := h
  rw [he]
  clear he
  induction events with
  | nil => exact hs
  | cons _ _ ih =>
    refine ⟨?_, ih fun e hm => hev e (List.mem_cons_of_mem _ hm)⟩
    rintro _ _ _ _ rfl
    exact absurd (hev _ (List.mem_cons_self ..)) not_false

theorem enterGate (id : Nat) (s : Shared) (ref : GateRef) :
    AddsSteps id s (s.enterGate ref).2 := by
  rcases s.enterGate_cases ref with h | ⟨_, h⟩ <;> rw [h]
  · exact .refl id s
  · exact .cons rfl trivial

theorem leaveGate (id : Nat) (s : Shared) (ref : GateRef) (count : Nat) :
    AddsSteps id s (s.leaveGate ref count) := .cons rfl trivial

theorem waitForDrain (id : Nat) (s : Shared) (ref : GateRef) (leaving : Nat) :
    AddsSteps id s (s.waitForDrain ref leaving).2 := by
  rcases s.waitForDrain_cases ref leaving with h | h <;> rw [h]
  · exact .refl id s
  · exact .leaveGate id s ref leaving

theorem closeGate (id : Nat) (s : Shared) (ref : GateRef) :
    AddsSteps id s (s.closeGate ref) := .cons rfl trivial

theorem closeUnactivated (id : Nat) (m : AddonModule) (s : Shared) :
    AddsSteps id s (m.closeUnactivated s) := by
  unfold AddonModule.closeUnactivated
  split
  · exact .closeGate id s _
  · exact .refl id s

end AddsSteps

theorem history_closeUnactivated (id : Nat) (m : AddonModule) (s : Shared) :
    history id (m.closeUnactivated s).log = history id s.log := by
  unfold AddonModule.closeUnactivated
  split <;> rfl

theorem nextModule_closeUnactivated (m : AddonModule) (s : Shared) :
    (m.closeUnactivated s).nextModule = s.nextModule := by
  unfold AddonModule.closeUnactivated
  split <;> rfl

theorem ModuleWorld.loadEntered_adds (w : ModuleWorld) :
    AddsSteps w.module.id w.toShared w.loadEntered := by
  refine (AddsSteps.enterGate _ _ w.module.gate).trans (.trans (.cons rfl ?_) (.leaveGate _ _ _ 1))
  exact rfl

theorem ModuleMove.adds {w w' : ModuleWorld} (h : ModuleMove w w') :
    AddsSteps w.module.id w.toShared w'.toShared := by
  cases h with
  | load => exact w.loadEntered_adds
  | loadFailed => exact w.loadEntered_adds.trans (.closeGate _ _ _)
  | shutdown => exact .closeGate _ _ _
  | wait => exact .waitForDrain _ _ _ _
  | quiesce | complete => exact .refl _ _
  | unload =>
    change AddsSteps w.module.id w.toShared w.unloadEntered
    unfold ModuleWorld.unloadEntered
    split
    · exact .cons rfl rfl
    · exact .refl _ _

theorem ModuleMove.module_eq {w w' : ModuleWorld} (h : ModuleMove w w') :
    (∃ state, w'.module = { w.module with state := state }) ∧ w'.module.state ≠ .inspected := by
  cases h with
  | wait _ hs => exact ⟨⟨_, rfl⟩, by simp [hs]⟩
  | load | loadFailed | shutdown | quiesce | unload | complete =>
    exact ⟨⟨_, rfl⟩, by simp [ModuleWorld.become]⟩

theorem Shared.waitForDrain_nextModule (s : Shared) (ref : GateRef) (leaving : Nat) :
    (s.waitForDrain ref leaving).2.nextModule = s.nextModule := by
  rcases s.waitForDrain_cases ref leaving with h | h <;> rw [h]
  rfl

theorem Shared.enterGate_nextModule (s : Shared) (ref : GateRef) :
    (s.enterGate ref).2.nextModule = s.nextModule := by
  rcases s.enterGate_cases ref with h | ⟨_, h⟩ <;> rw [h]
  rfl

theorem ModuleMove.nextModule_eq {w w' : ModuleWorld} (h : ModuleMove w w') :
    w'.nextModule = w.nextModule := by
  cases h with
  | load | loadFailed => exact w.toShared.enterGate_nextModule _
  | shutdown | quiesce | complete => rfl
  | wait => exact w.toShared.waitForDrain_nextModule _ _
  | unload =>
    change w.unloadEntered.nextModule = _
    unfold ModuleWorld.unloadEntered
    split <;> rfl

structure Operated (w w' : ModuleWorld) : Prop where
  adds : AddsSteps w.module.id w.toShared w'.toShared
  module_eq : ∃ state, w'.module = { w.module with state := state }
  unactivated : w'.module.state = .inspected → w' = w
  nextModule_eq : w'.nextModule = w.nextModule

theorem ModuleMoves.operated {w w' : ModuleWorld} (h : ModuleMoves w w') : Operated w w' := by
  induction h with
  | refl => exact ⟨.refl _ _, ⟨_, rfl⟩, fun _ => rfl, rfl⟩
  | tail _ hmove ih =>
    obtain ⟨⟨state, heq⟩, hne⟩ := hmove.module_eq
    obtain ⟨_, hbefore⟩ := ih.module_eq
    have hadds := hmove.adds
    rw [hbefore] at hadds heq
    exact ⟨ih.adds.trans hadds, ⟨state, heq⟩, fun hs => absurd hs hne,
      hmove.nextModule_eq.trans ih.nextModule_eq⟩

theorem Custody.of_eq {m m' : AddonModule} {past past' : History} (h : Custody m past)
    (hh : m'.handle = m.handle) (hd : m.releaseOnDrop = false → m'.releaseOnDrop = false)
    (hs : m'.state = .inspected → past'.entered = false)
    (hp : past'.handle = past.handle ∧ past'.attempts = past.attempts) : Custody m' past' where
  handle handle hm := by rw [hp.1]; exact h.handle handle (hh ▸ hm)
  refused hm := by rw [hp.2]; exact h.refused (hh ▸ hm)
  pinned hm := hd (h.pinned (hp.2 ▸ hm))
  unentered := hs

namespace LoaderWorld

structure Sound (w : LoaderWorld) : Prop where
  fresh : ∀ id, w.nextModule ≤ id → w.holdings id = none ∧ history id w.log = ⟨none, false, 0, []⟩
  named : ∀ id v, w.holdings id = some v → v.held.id = id
  custody : ∀ id v, w.holdings id = some v → Custody v.held (history id w.log)
  frees : EachEvent ReleasedOnce w.log
  rejected : ∀ id ∈ w.rejected, id < w.nextModule ∧ w.holdings id = none ∧
    ∃ handle outcome, (history id w.log).attempts = [⟨handle, .provisional, outcome⟩]

theorem sound_start : start.Sound where
  fresh _ _ := ⟨rfl, rfl⟩
  named _ _ h := by cases h
  custody _ _ h := by cases h
  frees := trivial
  rejected _ h := by cases h

variable {w : LoaderWorld} {id : Nat} {v : Holding}

theorem Sound.of_hold (h : w.Sound) (hv : w.holdings id = some v) {s : Shared}
    {v' : Option Holding} (next : s.nextModule = w.nextModule)
    (frame : ∀ other, other ≠ id → history other s.log = history other w.log)
    (frees : EachEvent ReleasedOnce s.log)
    (custody : ∀ u ∈ v', u.held.id = id ∧ Custody u.held (history id s.log)) :
    (w.hold s id v').Sound where
  fresh other hle := by
    have hne : other ≠ id := by
      rintro rfl
      rw [hold, next] at hle
      simp [(h.fresh _ hle).1] at hv
    simp only [hold, Function.update_of_ne hne, frame other hne]
    exact h.fresh other (by rw [hold, next] at hle; exact hle)
  named other u hu := by
    rcases eq_or_ne other id with rfl | hne
    · exact (custody u (by simpa [hold] using hu)).1
    · exact h.named other u (by simpa [hold, hne] using hu)
  custody other u hu := by
    rcases eq_or_ne other id with rfl | hne
    · exact (custody u (by simpa [hold] using hu)).2
    · simp only [hold, frame other hne]
      exact h.custody other u (by simpa [hold, hne] using hu)
  frees := frees
  rejected other hm := by
    obtain ⟨hlt, hnone, hattempts⟩ := h.rejected other hm
    have hne : other ≠ id := by
      rintro rfl
      simp [hnone] at hv
    simp only [hold, Function.update_of_ne hne, frame other hne, next]
    exact ⟨hlt, hnone, hattempts⟩

theorem Sound.call (h : w.Sound) {method : ModuleM Unit}
    (hmoves : ∀ x, ModuleMoves x (method x).2) : (w.call id method).Sound := by
  unfold LoaderWorld.call
  split
  next m hv =>
    have hop := (hmoves ⟨w.toShared, m⟩).operated
    have hid : m.id = id := h.named id _ hv
    have hadds := hop.adds
    have hcustody : Custody m (history id w.log) := h.custody id _ hv
    simp only [hid] at hadds
    refine h.of_hold hv hop.nextModule_eq (fun other => (hadds.history_eq other).1)
      (hadds.releasedOnce h.frees) ?_
    rintro u ⟨⟩
    obtain ⟨state, heq⟩ := hop.module_eq
    simp only [Holding.held, heq]
    refine ⟨hid, hcustody.of_eq rfl (fun hd => hd) (fun hs => ?_) (hadds.history_eq id).2⟩
    have hsame := hop.unactivated (by rw [heq]; exact hs)
    have hstate : m.state = .inspected := by
      have hm := congrArg (fun x => x.module.state) hsame
      rw [heq] at hm
      exact hm.symm.trans hs
    rw [hsame]
    exact hcustody.unentered hstate
  next => exact h

theorem Sound.free (h : w.Sound) (hv : w.holdings id = some v) {handle : ModuleHandle}
    (hf : v.held.Freeable w.toShared handle) {releaser : Releaser}
    (hr : releaser = .release ∨ v.held.releaseOnDrop = true)
    {outcome : Call (Except PlatformError Unit)} {v' : Option Holding}
    (hv' : ∀ u ∈ v', u.held.id = v.held.id ∧ u.held.releaseOnDrop = false ∧
      (u.held.state = .inspected → v.held.state = .inspected) ∧
      (u.held.handle = none ∨ u.held.handle = v.held.handle ∧
        ∃ source, outcome = .returned (.error source))) :
    (w.hold ((v.held.closeUnactivated w.toShared).record
      (.freed v.held.id handle releaser outcome)) id v').Sound := by
  have hid := h.named id v hv
  have hcustody := h.custody id v hv
  have hlog : ((v.held.closeUnactivated w.toShared).record
      (.freed v.held.id handle releaser outcome)).log =
      .freed id handle releaser outcome :: (v.held.closeUnactivated w.toShared).log := by
    rw [hid]
    rfl
  have hown : history id (.freed id handle releaser outcome ::
      (v.held.closeUnactivated w.toShared).log) =
      { history id w.log with
        attempts := ⟨handle, releaser, outcome⟩ :: (history id w.log).attempts } := by
    simp only [history, if_true, history_closeUnactivated]
  refine h.of_hold hv (nextModule_closeUnactivated ..) ?_ ?_ ?_ <;> rw [hlog]
  · intro other hne
    simp only [history, if_neg (Ne.symm hne), history_closeUnactivated]
  · refine ⟨?_, (AddsSteps.closeUnactivated id v.held w.toShared).releasedOnce h.frees⟩
    rintro _ _ _ _ ⟨⟩
    rw [history_closeUnactivated]
    refine ⟨hcustody.handle handle hf.2.2, fun attempt hm => ?_⟩
    refine ⟨hcustody.refused (by rw [hf.2.2]; rfl) attempt hm, hr.resolve_right fun hdrop => ?_⟩
    have hpinned := hcustody.pinned (List.ne_nil_of_mem hm)
    rw [hdrop] at hpinned
    cases hpinned
  · intro u hu
    obtain ⟨huid, hudrop, hustate, huhandle⟩ := hv' u hu
    rw [hown]
    refine ⟨huid.trans hid, ⟨fun handle hm => ?_, fun hm => ?_, fun _ => hudrop,
      fun hs => hcustody.unentered (hustate hs)⟩⟩
    · rcases huhandle with hnone | ⟨heq, _⟩
      · rw [hnone] at hm
        cases hm
      · exact hcustody.handle handle (heq ▸ hm)
    · rcases huhandle with hnone | ⟨heq, source, hout⟩
      · rw [hnone] at hm
        cases hm
      · intro attempt ha
        rcases List.mem_cons.mp ha with rfl | ha
        · exact ⟨source, hout⟩
        · exact hcustody.refused (heq ▸ hm) attempt ha

theorem Sound.kept (h : w.Sound) (hv : w.holdings id = some v) {s : Shared}
    (hs : s = w.toShared ∨ s = v.held.closeUnactivated w.toShared) {v' : Option Holding}
    (hv' : ∀ u ∈ v', u.held = v.held ∨ u.held = { v.held with releaseOnDrop := false }) :
    (w.hold s id v').Sound := by
  have hid := h.named id v hv
  have hcustody := h.custody id v hv
  have hhistory : ∀ other, history other s.log = history other w.log := by
    rcases hs with rfl | rfl
    · exact fun _ => rfl
    · exact fun other => history_closeUnactivated ..
  refine h.of_hold hv ?_ (fun other _ => hhistory other) ?_ ?_
  · rcases hs with rfl | rfl
    · rfl
    · exact nextModule_closeUnactivated ..
  · rcases hs with rfl | rfl
    · exact h.frees
    · exact (AddsSteps.closeUnactivated id v.held w.toShared).releasedOnce h.frees
  · intro u hu
    rw [hhistory]
    rcases hv' u hu with heq | heq <;> rw [heq]
    · exact ⟨hid, hcustody⟩
    · exact ⟨hid, hcustody.of_eq rfl (fun _ => rfl) hcustody.unentered ⟨rfl, rfl⟩⟩

theorem Sound.release (h : w.Sound) (freeLibrary : Call (Except PlatformError Unit)) :
    (w.release id freeLibrary).Sound := by
  unfold LoaderWorld.release
  split
  next m hv =>
    by_cases hf : ∃ handle, m.Freeable w.toShared handle
    · obtain ⟨handle, hf⟩ := hf
      rw [AddonModule.release_freed hf]
      rcases freeLibrary with (source | ⟨⟨⟩⟩) | _
      · refine h.free hv hf (Or.inl rfl) ?_
        rintro u ⟨⟩
        exact ⟨rfl, rfl, fun hs => hs, Or.inr ⟨rfl, source, rfl⟩⟩
      · exact h.free hv hf (Or.inl rfl) (by rintro u ⟨⟩)
      · refine h.free hv hf (Or.inl rfl) ?_
        rintro u ⟨⟩
        exact ⟨rfl, rfl, (fun hs => by cases hs), Or.inl rfl⟩
    · obtain ⟨_, he | he⟩ := AddonModule.release_refused freeLibrary
        (m := m) (s := w.toShared) fun handle hfree => hf ⟨handle, hfree⟩
      · rw [he]
        refine h.kept hv (Or.inl rfl) ?_
        rintro u ⟨⟩
        exact Or.inr rfl
      · rw [he]
        refine h.kept hv (Or.inr rfl) ?_
        rintro u ⟨⟩
        exact Or.inr rfl
  next => exact h

theorem Sound.drop (h : w.Sound) (freeLibrary : Call (Except PlatformError Unit)) :
    (w.drop id freeLibrary).Sound := by
  unfold LoaderWorld.drop
  split
  next v hv =>
    rcases AddonModule.drop_cases freeLibrary v.held w.toShared with
      he | ⟨handle, hf, hdrop, he⟩ <;> rw [he]
    · exact h.kept hv (Or.inr rfl) (by rintro u ⟨⟩)
    · exact h.free hv hf (Or.inr hdrop) (by rintro u ⟨⟩)
  next => exact h

theorem Sound.intoParts (h : w.Sound) : (w.intoParts id).Sound := by
  unfold LoaderWorld.intoParts
  split
  next hv =>
    refine h.kept hv (Or.inl rfl) ?_
    rintro u ⟨⟩
    exact Or.inl rfl
  next => exact h

theorem Sound.traffic (h : w.Sound) {s : Shared} (next : s.nextModule = w.nextModule)
    (hadds : ∀ id, AddsSteps id w.toShared s) : ({ w with toShared := s } : LoaderWorld).Sound := by
  have hhistory : ∀ id, history id s.log = history id w.log := fun id =>
    ((hadds (id + 1)).history_eq id).1 (Nat.ne_of_lt (Nat.lt_succ_self id))
  refine ⟨?_, h.named, ?_, (hadds 0).releasedOnce h.frees, ?_⟩ <;> simp only [next, hhistory]
  · exact h.fresh
  · exact h.custody
  · exact h.rejected

theorem Sound.born (h : w.Sound) {s : Shared} (v' : Option Holding) {rejected : List Nat}
    (next : s.nextModule = w.nextModule + 1)
    (frame : ∀ other, other ≠ w.nextModule → history other s.log = history other w.log)
    (frees : EachEvent ReleasedOnce s.log)
    (custody : ∀ u ∈ v', u.held.id = w.nextModule ∧
      Custody u.held (history w.nextModule s.log))
    (hrejected : rejected = w.rejected ∨ rejected = w.nextModule :: w.rejected ∧ v' = none ∧
      ∃ handle outcome, (history w.nextModule s.log).attempts =
        [⟨handle, .provisional, outcome⟩]) :
    (({ w with toShared := s, rejected := rejected } : LoaderWorld).hold s w.nextModule v').Sound where
  fresh other hle := by
    have hne : other ≠ w.nextModule := by simp only [hold, next] at hle; omega
    simp only [hold, Function.update_of_ne hne, frame other hne]
    exact h.fresh other (by simp only [hold, next] at hle; omega)
  named other u hu := by
    rcases eq_or_ne other w.nextModule with rfl | hne
    · exact (custody u (by simpa [hold] using hu)).1
    · exact h.named other u (by simpa [hold, hne] using hu)
  custody other u hu := by
    rcases eq_or_ne other w.nextModule with rfl | hne
    · exact (custody u (by simpa [hold] using hu)).2
    · simp only [hold, frame other hne]
      exact h.custody other u (by simpa [hold, hne] using hu)
  frees := frees
  rejected other hm := by
    have hold' : other ∈ w.rejected → other < s.nextModule ∧
        Function.update w.holdings w.nextModule v' other = none ∧
        ∃ handle outcome, (history other s.log).attempts = [⟨handle, .provisional, outcome⟩] := by
      intro hm
      obtain ⟨hlt, hnone, hattempts⟩ := h.rejected other hm
      have hne : other ≠ w.nextModule := Nat.ne_of_lt hlt
      rw [Function.update_of_ne hne, frame other hne, next]
      exact ⟨Nat.lt_succ_of_lt hlt, hnone, hattempts⟩
    rcases hrejected with rfl | ⟨rfl, rfl, hattempts⟩
    · exact hold' hm
    · rcases List.mem_cons.mp hm with rfl | hm
      · exact ⟨by simp [hold, next], Function.update_self .., hattempts⟩
      · exact hold' hm

theorem Sound.load (h : w.Sound) (answers : LoadAnswers) (limits : MetadataLimits) :
    (w.load answers limits).Sound := by
  obtain ⟨hnone, hempty⟩ := h.fresh w.nextModule (Nat.le_refl _)
  unfold LoaderWorld.load
  rcases AddonLoader.loadAbsolute_cases answers limits w.toShared with
    ⟨e, he⟩ | ⟨e, handle, he⟩ | ⟨m, handle, hi, he⟩ <;> rw [he]
  · simpa using h
  · have hborn := h.born none
      (s := { w.toShared.record (.loaded w.nextModule handle) with
        nextModule := w.nextModule + 1 }.record
          (.freed w.nextModule handle .provisional answers.freeLibrary)) rfl
      (fun other hne => by simp [history, Ne.symm hne])
      (by
        refine ⟨?_, fun _ _ _ _ he => by (cases he), h.frees⟩
        rintro _ _ _ _ ⟨⟩
        simp [history, hempty])
      (by rintro u ⟨⟩)
      (Or.inr ⟨rfl, rfl, handle, answers.freeLibrary, by simp [history, hempty]⟩)
    have hsame : Function.update w.holdings w.nextModule none = w.holdings := by
      rw [← hnone, Function.update_eq_self]
    simpa [hold, hsame, Shared.record] using hborn
  · obtain ⟨hid, hhandle, -⟩ := AddonLoader.inspect_ok hi
    simp only [hid]
    refine h.born _ rfl (fun other hne => by simp [history, Shared.openGate, Ne.symm hne])
      ⟨fun _ _ _ _ he => by (cases he), fun _ _ _ _ he => by (cases he), h.frees⟩ ?_ (Or.inl rfl)
    rintro u ⟨⟩
    refine ⟨hid, ⟨fun handle' hm => ?_, fun _ attempt ha => ?_, fun hne => ?_, fun _ => ?_⟩⟩
    · rw [Holding.held, hhandle] at hm
      simpa [history, Shared.openGate] using hm
    · simp [history, Shared.openGate, hempty] at ha
    · simp [history, Shared.openGate, hempty] at hne
    · simp [history, Shared.openGate, hempty]

theorem Sound.step (h : w.Sound) (op : LoaderOp) : (w.step op).Sound := by
  cases op with
  | load answers limits => exact h.load answers limits
  | activate => exact h.call fun _ => AddonModule.activate_moves _
  | requestShutdown => exact h.call fun _ => AddonModule.requestShutdown_moves
  | waitForCallbacks => exact h.call fun _ => AddonModule.waitForCallbacks_moves _
  | invokeUnload => exact h.call fun _ => AddonModule.invokeUnload_moves _
  | completeHostCleanup => exact h.call fun _ => AddonModule.completeHostCleanup_moves _
  | release => exact h.release _
  | intoParts => exact h.intoParts
  | drop => exact h.drop _
  | enter gate => exact h.traffic (Shared.enterGate_nextModule ..) fun id => .enterGate id _ gate
  | leave gate count => exact h.traffic rfl fun id => .leaveGate id _ gate count

theorem sound_after (ops : List LoaderOp) : (after ops).Sound := by
  unfold after
  generalize hstart : start = w
  have hw : w.Sound := hstart ▸ sound_start
  clear hstart
  induction ops generalizing w with
  | nil => exact hw
  | cons op _ ih => exact ih _ (hw.step op)

/-- The step to `s` frees references of entered modules only when they are cleaned and idle. -/
def FreesCleaned (w : LoaderWorld) (s : Shared) : Prop :=
  ∃ events, s.log = events ++ w.log ∧
    ∀ id handle releaser outcome, .freed id handle releaser outcome ∈ events →
      (history id w.log).entered = true →
        ∃ v, w.holdings id = some v ∧ v.held.state = .hostCleanupComplete ∧
          (w.gates (.module id)).inFlight = 0

theorem freesCleaned_of_adds {s : Shared} (h : AddsSteps id w.toShared s) :
    FreesCleaned w s := by
  obtain ⟨events, he, hs⟩ := h
  exact ⟨events, he, fun _ _ _ _ hm => absurd (hs _ hm) not_false⟩

theorem freesCleaned_of_call {method : ModuleM Unit} (hmoves : ∀ x, ModuleMoves x (method x).2) :
    FreesCleaned w (w.call id method).toShared := by
  unfold LoaderWorld.call
  split
  next m _ => exact freesCleaned_of_adds (hmoves ⟨w.toShared, m⟩).operated.adds
  next => exact freesCleaned_of_adds (.refl 0 _)

theorem Sound.freesCleaned (h : w.Sound) (hv : w.holdings id = some v) {handle : ModuleHandle}
    (hf : v.held.Freeable w.toShared handle) (releaser : Releaser)
    (outcome : Call (Except PlatformError Unit)) :
    FreesCleaned w ((v.held.closeUnactivated w.toShared).record
      (.freed v.held.id handle releaser outcome)) := by
  have hid := h.named id v hv
  obtain ⟨events, he, hs⟩ := AddsSteps.closeUnactivated id v.held w.toShared
  refine ⟨.freed v.held.id handle releaser outcome :: events,
    congrArg (Event.freed v.held.id handle releaser outcome :: ·) he, ?_⟩
  intro id' handle' releaser' outcome' hm hentered
  rcases List.mem_cons.mp hm with heq | hm
  · obtain ⟨rfl, -⟩ := Event.freed.inj heq
    have hgate : v.held.gate = .module v.held.id := rfl
    rw [hid] at hentered
    refine ⟨v, hid ▸ hv, hf.1.resolve_left fun hs => ?_, hgate ▸ hf.2.1⟩
    rw [(h.custody id v hv).unentered hs] at hentered
    cases hentered
  · exact absurd (hs _ hm) not_false

theorem Sound.step_frees (h : w.Sound) (op : LoaderOp) :
    FreesCleaned w (w.step op).toShared := by
  cases op with
  | load answers limits =>
    obtain ⟨-, hempty⟩ := h.fresh w.nextModule (Nat.le_refl _)
    simp only [LoaderWorld.step, LoaderWorld.load]
    rcases AddonLoader.loadAbsolute_cases answers limits w.toShared with
      ⟨e, he⟩ | ⟨e, handle, he⟩ | ⟨m, handle, _, he⟩ <;> rw [he]
    · exact freesCleaned_of_adds (.refl 0 _)
    · refine ⟨[.freed w.nextModule handle .provisional answers.freeLibrary,
        .loaded w.nextModule handle], rfl, ?_⟩
      intro id' handle' releaser' outcome' hm hentered
      obtain ⟨rfl, -⟩ : id' = w.nextModule ∧ handle' = handle ∧
          releaser' = .provisional ∧ outcome' = answers.freeLibrary := by simpa using hm
      simp [hempty] at hentered
    · exact ⟨[.opened m.gate, .loaded w.nextModule handle], rfl, by simp⟩
  | activate => exact freesCleaned_of_call fun _ => AddonModule.activate_moves _
  | requestShutdown => exact freesCleaned_of_call fun _ => AddonModule.requestShutdown_moves
  | waitForCallbacks => exact freesCleaned_of_call fun _ => AddonModule.waitForCallbacks_moves _
  | invokeUnload => exact freesCleaned_of_call fun _ => AddonModule.invokeUnload_moves _
  | completeHostCleanup =>
    exact freesCleaned_of_call fun _ => AddonModule.completeHostCleanup_moves _
  | release _ freeLibrary =>
    simp only [LoaderWorld.step, LoaderWorld.release]
    split
    next m hv =>
      by_cases hf : ∃ handle, m.Freeable w.toShared handle
      · obtain ⟨handle, hf⟩ := hf
        have hfrees := h.freesCleaned hv hf .release freeLibrary
        rw [AddonModule.release_freed hf]
        rcases freeLibrary with (source | ⟨⟨⟩⟩) | _ <;> exact hfrees
      · obtain ⟨e, he | he⟩ := AddonModule.release_refused freeLibrary
          (m := m) (s := w.toShared) fun handle hfree => hf ⟨handle, hfree⟩ <;> rw [he]
        · exact freesCleaned_of_adds (.refl 0 _)
        · exact freesCleaned_of_adds (.closeUnactivated 0 m _)
    next => exact freesCleaned_of_adds (.refl 0 _)
  | intoParts =>
    simp only [LoaderWorld.step, LoaderWorld.intoParts]
    split <;> exact freesCleaned_of_adds (.refl 0 _)
  | drop _ freeLibrary =>
    simp only [LoaderWorld.step, LoaderWorld.drop]
    split
    next v hv =>
      rcases AddonModule.drop_cases freeLibrary v.held w.toShared with
        he | ⟨handle, hf, _, he⟩ <;> rw [he]
      · exact freesCleaned_of_adds (.closeUnactivated 0 v.held _)
      · exact h.freesCleaned hv hf .drop freeLibrary
    next => exact freesCleaned_of_adds (.refl 0 _)
  | enter gate => exact freesCleaned_of_adds (.enterGate 0 _ gate)
  | leave gate count => exact freesCleaned_of_adds (.leaveGate 0 _ gate count)

end LoaderWorld

/-- Native references are released once and never under an entered load callback: a second
`free_library` on a reference follows ordinary errors only and is an explicit release, a load
that fails frees its reference once, and a reference whose load callback was entered is freed
only after host cleanup with no callback in flight. -/
theorem native_references_released_once (ops : List LoaderOp) :
    let w := LoaderWorld.after ops
    (∀ later earlier id handle releaser outcome,
      w.log = later ++ .freed id handle releaser outcome :: earlier →
        (history id earlier).handle = some handle ∧
          ∀ attempt ∈ (history id earlier).attempts,
            (∃ source, attempt.outcome = .returned (.error source)) ∧ releaser = .release) ∧
    (∀ id ∈ w.rejected, ∃ handle outcome,
      (history id w.log).attempts = [⟨handle, .provisional, outcome⟩]) ∧
    ∀ op, ∃ events, (w.step op).log = events ++ w.log ∧
      ∀ id handle releaser outcome, .freed id handle releaser outcome ∈ events →
        (history id w.log).entered = true →
          ∃ v, w.holdings id = some v ∧ v.held.state = .hostCleanupComplete ∧
            (w.gates (.module id)).inFlight = 0 := by
  intro w
  have hsound : w.Sound := LoaderWorld.sound_after ops
  refine ⟨fun later earlier id handle releaser outcome hlog => ?_, fun id hm => ?_,
    hsound.step_frees⟩
  · exact eachEvent_iff.mp hsound.frees later _ earlier hlog id handle releaser outcome rfl
  · exact (hsound.rejected id hm).2.2

end Nexus
