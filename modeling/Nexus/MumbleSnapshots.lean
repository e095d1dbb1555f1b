import Mathlib.Data.BitVec
import Mathlib.Logic.Function.Basic
import Nexus.StepRuns

namespace Nexus.Mumble

open StepRuns

abbrev DATA_SIZE : Nat := 5292

def SNAPSHOT_ATTEMPTS : Nat := 4

abbrev MumbleData := Fin DATA_SIZE → BitVec 8

def MumbleData.uiTick (data : MumbleData) : BitVec 32 := data 7 ++ data 6 ++ data 5 ++ data 4

inductive MumbleWrite where
  | byte (offset : Fin DATA_SIZE) (value : BitVec 8)
  | uiTick (value : BitVec 32)

def MumbleWrite.apply (data : MumbleData) : MumbleWrite → MumbleData
  | .byte offset value => Function.update data offset value
  | .uiTick value => fun offset =>
    if 4 ≤ offset.val ∧ offset.val < 8 then value.extractLsb' (8 * (offset.val - 4)) 8
    else data offset

def applyWrites (data : MumbleData) (writes : List MumbleWrite) : MumbleData :=
  writes.foldl MumbleWrite.apply data

/-- The contents of the mapping after the first updates, where none is in progress. -/
def between (initial : MumbleData) (updates : List (List MumbleWrite)) (count : Nat) : MumbleData :=
  applyWrites initial (updates.take count).flatten

/-- Exactly the write at `tickPosition` of each update changes the tick. -/
structure MumbleProducer where
  initial : MumbleData
  updates : List (List MumbleWrite)
  tickPosition : Nat
  ticks : ∀ count update, updates[count]? = some update → tickPosition < update.length ∧
    ∀ made write, update[made]? = some write →
      ((write.apply (applyWrites (between initial updates count) (update.take made))).uiTick =
        (applyWrites (between initial updates count) (update.take made)).uiTick ↔
          made ≠ tickPosition)

inductive SnapshotError where
  | unstable

inductive SnapshotPhase where
  | before
  | copying (before : BitVec 32) (offset : Fin DATA_SIZE)
  | after (before : BitVec 32)
  | returned (result : Except SnapshotError MumbleData)

/-- A call of `snapshot`. The copy is not initialized and holds whatever its memory held. -/
structure SnapshotCall where
  attempt : Nat
  snapshot : MumbleData
  phase : SnapshotPhase

def SnapshotCall.step (data : MumbleData) (call : SnapshotCall) : Option SnapshotCall :=
  match call.phase with
  | .before => some { call with phase := .copying data.uiTick 0 }
  | .copying before offset => some { call with
      snapshot := Function.update call.snapshot offset (data offset)
      phase := if h : offset.val + 1 < DATA_SIZE then .copying before ⟨offset.val + 1, h⟩
        else .after before }
  | .after before =>
    if before = data.uiTick ∧ call.snapshot.uiTick = before then
      some { call with phase := .returned (.ok call.snapshot) }
    else some { call with
      attempt := call.attempt + 1
      phase := if call.attempt + 1 < SNAPSHOT_ATTEMPTS then .before
        else .returned (.error .unstable) }
  | .returned _ => none

/-- How many updates are complete, and how many writes of the next one are made. -/
structure MumbleWorld where
  data : MumbleData
  updates : Nat
  writes : Nat
  call : SnapshotCall

inductive MumbleStep where
  | write
  | read

namespace MumbleProducer

variable (producer : MumbleProducer)

def between (count : Nat) : MumbleData := Mumble.between producer.initial producer.updates count

def update (count : Nat) : List MumbleWrite := producer.updates[count]?.getD []

def step (world : MumbleWorld) : MumbleStep → Option MumbleWorld
  | .write => (producer.update world.updates)[world.writes]?.map fun write =>
    if world.writes + 1 = (producer.update world.updates).length then
      { world with data := write.apply world.data, updates := world.updates + 1, writes := 0 }
    else { world with data := write.apply world.data, writes := world.writes + 1 }
  | .read => (world.call.step world.data).map fun call => { world with call }

structure Holds (world : MumbleWorld) : Prop where
  data : world.data = applyWrites (producer.between world.updates)
    ((producer.update world.updates).take world.writes)
  writes : world.writes = 0 ∨ world.writes < (producer.update world.updates).length

def period (world : MumbleWorld) : Nat :=
  if producer.tickPosition < world.writes then world.updates + 1 else world.updates

/-- The writes of the update on this side of its tick change, made before it or to be made after
it, leave the byte as it is. -/
def Whole (world : MumbleWorld) (offset : Fin DATA_SIZE) : Prop :=
  if producer.tickPosition < world.writes then
    applyWrites world.data ((producer.update world.updates).drop world.writes) offset =
      world.data offset
  else world.data offset = producer.between world.updates offset

section Updates

variable {producer} {world next : MumbleWorld}

theorem applyWrites_append (data : MumbleData) (first second : List MumbleWrite) :
    applyWrites data (first ++ second) = applyWrites (applyWrites data first) second :=
  List.foldl_append

theorem update_of_getElem {count made : Nat} {write : MumbleWrite}
    (h : (producer.update count)[made]? = some write) :
    producer.updates[count]? = some (producer.update count) := by
  unfold update at h ⊢
  cases hupdate : producer.updates[count]? with
  | none =>
    rw [hupdate] at h
    cases h
  | some => rfl

theorem between_succ (count : Nat) :
    producer.between (count + 1) =
      applyWrites (producer.between count) (producer.update count) := by
  unfold between Mumble.between update
  rw [← applyWrites_append, List.take_add_one, List.flatten_append]
  cases producer.updates[count]? <;> simp

/-- What the mapping holds after the first writes of an update. -/
def within (count made : Nat) : MumbleData :=
  applyWrites (producer.between count) ((producer.update count).take made)

theorem within_succ {count made : Nat} {write : MumbleWrite}
    (h : (producer.update count)[made]? = some write) :
    producer.within count (made + 1) = write.apply (producer.within count made) := by
  unfold within
  rw [List.take_add_one, h, applyWrites_append]
  rfl

theorem within_zero (count : Nat) : producer.within count 0 = producer.between count := by
  rw [within, List.take_zero]
  rfl

theorem within_length (count : Nat) :
    producer.within count (producer.update count).length = producer.between (count + 1) := by
  rw [within, List.take_length, between_succ]

theorem tick_within_succ {count made : Nat} (hmade : made < (producer.update count).length)
    (hne : made ≠ producer.tickPosition) :
    (producer.within count (made + 1)).uiTick = (producer.within count made).uiTick := by
  have hget := List.getElem?_eq_getElem hmade
  rw [within_succ hget]
  exact ((producer.ticks count _ (update_of_getElem hget)).2 made _ hget).mpr hne

theorem tick_within {count first last : Nat} (hle : first ≤ last)
    (hlast : last ≤ (producer.update count).length)
    (hnot : ∀ made, first ≤ made → made < last → made ≠ producer.tickPosition) :
    (producer.within count last).uiTick = (producer.within count first).uiTick := by
  induction last, hle using Nat.le_induction with
  | base => rfl
  | succ last hle ih =>
    refine (tick_within_succ hlast (hnot last hle (Nat.lt_succ_self last))).trans ?_
    exact ih (Nat.le_of_succ_le hlast) fun made hfirst hlt =>
      hnot made hfirst (Nat.lt_succ_of_lt hlt)

theorem Holds.writes_le (h : producer.Holds world) :
    world.writes ≤ (producer.update world.updates).length := by
  rcases h.writes with hzero | hlt
  · rw [hzero]
    exact Nat.zero_le _
  · exact Nat.le_of_lt hlt

theorem Holds.uiTick (h : producer.Holds world) :
    world.data.uiTick = (producer.between (producer.period world)).uiTick := by
  have hdata : world.data = producer.within world.updates world.writes := h.data
  rw [hdata]
  unfold period
  split
  next hlt =>
    rw [← within_length]
    refine (tick_within h.writes_le (Nat.le_refl _) fun made hmade _ => ?_).symm
    exact Nat.ne_of_gt (Nat.lt_of_lt_of_le hlt hmade)
  next =>
    rw [← within_zero]
    refine tick_within (Nat.zero_le _) h.writes_le fun made _ hmade => ?_
    omega

theorem Holds.whole_iff (h : producer.Holds world) (offset : Fin DATA_SIZE) :
    producer.Whole world offset ↔
      world.data offset = producer.between (producer.period world) offset := by
  unfold Whole period
  split
  next =>
    rw [between_succ, h.data, ← applyWrites_append, List.take_append_drop]
    exact eq_comm
  next => rfl

theorem Holds.write (h : producer.Holds world) (hstep : producer.step world .write = some next) :
    producer.Holds next ∧ next.call = world.call ∧
      producer.period world ≤ producer.period next := by
  obtain ⟨write, hget, hnext⟩ := Option.map_eq_some_iff.mp hstep
  obtain ⟨_, _⟩ := List.getElem?_eq_some_iff.mp hget
  have hposition := (producer.ticks _ _ (update_of_getElem hget)).1
  have hdata : write.apply world.data = producer.within world.updates (world.writes + 1) := by
    rw [within_succ hget, h.data]
    rfl
  split at hnext
  next hlast =>
    subst hnext
    refine ⟨⟨?_, Or.inl rfl⟩, rfl, ?_⟩
    · dsimp only
      rw [hdata, hlast, within_length]
      rfl
    · unfold period
      dsimp only
      rw [if_neg (Nat.not_lt_zero _)]
      split <;> omega
  next =>
    subst hnext
    refine ⟨⟨hdata, Or.inr (by dsimp only; omega)⟩, rfl, ?_⟩
    unfold period
    dsimp only
    split <;> split <;> omega

end Updates

end MumbleProducer

namespace SnapshotCall

variable {data : MumbleData} {call next : SnapshotCall}

/-- The call has read the tick, and will compare it. -/
def Expects (call : SnapshotCall) (tick : BitVec 32) : Prop :=
  (∃ offset, call.phase = .copying tick offset) ∨ call.phase = .after tick

theorem step_cases (h : call.step data = some next) :
    (call.phase = .before ∧ next = { call with phase := .copying data.uiTick 0 }) ∨
    (∃ before offset, call.phase = .copying before offset ∧ next.attempt = call.attempt ∧
      next.snapshot = Function.update call.snapshot offset (data offset) ∧
      ((∃ hlt, next.phase = .copying before ⟨offset.val + 1, hlt⟩) ∨
        DATA_SIZE = offset.val + 1 ∧ next.phase = .after before)) ∨
    (∃ before, call.phase = .after before ∧ before = data.uiTick ∧ call.snapshot.uiTick = before ∧
      next = { call with phase := .returned (.ok call.snapshot) }) ∨
    (∃ before, call.phase = .after before ∧ next.attempt = call.attempt + 1 ∧
      (next.phase = .before ∨ next.phase = .returned (.error .unstable))) := by
  obtain ⟨attempt, snapshot, phase⟩ := call
  cases phase with
  | before =>
    cases h
    exact Or.inl ⟨rfl, rfl⟩
  | copying before offset =>
    cases h
    refine Or.inr (Or.inl ⟨before, offset, rfl, rfl, rfl, ?_⟩)
    dsimp only
    split
    next hlt => exact Or.inl ⟨hlt, rfl⟩
    next => exact Or.inr ⟨by omega, rfl⟩
  | after before =>
    unfold step at h
    dsimp only at h
    split at h
    next haccepted =>
      cases h
      exact Or.inr (Or.inr (Or.inl ⟨before, rfl, haccepted.1, haccepted.2, rfl⟩))
    next =>
      cases h
      refine Or.inr (Or.inr (Or.inr ⟨before, rfl, rfl, ?_⟩))
      dsimp only
      split
      · exact Or.inl rfl
      · exact Or.inr rfl
  | returned => cases h

theorem step_attempt (h : call.step data = some next) : call.attempt ≤ next.attempt := by
  rcases step_cases h with ⟨_, rfl⟩ | ⟨_, _, _, hattempt, _⟩ | ⟨_, _, _, _, rfl⟩ |
    ⟨_, _, hattempt, _⟩
  · exact Nat.le_refl _
  · omega
  · exact Nat.le_refl _
  · omega

end SnapshotCall

/-- A call that returns a record, at any moment and interleaved with the producer in any way. The
tick has no value twice while it runs. -/
structure SnapshotRun (producer : MumbleProducer) where
  start : MumbleWorld
  final : MumbleWorld
  steps : List MumbleStep
  record : MumbleData
  holds : producer.Holds start
  begun : start.call.attempt = 0 ∧ start.call.phase = .before
  run : runSteps producer.step start steps = some final
  returned : final.call.phase = .returned (.ok record)
  ticks : ∀ count other, producer.period start ≤ count → count < other →
    other ≤ producer.period final →
    (producer.between count).uiTick ≠ (producer.between other).uiTick

namespace SnapshotRun

variable {producer : MumbleProducer} (run : SnapshotRun producer)

/-- The record is what the mapping held between two updates, at a tick that it had during the
call. -/
def Coherent : Prop :=
  ∃ count, producer.period run.start ≤ count ∧ count ≤ producer.period run.final ∧
    run.record = producer.between count

/-- Where the attempt that is accepted copies a byte, the byte is whole. -/
def ReadsWhole (world : MumbleWorld) : MumbleStep → Prop
  | .write => True
  | .read => world.call.attempt = run.final.call.attempt → ∀ before offset,
    world.call.phase = .copying before offset → producer.Whole world offset

/-- The tick that an attempt began with was that of some period of the call. -/
structure Sound (world : MumbleWorld) : Prop where
  holds : producer.Holds world
  started : producer.period run.start ≤ producer.period world
  expects : ∀ tick, world.call.Expects tick → ∃ count, producer.period run.start ≤ count ∧
    count ≤ producer.period world ∧ tick = (producer.between count).uiTick

/-- What the accepted attempt has copied is of the present period. -/
def Fits (world : MumbleWorld) : Prop :=
  world.call.attempt = run.final.call.attempt → match world.call.phase with
    | .before => True
    | .copying _ offset => ∀ other < offset,
      world.call.snapshot other = producer.between (producer.period world) other
    | .after _ => world.call.snapshot = producer.between (producer.period world)
    | .returned _ => run.Coherent

variable {run} {world next : MumbleWorld} {steps : List MumbleStep}

theorem read_step (h : producer.step world .read = some next) :
    ∃ call, world.call.step world.data = some call ∧ next = { world with call } := by
  obtain ⟨call, hcall, hnext⟩ := Option.map_eq_some_iff.mp h
  exact ⟨call, hcall, hnext.symm⟩

theorem run_attempt (hrun : runSteps producer.step world steps = some next) :
    world.call.attempt ≤ next.call.attempt := by
  refine runSteps_invariant (P := fun other => world.call.attempt ≤ other.call.attempt)
    (fun before action after hstep hle => ?_) hrun (Nat.le_refl _)
  cases action with
  | write =>
    obtain ⟨_, _, hafter⟩ := Option.map_eq_some_iff.mp hstep
    rw [← hafter]
    split <;> exact hle
  | read =>
    obtain ⟨call, hcall, rfl⟩ := read_step hstep
    exact Nat.le_trans hle (SnapshotCall.step_attempt hcall)

theorem run_returned {result : Except SnapshotError MumbleData}
    (hphase : world.call.phase = .returned result)
    (hrun : runSteps producer.step world steps = some next) : next.call = world.call := by
  refine runSteps_invariant (P := fun other => other.call = world.call)
    (fun before action after hstep hsame => ?_) hrun rfl
  cases action with
  | write =>
    obtain ⟨_, _, hafter⟩ := Option.map_eq_some_iff.mp hstep
    rw [← hafter]
    split <;> exact hsame
  | read =>
    obtain ⟨call, hcall, _⟩ := read_step hstep
    rw [hsame] at hcall
    unfold SnapshotCall.step at hcall
    rw [hphase] at hcall
    cases hcall

theorem run_period (h : producer.Holds world)
    (hrun : runSteps producer.step world steps = some next) :
    producer.period world ≤ producer.period next := by
  refine (runSteps_invariant (P := fun other => producer.Holds other ∧
    producer.period world ≤ producer.period other) (fun before action after hstep hother => ?_)
    hrun ⟨h, Nat.le_refl _⟩).2
  cases action with
  | write =>
    obtain ⟨hholds, _, hle⟩ := hother.1.write hstep
    exact ⟨hholds, Nat.le_trans hother.2 hle⟩
  | read =>
    obtain ⟨_, _, rfl⟩ := read_step hstep
    exact ⟨⟨hother.1.data, hother.1.writes⟩, hother.2⟩

theorem sound_start : run.Sound run.start := by
  refine ⟨run.holds, Nat.le_refl _, fun tick hexpects => ?_⟩
  rcases hexpects with ⟨_, hphase⟩ | hphase
  · cases run.begun.2.symm.trans hphase
  · cases run.begun.2.symm.trans hphase

/-- A period of the call with the present tick is the present period. -/
theorem Sound.eq_period (h : run.Sound world)
    (hrun : runSteps producer.step world steps = some run.final) {count : Nat}
    (hstart : producer.period run.start ≤ count) (hcount : count ≤ producer.period run.final)
    (htick : (producer.between count).uiTick = world.data.uiTick) :
    producer.period world = count := by
  rw [h.holds.uiTick] at htick
  have hle := run_period h.holds hrun
  by_contra hne
  rcases Nat.lt_or_gt_of_ne hne with hlt | hlt
  · exact run.ticks _ _ h.started hlt hcount htick.symm
  · exact run.ticks _ _ hstart hlt hle htick

theorem Sound.step (h : run.Sound world) {action : MumbleStep}
    (hstep : producer.step world action = some next) : run.Sound next := by
  cases action with
  | write =>
    obtain ⟨hholds, hcall, hle⟩ := h.holds.write hstep
    refine ⟨hholds, Nat.le_trans h.started hle, fun tick hexpects => ?_⟩
    rw [hcall] at hexpects
    obtain ⟨count, hstart, hcount, htick⟩ := h.expects tick hexpects
    exact ⟨count, hstart, Nat.le_trans hcount hle, htick⟩
  | read =>
    obtain ⟨_, hcall, rfl⟩ := read_step hstep
    refine ⟨⟨h.holds.data, h.holds.writes⟩, h.started, fun tick hexpects => ?_⟩
    rcases SnapshotCall.step_cases hcall with ⟨_, rfl⟩ |
      ⟨before, offset, hphase, _, _, hnext⟩ | ⟨_, _, _, _, rfl⟩ | ⟨_, _, _, hnext⟩
    · refine ⟨producer.period world, h.started, Nat.le_refl _, ?_⟩
      rw [← h.holds.uiTick]
      rcases hexpects with ⟨offset, hphase⟩ | hphase
      · cases hphase
        rfl
      · cases hphase
    · have hbefore : before = tick := by
        rcases hexpects with ⟨other, hother⟩ | hother <;>
          rcases hnext with ⟨_, hnext⟩ | ⟨_, hnext⟩ <;> cases hnext.symm.trans hother
        · rfl
        · rfl
      exact h.expects tick (Or.inl ⟨offset, hbefore ▸ hphase⟩)
    · rcases hexpects with ⟨offset, hphase⟩ | hphase <;> cases hphase
    · rcases hexpects with ⟨offset, hphase⟩ | hphase <;>
        rcases hnext with hnext | hnext <;> cases hnext.symm.trans hphase

/-- While the accepted attempt copies, no update changes the tick. -/
theorem steady (h : run.Sound world)
    (hrun : runSteps producer.step world steps = some run.final)
    (hattempt : world.call.attempt = run.final.call.attempt) {tick : BitVec 32}
    (hexpects : world.call.Expects tick) {count : Nat}
    (hstart : producer.period run.start ≤ count) (hcount : count ≤ producer.period world)
    (htick : tick = (producer.between count).uiTick) : producer.period world = count := by
  induction steps generalizing world with
  | nil =>
    cases Option.some.inj hrun
    rcases hexpects with ⟨offset, hphase⟩ | hphase
    · cases run.returned.symm.trans hphase
    · cases run.returned.symm.trans hphase
  | cons action _ ih =>
    obtain ⟨_, hstep, hrest⟩ := runSteps_cons.mp hrun
    have hnext := h.step hstep
    cases action with
    | write =>
      obtain ⟨_, hcall, hle⟩ := h.holds.write hstep
      have hsame := ih hnext hrest (hcall ▸ hattempt) (hcall ▸ hexpects) (Nat.le_trans hcount hle)
      exact Nat.le_antisymm (Nat.le_trans hle (Nat.le_of_eq hsame)) hcount
    | read =>
      obtain ⟨call, hcall, rfl⟩ := read_step hstep
      have hsteady := ih hnext hrest
      rcases SnapshotCall.step_cases hcall with ⟨hphase, _⟩ |
        ⟨before, offset, hphase, hsame, _, hafter⟩ | ⟨before, hphase, haccepted, _, _⟩ |
        ⟨_, _, _, _⟩
      · rcases hexpects with ⟨offset, hother⟩ | hother <;> cases hphase.symm.trans hother
      · have hbefore : before = tick := by
          rcases hexpects with ⟨other, hother⟩ | hother <;> cases hphase.symm.trans hother
          rfl
        refine hsteady (hsame.trans hattempt) ?_ hcount
        rcases hafter with ⟨_, hafter⟩ | ⟨_, hafter⟩
        · exact Or.inl ⟨_, hbefore ▸ hafter⟩
        · exact Or.inr (hbefore ▸ hafter)
      · rcases hexpects with ⟨offset, hother⟩ | hother <;> cases hphase.symm.trans hother
        exact h.eq_period hrun hstart (Nat.le_trans hcount (run_period h.holds hrun))
          (htick ▸ haccepted)
      · have hle : call.attempt ≤ run.final.call.attempt := run_attempt hrest
        omega

theorem fits_write (h : run.Sound world) (hstep : producer.step world .write = some next)
    (hrest : runSteps producer.step next steps = some run.final) :
    run.Fits next ↔ run.Fits world := by
  obtain ⟨_, hcall, hle⟩ := h.holds.write hstep
  unfold Fits
  rw [hcall]
  refine imp_congr_right fun hattempt => ?_
  have hsame {tick : BitVec 32} (hexpects : world.call.Expects tick) :
      producer.period next = producer.period world := by
    obtain ⟨_, hstart, hcount, htick⟩ := h.expects tick hexpects
    have hbefore := steady h (runSteps_cons.mpr ⟨next, hstep, hrest⟩) hattempt hexpects hstart
      hcount htick
    have hafter := steady (h.step hstep) hrest (hcall ▸ hattempt) (hcall ▸ hexpects) hstart
      (Nat.le_trans hcount hle) htick
    exact hafter.trans hbefore.symm
  split
  next => rfl
  next before offset hphase => rw [hsame (Or.inl ⟨offset, hphase⟩)]
  next hphase => rw [hsame (Or.inr hphase)]
  next => rfl

theorem fits_copied {call : SnapshotCall} (h : run.Sound world) {before : BitVec 32}
    {offset : Fin DATA_SIZE} (hphase : world.call.phase = .copying before offset)
    (hattempt : call.attempt = world.call.attempt)
    (hsnapshot : call.snapshot = Function.update world.call.snapshot offset (world.data offset))
    (hnext : (∃ hlt, call.phase = .copying before ⟨offset.val + 1, hlt⟩) ∨
      DATA_SIZE = offset.val + 1 ∧ call.phase = .after before) :
    run.Fits { world with call } ↔ run.Fits world ∧ run.ReadsWhole world .read := by
  have hperiod : producer.period { world with call } = producer.period world := rfl
  have hsame : (world.call.attempt = run.final.call.attempt → producer.Whole world offset) ↔
      run.ReadsWhole world .read := by
    refine ⟨fun hwhole hattempt before other hother => ?_, fun hreads hattempt =>
      hreads hattempt before offset hphase⟩
    cases hphase.symm.trans hother
    exact hwhole hattempt
  have hcopied : (∀ other ≤ offset, call.snapshot other =
      producer.between (producer.period world) other) ↔
      (∀ other < offset, world.call.snapshot other =
        producer.between (producer.period world) other) ∧ producer.Whole world offset := by
    rw [h.holds.whole_iff, hsnapshot]
    constructor
    · intro hall
      refine ⟨fun other hlt => ?_, ?_⟩
      · have hother := hall other (le_of_lt hlt)
        rwa [Function.update_of_ne (ne_of_lt hlt)] at hother
      · have hother := hall offset (le_refl _)
        rwa [Function.update_self] at hother
    · rintro ⟨hbelow, hthis⟩ other hle
      rcases lt_or_eq_of_le hle with hlt | rfl
      · rw [Function.update_of_ne (ne_of_lt hlt)]
        exact hbelow other hlt
      · rw [Function.update_self]
        exact hthis
  rw [← hsame]
  unfold Fits
  rw [hphase, ← imp_and, hperiod]
  dsimp only
  rw [hattempt, ← hcopied]
  refine imp_congr_right fun _ => ?_
  rcases hnext with ⟨hlt, hnext⟩ | ⟨_, hnext⟩
  · rw [hnext]
    refine forall_congr' fun other => ?_
    rw [Fin.lt_def, Fin.le_def]
    exact imp_congr_left Nat.lt_succ_iff
  · rw [hnext]
    refine ⟨fun hall other _ => congrFun hall other, fun hall => funext fun other => hall other ?_⟩
    rw [Fin.le_def]
    omega

/-- Where the copy is accepted, it is coherent if it is what the period ends or begins with. -/
theorem coherent_accepted {call : SnapshotCall} (h : run.Sound world)
    (hrest : runSteps producer.step { world with call } steps = some run.final)
    (hphase : call.phase = .returned (.ok world.call.snapshot))
    (htick : world.call.snapshot.uiTick = world.data.uiTick) :
    run.Coherent ↔ world.call.snapshot = producer.between (producer.period world) := by
  have hfinal : run.final.call = call := run_returned hphase hrest
  have hreturned := run.returned
  rw [hfinal, hphase] at hreturned
  have hrecord : world.call.snapshot = run.record :=
    Except.ok.inj (SnapshotPhase.returned.inj hreturned)
  have hnext : run.Sound { world with call } := by
    refine ⟨⟨h.holds.data, h.holds.writes⟩, h.started, fun tick hexpects => ?_⟩
    rcases hexpects with ⟨offset, hother⟩ | hother <;> cases hphase.symm.trans hother
  constructor
  · rintro ⟨count, hstart, hcount, hsame⟩
    have hperiod : producer.period world = count :=
      hnext.eq_period hrest hstart hcount (by rw [← hsame, ← hrecord, htick])
    rw [hrecord, hsame, hperiod]
  · intro hsame
    have hle : producer.period { world with call } ≤ producer.period run.final :=
      run_period hnext.holds hrest
    exact ⟨producer.period world, h.started, hle, hrecord ▸ hsame⟩

theorem fits_read {call : SnapshotCall} (h : run.Sound world)
    (hcall : world.call.step world.data = some call)
    (hrest : runSteps producer.step { world with call } steps = some run.final) :
    run.Fits { world with call } ↔ run.Fits world ∧ run.ReadsWhole world .read := by
  have hle : call.attempt ≤ run.final.call.attempt := run_attempt hrest
  rcases SnapshotCall.step_cases hcall with ⟨hphase, rfl⟩ |
    ⟨before, offset, hphase, hattempt, hsnapshot, hnext⟩ | ⟨before, hphase, htick, hcopied, rfl⟩ |
    ⟨before, hphase, hattempt, hnext⟩
  · refine iff_of_true (fun _ other hlt => absurd hlt (Fin.not_lt_zero other)) ⟨?_, ?_⟩
    · unfold Fits
      rw [hphase]
      exact fun _ => trivial
    · intro _ before offset hother
      cases hphase.symm.trans hother
  · exact fits_copied h hphase hattempt hsnapshot hnext
  · have hreads : run.ReadsWhole world .read := fun _ _ _ hother => by
      cases hphase.symm.trans hother
    rw [and_iff_left hreads]
    unfold Fits
    rw [hphase]
    refine imp_congr_right fun _ => ?_
    exact coherent_accepted h hrest rfl (hcopied.trans htick)
  · refine iff_of_true (fun hsame => ?_) ⟨fun hsame => ?_, fun hsame => ?_⟩
    · rcases hnext with hnext | hnext
      · rw [hnext]
        trivial
      · have hreturned := run.returned
        rw [run_returned hnext hrest, hnext] at hreturned
        cases hreturned
    · omega
    · omega

theorem coherent_iff_rest (h : run.Sound world)
    (hrun : runSteps producer.step world steps = some run.final) :
    run.Coherent ↔ run.Fits world ∧ EveryStep producer.step run.ReadsWhole world steps := by
  induction steps generalizing world with
  | nil =>
    cases Option.some.inj hrun
    unfold Fits
    rw [run.returned]
    exact ⟨fun hcoherent => ⟨fun _ => hcoherent, trivial⟩, fun hfits => hfits.1 rfl⟩
  | cons action _ ih =>
    obtain ⟨next, hstep, hrest⟩ := runSteps_cons.mp hrun
    have hfits : run.Fits next ↔ run.Fits world ∧ run.ReadsWhole world action := by
      cases action with
      | write => exact (fits_write h hstep hrest).trans (and_iff_left trivial).symm
      | read =>
        obtain ⟨_, hcall, rfl⟩ := read_step hstep
        exact fits_read h hcall hrest
    rw [ih (h.step hstep) hrest, hfits, and_assoc, everyStep_cons]
    refine and_congr_right fun _ => and_congr_right fun _ => ?_
    refine ⟨fun hevery other hother => ?_, fun hevery => hevery next hstep⟩
    exact Option.some.inj (hstep.symm.trans hother) ▸ hevery

/-- A returned record is coherent exactly if the attempt that is accepted reads every byte whole. -/
theorem coherent_iff (run : SnapshotRun producer) :
    run.Coherent ↔ EveryStep producer.step run.ReadsWhole run.start run.steps := by
  have hfits : run.Fits run.start := by
    unfold Fits
    rw [run.begun.2]
    exact fun _ => trivial
  exact (coherent_iff_rest sound_start run.run).trans (and_iff_right hfits)

theorem run_copies {before : BitVec 32} (count : Nat) {offset : Fin DATA_SIZE} {call : SnapshotCall}
    (hcount : offset.val + (count + 1) = DATA_SIZE) (hphase : call.phase = .copying before offset)
    (hcopied : ∀ other < offset, call.snapshot other = world.data other) :
    runSteps producer.step { world with call } (List.replicate (count + 1) .read) =
      some { world with call := ⟨call.attempt, world.data, .after before⟩ } := by
  induction count generalizing offset call with
  | zero =>
    have hsnapshot : Function.update call.snapshot offset (world.data offset) = world.data := by
      refine funext fun other => ?_
      by_cases hother : other = offset
      · rw [hother, Function.update_self]
      · rw [Function.update_of_ne hother]
        exact hcopied other (by omega)
    refine runSteps_cons.mpr ⟨_, ?_, rfl⟩
    unfold MumbleProducer.step SnapshotCall.step
    dsimp only
    rw [hphase]
    dsimp only [Option.map_some]
    rw [dif_neg (by omega), hsnapshot]
  | succ _ ih =>
    have hlt : offset.val + 1 < DATA_SIZE := by omega
    refine runSteps_cons.mpr ⟨{ world with call := ⟨call.attempt,
      Function.update call.snapshot offset (world.data offset),
      .copying before ⟨offset.val + 1, hlt⟩⟩ }, ?_, ih ?_ rfl ?_⟩
    · unfold MumbleProducer.step SnapshotCall.step
      dsimp only
      rw [hphase]
      dsimp only [Option.map_some]
      rw [dif_pos hlt]
    · dsimp only
      omega
    · intro other hother
      dsimp only
      rcases Nat.lt_succ_iff_lt_or_eq.mp (Fin.lt_def.mp hother) with hbelow | hsame
      · rw [Function.update_of_ne (Fin.ne_of_lt hbelow)]
        exact hcopied other hbelow
      · rw [Fin.ext hsame, Function.update_self]

theorem run_undisturbed (hphase : world.call.phase = .before) :
    runSteps producer.step world (.read :: (List.replicate DATA_SIZE .read ++ [.read])) =
      some { world with call := ⟨world.call.attempt, world.data, .returned (.ok world.data)⟩ } := by
  refine runSteps_cons.mpr ⟨{ world with call := ⟨world.call.attempt, world.call.snapshot,
    .copying world.data.uiTick 0⟩ }, ?_, runSteps_append.mpr ⟨_, run_copies 5291 rfl rfl
    fun other hlt => absurd hlt (Fin.not_lt_zero other), ?_⟩⟩
  · unfold MumbleProducer.step SnapshotCall.step
    rw [hphase]
    rfl
  · refine runSteps_cons.mpr ⟨_, ?_, rfl⟩
    unfold MumbleProducer.step SnapshotCall.step
    dsimp only
    rw [if_pos ⟨rfl, rfl⟩]
    rfl

def undisturbed (world : MumbleWorld) (hholds : producer.Holds world)
    (hbegun : world.call.attempt = 0 ∧ world.call.phase = .before) : SnapshotRun producer where
  start := world
  final := { world with call := ⟨world.call.attempt, world.data, .returned (.ok world.data)⟩ }
  steps := .read :: (List.replicate DATA_SIZE .read ++ [.read])
  record := world.data
  holds := hholds
  begun := hbegun
  run := run_undisturbed hbegun.2
  returned := rfl
  ticks _ _ hstart hlt hle := absurd hle (Nat.not_le_of_lt (Nat.lt_of_le_of_lt hstart hlt))

end SnapshotRun

/-- One update, which changes the tick first and then a byte of the position. -/
def tickFirst : MumbleProducer where
  initial := fun _ => 0
  updates := [[.uiTick 1, .byte 8 1]]
  tickPosition := 0
  ticks
    | 0, _, rfl => ⟨Nat.zero_lt_two, fun
      | 0, _, rfl => by decide
      | 1, _, rfl => by decide⟩

/-- The call runs between the two writes of the update. -/
def tornRun : SnapshotRun tickFirst :=
  SnapshotRun.undisturbed ⟨(MumbleWrite.uiTick 1).apply fun _ => 0, 0, 1, ⟨0, fun _ => 0, .before⟩⟩
    ⟨rfl, Or.inr Nat.one_lt_two⟩ ⟨rfl, rfl⟩

theorem tornRun_not_coherent :
    ¬ ∀ (producer : MumbleProducer) (run : SnapshotRun producer),
      ∃ count, run.record = producer.between count := by
  intro hall
  obtain ⟨count, hrecord⟩ := hall tickFirst tornRun
  cases count with
  | zero => exact absurd (congrFun hrecord 4) (by decide)
  | succ count =>
    have hbyte := congrFun hrecord 8
    unfold MumbleProducer.between between at hbyte
    rw [show tickFirst.updates.take (count + 1) = tickFirst.updates from
      List.take_of_length_le (Nat.le_add_left 1 count)] at hbyte
    exact absurd hbyte (by decide)

end Nexus.Mumble
