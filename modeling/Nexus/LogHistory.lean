import Mathlib.Data.List.SplitBy
import Mathlib.Logic.Function.Basic
import Nexus.SortedMap
import Nexus.StepRuns

namespace Nexus.Logging

variable {τ : Type}

inductive LogLevel where
  | off
  | critical
  | warning
  | info
  | debug
  | trace
  | all
  deriving DecidableEq

namespace LogLevel

def value : LogLevel → Nat
  | .off => 0
  | .critical => 1
  | .warning => 2
  | .info => 3
  | .debug => 4
  | .trace => 5
  | .all => 6

def allows (level message : LogLevel) : Bool := message.value ≤ level.value

end LogLevel

structure LogRecord (τ : Type) where
  level : LogLevel
  timestamp : τ
  channel : String
  message : String
  repeatCount : Nat
  deriving DecidableEq

/-- A sink with its dispatch lock. `maxLevel` is `none` where the question for it panics. `replay` and
`live` record what the history held at the registration, and what came up while the sink was registered. -/
structure SinkSlot where
  maxLevel : Option LogLevel
  dispatchHeld : Bool
  written : List Nat
  replay : List Nat
  live : List Nat

def SinkSlot.absent : SinkSlot := ⟨none, false, [], [], []⟩

structure RegistryState where
  nextRegistration : Nat
  history : List Nat
  sinks : SortedMap Nat Nat

inductive LogCall where
  | idle
  | holding (level : LogLevel) (channel message : String)
  | stamping (level : LogLevel) (channel message : String)
  | dispatching (record : Nat) (slots : List Nat)
  | replaying (slot : Nat) (records : List Nat)
  deriving DecidableEq

/-- One call to log that left a record, with the time it took. -/
structure LogLine (τ : Type) where
  level : LogLevel
  channel : String
  message : String
  timestamp : Option τ

/-- The registry, the records and slots it hands out references to, and the threads. -/
structure LogWorld (τ : Type) where
  state : RegistryState
  recordSequence : Bool
  records : List (LogRecord τ)
  slots : Nat → SinkSlot
  slotCount : Nat
  calls : Nat → LogCall
  lines : List (LogLine τ)

inductive LogStep (τ : Type) where
  | log (thread : Nat) (level : LogLevel) (channel message : String)
  | record (thread : Nat)
  | stamp (thread : Nat) (timestamp : τ)
  | clockPanic (thread : Nat)
  | dispatch (thread : Nat)
  | register (thread : Nat) (maxLevel : Option LogLevel)
  | replay (thread : Nat)
  | deregister (id : Nat)

namespace LogWorld

def start : LogWorld τ :=
  ⟨⟨1, [], .empty⟩, false, [], fun _ => .absent, 0, fun _ => .idle, []⟩

def setCall (thread : Nat) (call : LogCall) (world : LogWorld τ) : LogWorld τ :=
  { world with calls := Function.update world.calls thread call }

def setSlot (slot : Nat) (value : SinkSlot) (world : LogWorld τ) : LogWorld τ :=
  { world with slots := Function.update world.slots slot value }

def accepts (slot record : Nat) (world : LogWorld τ) : Bool :=
  match world.records[record]? with
  | some found => (world.slots slot).maxLevel.any fun level => level.allows found.level
  | none => false

def repeated (level : LogLevel) (message : String) (world : LogWorld τ) : Option (LogRecord τ) :=
  (world.state.history.getLast?.bind fun last => world.records[last]?).filter fun last =>
    last.level = level ∧ last.message = message

/-- Puts a record in the history, takes the sinks of that moment, and lets go of the sequence. -/
def publish (thread : Nat) (record : LogRecord τ) (history : List Nat) (line : LogLine τ)
    (world : LogWorld τ) : LogWorld τ where
  state := { world.state with history := history ++ [world.records.length] }
  recordSequence := false
  records := world.records ++ [record]
  slots slot := if slot ∈ world.state.sinks.values then
      { world.slots slot with live := (world.slots slot).live ++ [world.records.length] }
    else world.slots slot
  slotCount := world.slotCount
  calls := Function.update world.calls thread
    (.dispatching world.records.length world.state.sinks.values)
  lines := world.lines ++ [line]

/-- Either coalesces with the last record, or leaves the state lock for the clock. -/
def record (thread : Nat) (level : LogLevel) (channel message : String) (world : LogWorld τ) :
    LogWorld τ :=
  match world.repeated level message with
  | some last => world.publish thread
      { last with repeatCount := min (last.repeatCount + 1) (2 ^ 32 - 1) }
      world.state.history.dropLast ⟨level, channel, message, none⟩
  | none => world.setCall thread (.stamping level channel message)

def write (slot record : Nat) (world : LogWorld τ) : LogWorld τ :=
  world.setSlot slot { world.slots slot with written := (world.slots slot).written ++ [record] }

/-- The next sink of the snapshot; a sink that replays makes the call wait. -/
def dispatch (thread record : Nat) (slots : List Nat) (world : LogWorld τ) :
    Option (LogWorld τ) :=
  match slots with
  | [] => some (world.setCall thread .idle)
  | slot :: rest =>
    if world.accepts slot record then
      if (world.slots slot).dispatchHeld then none
      else some ((world.write slot record).setCall thread (.dispatching record rest))
    else some (world.setCall thread (.dispatching record rest))

def register (thread : Nat) (maxLevel : Option LogLevel) (world : LogWorld τ) : LogWorld τ where
  state := {
    nextRegistration := min (world.state.nextRegistration + 1) (2 ^ 64 - 1)
    history := world.state.history
    sinks := world.state.sinks.put world.state.nextRegistration world.slotCount }
  recordSequence := world.recordSequence
  records := world.records
  slots := Function.update world.slots world.slotCount
    ⟨maxLevel, true, [], world.state.history, []⟩
  slotCount := world.slotCount + 1
  calls := Function.update world.calls thread (.replaying world.slotCount world.state.history)
  lines := world.lines

def replay (thread slot : Nat) (records : List Nat) (world : LogWorld τ) : LogWorld τ :=
  match records with
  | [] => (world.setSlot slot { world.slots slot with dispatchHeld := false }).setCall thread .idle
  | record :: rest =>
    if world.accepts slot record then
      (world.write slot record).setCall thread (.replaying slot rest)
    else world.setCall thread (.replaying slot rest)

def deregister (id : Nat) (world : LogWorld τ) : LogWorld τ :=
  { world with state := { world.state with sinks := world.state.sinks.erase id } }

def step (world : LogWorld τ) : LogStep τ → Option (LogWorld τ)
  | .log thread level channel message =>
    if world.calls thread = .idle ∧ world.recordSequence = false then
      some { world.setCall thread (.holding level channel message) with recordSequence := true }
    else none
  | .record thread => match world.calls thread with
    | .holding level channel message => some (world.record thread level channel message)
    | _ => none
  | .stamp thread timestamp => match world.calls thread with
    | .stamping level channel message => some (world.publish thread
        ⟨level, timestamp, channel, message, 1⟩ world.state.history
        ⟨level, channel, message, some timestamp⟩)
    | _ => none
  | .clockPanic thread => match world.calls thread with
    | .stamping _ _ _ => some { world.setCall thread .idle with recordSequence := false }
    | _ => none
  | .dispatch thread => match world.calls thread with
    | .dispatching record slots => world.dispatch thread record slots
    | _ => none
  | .register thread maxLevel =>
    if world.calls thread = .idle then some (world.register thread maxLevel) else none
  | .replay thread => match world.calls thread with
    | .replaying slot records => some (world.replay thread slot records)
    | _ => none
  | .deregister id => some (world.deregister id)

end LogWorld

open StepRuns

namespace LogWorld

inductive Move : LogWorld τ → LogWorld τ → Prop
  | log {world : LogWorld τ} {thread : Nat} (level : LogLevel) (channel message : String) :
      world.calls thread = .idle → world.recordSequence = false →
      Move world { world.setCall thread (.holding level channel message) with
        recordSequence := true }
  | coalesced {world : LogWorld τ} {thread : Nat} {level : LogLevel} {channel message : String}
      {last : LogRecord τ} : world.calls thread = .holding level channel message →
      world.repeated level message = some last →
      Move world (world.publish thread
        { last with repeatCount := min (last.repeatCount + 1) (2 ^ 32 - 1) }
        world.state.history.dropLast ⟨level, channel, message, none⟩)
  | stamping {world : LogWorld τ} {thread : Nat} {level : LogLevel} {channel message : String} :
      world.calls thread = .holding level channel message →
      world.repeated level message = none →
      Move world (world.setCall thread (.stamping level channel message))
  | stamped {world : LogWorld τ} {thread : Nat} {level : LogLevel} {channel message : String}
      {timestamp : τ} : world.calls thread = .stamping level channel message →
      Move world (world.publish thread ⟨level, timestamp, channel, message, 1⟩ world.state.history
        ⟨level, channel, message, some timestamp⟩)
  | unstamped {world : LogWorld τ} {thread : Nat} {level : LogLevel} {channel message : String} :
      world.calls thread = .stamping level channel message →
      Move world { world.setCall thread .idle with recordSequence := false }
  | dispatched {world : LogWorld τ} {thread record : Nat} :
      world.calls thread = .dispatching record [] → Move world (world.setCall thread .idle)
  | rejected {world : LogWorld τ} {thread record slot : Nat} {slots : List Nat} :
      world.calls thread = .dispatching record (slot :: slots) →
      world.accepts slot record = false →
      Move world (world.setCall thread (.dispatching record slots))
  | written {world : LogWorld τ} {thread record slot : Nat} {slots : List Nat} :
      world.calls thread = .dispatching record (slot :: slots) →
      world.accepts slot record = true → (world.slots slot).dispatchHeld = false →
      Move world ((world.write slot record).setCall thread (.dispatching record slots))
  | register {world : LogWorld τ} {thread : Nat} (maxLevel : Option LogLevel) :
      world.calls thread = .idle → Move world (world.register thread maxLevel)
  | replayed {world : LogWorld τ} {thread record slot : Nat} {records : List Nat} :
      world.calls thread = .replaying slot (record :: records) →
      world.accepts slot record = true →
      Move world ((world.write slot record).setCall thread (.replaying slot records))
  | passed {world : LogWorld τ} {thread record slot : Nat} {records : List Nat} :
      world.calls thread = .replaying slot (record :: records) →
      world.accepts slot record = false →
      Move world (world.setCall thread (.replaying slot records))
  | released {world : LogWorld τ} {thread slot : Nat} :
      world.calls thread = .replaying slot [] →
      Move world ((world.setSlot slot
        { world.slots slot with dispatchHeld := false }).setCall thread .idle)
  | deregister {world : LogWorld τ} (id : Nat) : Move world (world.deregister id)

theorem move_of_dispatch {world next : LogWorld τ} {thread record : Nat} {slots : List Nat}
    (hcall : world.calls thread = .dispatching record slots)
    (h : world.dispatch thread record slots = some next) : Move world next := by
  cases slots with
  | nil =>
    cases h
    exact .dispatched hcall
  | cons slot slots =>
    unfold dispatch at h
    dsimp only at h
    cases haccepts : world.accepts slot record with
    | false =>
      rw [haccepts] at h
      cases h
      exact .rejected hcall haccepts
    | true =>
      rw [haccepts] at h
      cases hheld : (world.slots slot).dispatchHeld with
      | true =>
        rw [hheld] at h
        cases h
      | false =>
        rw [hheld] at h
        cases h
        exact .written hcall haccepts hheld

theorem move_of_replay {world : LogWorld τ} {thread slot : Nat} {records : List Nat}
    (hcall : world.calls thread = .replaying slot records) :
    Move world (world.replay thread slot records) := by
  cases records with
  | nil => exact .released hcall
  | cons record =>
    unfold replay
    dsimp only
    cases haccepts : world.accepts slot record with
    | false =>
      rw [if_neg Bool.false_ne_true]
      exact .passed hcall haccepts
    | true =>
      rw [if_pos rfl]
      exact .replayed hcall haccepts

theorem move_of_step {world next : LogWorld τ} {action : LogStep τ}
    (hstep : step world action = some next) : Move world next := by
  cases action with
  | log thread level channel message =>
    by_cases hfree : world.calls thread = .idle ∧ world.recordSequence = false
    · have hfound := (if_pos hfree).symm.trans hstep
      cases hfound
      exact .log level channel message hfree.1 hfree.2
    · cases (if_neg hfree).symm.trans hstep
  | record thread =>
    cases hcall : world.calls thread with
    | holding =>
      simp only [step, hcall, Option.some.injEq] at hstep
      subst hstep
      unfold record
      split
      next hlast => exact .coalesced hcall hlast
      next hnone => exact .stamping hcall hnone
    | _ => simp [step, hcall] at hstep
  | stamp thread =>
    cases hcall : world.calls thread with
    | stamping =>
      simp only [step, hcall, Option.some.injEq] at hstep
      subst hstep
      exact .stamped hcall
    | _ => simp [step, hcall] at hstep
  | clockPanic thread =>
    cases hcall : world.calls thread with
    | stamping =>
      simp only [step, hcall, Option.some.injEq] at hstep
      subst hstep
      exact .unstamped hcall
    | _ => simp [step, hcall] at hstep
  | dispatch thread =>
    cases hcall : world.calls thread with
    | dispatching =>
      simp only [step, hcall] at hstep
      exact move_of_dispatch hcall hstep
    | _ => simp [step, hcall] at hstep
  | register thread maxLevel =>
    by_cases hidle : world.calls thread = .idle
    · have hfound := (if_pos hidle).symm.trans hstep
      cases hfound
      exact .register maxLevel hidle
    · cases (if_neg hidle).symm.trans hstep
  | replay thread =>
    cases hcall : world.calls thread with
    | replaying =>
      simp only [step, hcall, Option.some.injEq] at hstep
      subst hstep
      exact move_of_replay hcall
    | _ => simp [step, hcall] at hstep
  | deregister id =>
    cases hstep
    exact .deregister id

end LogWorld

def sameLine (first second : LogLine τ) : Bool :=
  first.level = second.level ∧ first.message = second.message

def Condenses (records : List (LogRecord τ)) (run : List (LogLine τ)) (ref : Nat) : Prop :=
  ∃ record first rest, records[ref]? = some record ∧ run = first :: rest ∧
    (∀ line ∈ run, line.level = record.level ∧ line.message = record.message) ∧
    first.channel = record.channel ∧ first.timestamp = some record.timestamp ∧
    record.repeatCount = min run.length (2 ^ 32 - 1)

variable {records : List (LogRecord τ)} {run : List (LogLine τ)} {ref : Nat}

theorem Condenses.append (more : List (LogRecord τ)) (h : Condenses records run ref) :
    Condenses (records ++ more) run ref := by
  obtain ⟨record, first, rest, hget, hrest⟩ := h
  have hlength : ref < records.length := (List.getElem?_eq_some_iff.mp hget).1
  exact ⟨record, first, rest, by rw [List.getElem?_append_left hlength, hget], hrest⟩

theorem Condenses.extend {last : LogRecord τ} {line : LogLine τ} (h : Condenses records run ref)
    (hlast : records[ref]? = some last)
    (hline : line.level = last.level ∧ line.message = last.message) :
    Condenses (records ++ [{ last with repeatCount := min (last.repeatCount + 1) (2 ^ 32 - 1) }])
      (run ++ [line]) records.length := by
  obtain ⟨_, first, rest, hget, rfl, hsame, hchannel, htime, _⟩ := h
  cases Option.some.inj (hlast.symm.trans hget)
  refine ⟨_, first, rest ++ [line], List.getElem?_concat_length, List.cons_append, ?_, hchannel,
    htime, ?_⟩
  · intro other hmem
    rcases List.mem_append.mp hmem with hmem | hmem
    · exact hsame other hmem
    · rw [List.mem_singleton.mp hmem]
      exact hline
  · rw [List.length_append, List.length_singleton]
    dsimp only
    omega

variable {α : Type}

theorem splitBy_extend {r : α → α → Bool} {l run : List α} {runs : List (List α)} {a : α}
    (h : l.splitBy r = runs ++ [run]) (hjoins : ∀ last ∈ run.getLast?, r last a) :
    (l ++ [a]).splitBy r = runs ++ [run ++ [a]] := by
  obtain ⟨rfl, hnil, hchain, hbreak⟩ := List.splitBy_eq_iff.mp h
  have hrun : run ≠ [] := fun hrun => hnil (by rw [hrun]; simp)
  refine List.splitBy_eq_iff.mpr ⟨by simp, ?_, ?_, ?_⟩
  · intro hmem
    rcases List.mem_append.mp hmem with hmem | hmem
    · exact hnil (List.mem_append_left _ hmem)
    · simp at hmem
  · intro part hpart
    rcases List.mem_append.mp hpart with hpart | hpart
    · exact hchain part (List.mem_append_left _ hpart)
    · rw [List.mem_singleton.mp hpart]
      have hold := hchain run (by simp)
      refine List.isChain_append.mpr ⟨hold, List.isChain_singleton a, fun last hlast b hb => ?_⟩
      cases Option.mem_some.mp hb
      exact hjoins last hlast
  · obtain ⟨hruns, _, hlast⟩ := List.isChain_append.mp hbreak
    refine List.isChain_append.mpr ⟨hruns, List.isChain_singleton _, fun part hpart b hb => ?_⟩
    cases Option.mem_some.mp hb
    obtain ⟨ha, _, hdiffers⟩ := hlast part hpart run rfl
    refine ⟨ha, by simp, ?_⟩
    rw [List.head_append_of_ne_nil hrun]
    exact hdiffers

theorem forall₂_concat_right {β : Type} {R : α → β → Prop} {as : List α} {bs : List β} {b : β}
    (h : List.Forall₂ R as (bs ++ [b])) :
    ∃ front a, as = front ++ [a] ∧ List.Forall₂ R front bs ∧ R a b := by
  have hreverse := List.forall₂_reverse_iff.mpr h
  rw [List.reverse_append, List.reverse_singleton, List.singleton_append] at hreverse
  obtain ⟨a, front, hlast, hfront, has⟩ := List.forall₂_cons_right_iff.mp hreverse
  refine ⟨front.reverse, a, ?_, ?_, hlast⟩
  · rw [← List.reverse_reverse as, has, List.reverse_cons]
  · rw [← List.forall₂_reverse_iff, List.reverse_reverse]
    exact hfront

namespace LogCall

def hasSequence : LogCall → Bool
  | .holding _ _ _ => true
  | .stamping _ _ _ => true
  | _ => false

end LogCall

namespace LogWorld

/-- The history is the runs of the calls, and one thread at most adds to it. -/
structure Recorded (world : LogWorld τ) : Prop where
  sequence : ∀ thread, (world.calls thread).hasSequence → world.recordSequence = true
  one : ∀ a b, (world.calls a).hasSequence → (world.calls b).hasSequence → a = b
  fresh : ∀ thread level channel message, world.calls thread = .stamping level channel message →
    world.repeated level message = none
  increasing : world.state.history.Pairwise (· < ·)
  condensed : List.Forall₂ (Condenses world.records) (world.lines.splitBy sameLine)
    world.state.history

theorem recorded_start : (start : LogWorld τ).Recorded where
  sequence _ h := absurd h Bool.false_ne_true
  one _ _ h := absurd h Bool.false_ne_true
  fresh _ _ _ _ h := by cases h
  increasing := .nil
  condensed := .nil

namespace Recorded

variable {world next : LogWorld τ}

theorem known (h : world.Recorded) : ∀ ref ∈ world.state.history, ref < world.records.length := by
  have hflip : List.Forall₂ (fun ref run => ref < world.records.length ∧
      Condenses world.records run ref) world.state.history (world.lines.splitBy sameLine) := by
    refine (List.Forall₂.flip h.condensed).imp ?_
    rintro ref run ⟨record, first, rest, hget, hrest⟩
    exact ⟨(List.getElem?_eq_some_iff.mp hget).1, record, first, rest, hget, hrest⟩
  exact ((List.forall₂_and_left _ _).mp hflip).1

theorem frame (h : world.Recorded) (hhistory : next.state.history = world.state.history)
    (hsequence : next.recordSequence = world.recordSequence)
    (hrecords : next.records = world.records) (hlines : next.lines = world.lines)
    (hcalls : ∀ thread, (next.calls thread).hasSequence → next.calls thread = world.calls thread) :
    next.Recorded where
  sequence thread hhas := by
    rw [hsequence]
    exact h.sequence thread (hcalls thread hhas ▸ hhas)
  one a b ha hb := h.one a b (hcalls a ha ▸ ha) (hcalls b hb ▸ hb)
  fresh thread level channel message hcall := by
    have hbefore : world.calls thread = .stamping level channel message :=
      (hcalls thread (by rw [hcall]; rfl)).symm.trans hcall
    have hfresh := h.fresh thread level channel message hbefore
    unfold repeated at hfresh ⊢
    rw [hhistory, hrecords]
    exact hfresh
  increasing := hhistory ▸ h.increasing
  condensed := by
    rw [hhistory, hrecords, hlines]
    exact h.condensed

theorem published_sequence (h : world.Recorded) {thread : Nat} {record : LogRecord τ}
    {history : List Nat} {line : LogLine τ} (hhas : (world.calls thread).hasSequence) (other : Nat) :
    ¬ ((world.publish thread record history line).calls other).hasSequence := by
  intro hother
  change (Function.update world.calls thread (.dispatching _ _) other).hasSequence at hother
  by_cases heq : other = thread
  · rw [heq, Function.update_self] at hother
    exact Bool.false_ne_true hother
  · rw [Function.update_of_ne heq] at hother
    exact heq (h.one other thread hother hhas)

variable {level : LogLevel} {message : String} {last : LogRecord τ}

theorem repeated_eq_some (h : world.repeated level message = some last) :
    ∃ front ref,
      world.state.history = front ++ [ref] ∧ world.records[ref]? = some last ∧
        last.level = level ∧ last.message = message := by
  obtain ⟨hfound, hsame⟩ := Option.filter_eq_some_iff.mp h
  obtain ⟨ref, hlast, hget⟩ := Option.bind_eq_some_iff.mp hfound
  obtain ⟨front, hhistory⟩ := List.getLast?_eq_some_iff.mp hlast
  exact ⟨front, ref, hhistory, hget, of_decide_eq_true hsame⟩

variable {thread : Nat} {channel : String}

theorem coalesced (h : world.Recorded)
    (hcall : world.calls thread = .holding level channel message)
    (hlast : world.repeated level message = some last) :
    (world.publish thread { last with repeatCount := min (last.repeatCount + 1) (2 ^ 32 - 1) }
      world.state.history.dropLast ⟨level, channel, message, none⟩).Recorded := by
  have hnobody := fun other record history line =>
    @published_sequence _ _ h thread record history line (by rw [hcall]; rfl) other
  obtain ⟨_, _, hhistory, hget, hlevel, hmessage⟩ := repeated_eq_some hlast
  have hincreasing := h.increasing
  have hcondensed := h.condensed
  have hknown := h.known
  rw [hhistory] at hincreasing hcondensed hknown
  obtain ⟨runs, run, hruns, hfront, hrun⟩ := forall₂_concat_right hcondensed
  refine ⟨fun other hother => absurd hother (hnobody other _ _ _),
    fun other _ hother => absurd hother (hnobody other _ _ _), ?_, ?_, ?_⟩
  · intro other level channel message hother
    exact absurd (by rw [hother]; rfl) (hnobody other _ _ _)
  · change ((world.state.history.dropLast) ++ [world.records.length]).Pairwise (· < ·)
    rw [hhistory, List.dropLast_concat]
    refine List.pairwise_append.mpr ⟨(List.pairwise_append.mp hincreasing).1,
      List.pairwise_singleton _ _, fun old hold new hnew => ?_⟩
    rw [List.mem_singleton.mp hnew]
    exact hknown old (List.mem_append_left _ hold)
  · have hextended :
        (world.lines ++ [(⟨level, channel, message, none⟩ : LogLine τ)]).splitBy sameLine =
          runs ++ [run ++ [⟨level, channel, message, none⟩]] := by
      obtain ⟨record, _, _, hrecord, _, hsame, _⟩ := hrun
      cases Option.some.inj (hget.symm.trans hrecord)
      refine splitBy_extend hruns fun line hline => ?_
      obtain ⟨hlevel', hmessage'⟩ := hsame line (List.mem_of_getLast? hline)
      exact decide_eq_true ⟨hlevel'.trans hlevel, hmessage'.trans hmessage⟩
    change List.Forall₂ (Condenses (world.records ++ [_]))
      ((world.lines ++ [_]).splitBy sameLine)
      (world.state.history.dropLast ++ [world.records.length])
    rw [hextended, hhistory, List.dropLast_concat]
    exact List.rel_append (hfront.imp fun _ _ hold => hold.append _)
      (.cons (hrun.extend hget ⟨hlevel.symm, hmessage.symm⟩) .nil)

theorem splitBy_fresh (h : world.Recorded) {line : LogLine τ}
    (hfresh : world.repeated line.level line.message = none) :
    (world.lines ++ [line]).splitBy sameLine = world.lines.splitBy sameLine ++ [[line]] := by
  rw [List.splitBy_append_cons [] ?_]
  · rfl
  intro last hlast
  have hnonempty : world.lines ≠ [] := fun hnil => by rw [hnil] at hlast; cases hlast
  cases hhistory : world.state.history.getLast? with
  | none =>
    have hcondensed := h.condensed
    rw [List.getLast?_eq_none_iff.mp hhistory, List.forall₂_nil_right_iff,
      List.splitBy_eq_nil] at hcondensed
    exact absurd hcondensed hnonempty
  | some =>
    obtain ⟨_, hfront⟩ := List.getLast?_eq_some_iff.mp hhistory
    have hcondensed := h.condensed
    rw [hfront] at hcondensed
    obtain ⟨_, run, hruns, _, record, _, _, hget, _, hsame, _⟩ :=
      forall₂_concat_right hcondensed
    have hmem : last ∈ run := by
      have hflatten := List.flatten_splitBy sameLine world.lines
      obtain ⟨_, hnil, _⟩ := List.splitBy_eq_iff.mp hruns
      have hrun : run ≠ [] := fun hrun => hnil (by rw [hrun]; simp)
      rw [hruns, List.flatten_append, List.flatten_singleton] at hflatten
      rw [← hflatten, List.getLast?_append_of_ne_nil _ hrun] at hlast
      exact List.mem_of_getLast? hlast
    unfold repeated at hfresh
    rw [hhistory, Option.bind_some, hget] at hfresh
    have hdiffers := Option.filter_eq_none_iff.mp hfresh record rfl
    obtain ⟨hlevel, hmessage⟩ := hsame last hmem
    unfold sameLine
    rw [hlevel, hmessage]
    simpa using hdiffers

theorem stamped (h : world.Recorded) {timestamp : τ}
    (hcall : world.calls thread = .stamping level channel message) :
    (world.publish thread ⟨level, timestamp, channel, message, 1⟩ world.state.history
      ⟨level, channel, message, some timestamp⟩).Recorded := by
  have hnobody := fun other record history line =>
    @published_sequence _ _ h thread record history line (by rw [hcall]; rfl) other
  have hfresh := h.fresh thread level channel message hcall
  refine ⟨fun other hother => absurd hother (hnobody other _ _ _),
    fun other _ hother => absurd hother (hnobody other _ _ _), ?_, ?_, ?_⟩
  · intro other level channel message hother
    exact absurd (by rw [hother]; rfl) (hnobody other _ _ _)
  · refine List.pairwise_append.mpr ⟨h.increasing, List.pairwise_singleton _ _, ?_⟩
    intro old hold new hnew
    rw [List.mem_singleton.mp hnew]
    exact h.known old hold
  · change List.Forall₂ (Condenses (world.records ++ [_])) ((world.lines ++ [_]).splitBy sameLine)
      (world.state.history ++ [world.records.length])
    rw [h.splitBy_fresh hfresh]
    refine List.rel_append (h.condensed.imp fun _ _ hold => hold.append _) (.cons ?_ .nil)
    refine ⟨_, _, [], List.getElem?_concat_length, rfl, ?_, rfl, rfl, rfl⟩
    intro line hline
    rw [List.mem_singleton.mp hline]
    exact ⟨rfl, rfl⟩

theorem update_quiet {call : LogCall} (hquiet : call.hasSequence = false) (other : Nat)
    (hother : (Function.update world.calls thread call other).hasSequence) :
    Function.update world.calls thread call other = world.calls other := by
  by_cases heq : other = thread
  · rw [heq, Function.update_self, hquiet] at hother
    exact absurd hother Bool.false_ne_true
  · exact Function.update_of_ne heq _ _

theorem taken (h : world.Recorded) {thread : Nat} (level : LogLevel) (channel message : String)
    (hfree : world.recordSequence = false) :
    Recorded { world.setCall thread (.holding level channel message) with
      recordSequence := true } := by
  have hnobody : ∀ other, ¬ (world.calls other).hasSequence := fun other hother =>
    absurd ((h.sequence other hother).symm.trans hfree) Bool.noConfusion
  have honly : ∀ other, ((Function.update world.calls thread
      (.holding level channel message)) other).hasSequence → other = thread := by
    intro other hother
    by_contra heq
    rw [Function.update_of_ne heq] at hother
    exact hnobody other hother
  refine ⟨fun _ _ => rfl, fun a b ha hb => (honly a ha).trans (honly b hb).symm, ?_, h.increasing,
    h.condensed⟩
  intro other level' channel' message' hother
  have heq : other = thread := honly other (by
    change Function.update world.calls thread _ other = _ at hother
    rw [hother]
    rfl)
  change Function.update world.calls thread _ other = _ at hother
  rw [heq, Function.update_self] at hother
  cases hother

theorem stamping (h : world.Recorded)
    (hcall : world.calls thread = .holding level channel message)
    (hfresh : world.repeated level message = none) :
    (world.setCall thread (.stamping level channel message)).Recorded := by
  have hhad : (world.calls thread).hasSequence := by rw [hcall]; rfl
  have hhas : ∀ other, ((world.setCall thread
      (.stamping level channel message)).calls other).hasSequence →
      (world.calls other).hasSequence := by
    intro other hother
    by_cases heq : other = thread
    · rw [heq]
      exact hhad
    · change (Function.update world.calls thread _ other).hasSequence at hother
      rw [Function.update_of_ne heq] at hother
      exact hother
  refine ⟨fun other hother => h.sequence other (hhas other hother),
    fun a b ha hb => h.one a b (hhas a ha) (hhas b hb), ?_, h.increasing, h.condensed⟩
  intro other level' channel' message' hother
  have heq : other = thread := h.one other thread (hhas other (by rw [hother]; rfl)) hhad
  change Function.update world.calls thread _ other = _ at hother
  rw [heq, Function.update_self] at hother
  cases hother
  exact hfresh

theorem unstamped (h : world.Recorded)
    (hcall : world.calls thread = .stamping level channel message) :
    Recorded { world.setCall thread .idle with recordSequence := false } := by
  have hnobody : ∀ other, ¬ (Function.update world.calls thread .idle other).hasSequence := by
    intro other hother
    by_cases heq : other = thread
    · rw [heq, Function.update_self] at hother
      exact Bool.false_ne_true hother
    · rw [Function.update_of_ne heq] at hother
      exact heq (h.one other thread hother (by rw [hcall]; rfl))
  refine ⟨fun other hother => absurd hother (hnobody other),
    fun other _ hother => absurd hother (hnobody other), ?_, h.increasing, h.condensed⟩
  intro other level channel message hother
  exact absurd (by
    change Function.update world.calls thread _ other = _ at hother
    rw [hother]
    rfl) (hnobody other)

theorem move (h : world.Recorded) (hmove : Move world next) : next.Recorded := by
  cases hmove with
  | log level channel message _ hfree => exact h.taken level channel message hfree
  | coalesced hcall hlast => exact h.coalesced hcall hlast
  | stamping hcall hfresh => exact h.stamping hcall hfresh
  | stamped hcall => exact h.stamped hcall
  | unstamped hcall => exact h.unstamped hcall
  | dispatched | rejected | written | register | replayed | passed | released =>
    exact h.frame rfl rfl rfl rfl (update_quiet rfl)
  | deregister => exact h.frame rfl rfl rfl rfl fun _ _ => rfl

end Recorded

end LogWorld

end Nexus.Logging
