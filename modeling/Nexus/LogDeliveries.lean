import Nexus.LogHistory
import Nexus.Mailbox

namespace Nexus.Logging

open StepRuns

variable {τ : Type}

namespace LogCall

/-- Whether the call still has to bring the record to the slot. -/
def owes (slot ref : Nat) : LogCall → Bool
  | .dispatching record slots => record = ref ∧ slot ∈ slots
  | _ => false

def replays (slot : Nat) : LogCall → Option (List Nat)
  | .replaying other records => if other = slot then some records else none
  | _ => none

end LogCall

namespace LogWorld

def Owed (world : LogWorld τ) (slot ref : Nat) : Prop :=
  ∃ thread, (world.calls thread).owes slot ref

/-- Whoever holds the slot's lock over a call replays it, and nobody else does. -/
def Reads (world : LogWorld τ) (slot : Nat) : Option (List Nat) → Prop
  | none => (world.slots slot).dispatchHeld = false ∧
      ∀ thread, (world.calls thread).replays slot = none
  | some rest => (world.slots slot).dispatchHeld = true ∧
      ∃ thread, (world.calls thread).replays slot = some rest ∧
        ∀ other, other ≠ thread → (world.calls other).replays slot = none

def mailbox (world : LogWorld τ) (slot : Nat) (backlog : Option (List Nat)) : Mailbox Nat where
  accepts := fun ref => world.accepts slot ref
  backlog := backlog
  replay := (world.slots slot).replay
  live := (world.slots slot).live
  written := (world.slots slot).written
  owed := world.Owed slot

section Calls

variable {world next : LogWorld τ} {thread slot ref : Nat} {call : LogCall}
  {backlog : Option (List Nat)}

theorem owed_iff (thread : Nat) : world.Owed slot ref ↔
    (world.calls thread).owes slot ref ∨
      ∃ other, other ≠ thread ∧ (world.calls other).owes slot ref := by
  constructor
  · rintro ⟨other, hother⟩
    by_cases heq : other = thread
    · exact Or.inl (heq ▸ hother)
    · exact Or.inr ⟨other, heq, hother⟩
  · rintro (hthread | ⟨other, _, hother⟩)
    · exact ⟨thread, hthread⟩
    · exact ⟨other, hother⟩

theorem owed_update (hcalls : next.calls = Function.update world.calls thread call) :
    next.Owed slot ref ↔ call.owes slot ref ∨
      ∃ other, other ≠ thread ∧ (world.calls other).owes slot ref := by
  rw [owed_iff thread, hcalls, Function.update_self]
  refine or_congr_right (exists_congr fun other => and_congr_right fun hne => ?_)
  rw [Function.update_of_ne hne]

theorem owed_same (hcalls : next.calls = Function.update world.calls thread call)
    (hsame : ∀ ref, call.owes slot ref = (world.calls thread).owes slot ref) :
    next.Owed slot = world.Owed slot := by
  funext ref
  exact propext ((owed_update hcalls).trans (by rw [owed_iff thread, hsame]))

theorem reads_same (hcalls : next.calls = Function.update world.calls thread call)
    (hheld : (next.slots slot).dispatchHeld = (world.slots slot).dispatchHeld)
    (hsame : call.replays slot = (world.calls thread).replays slot)
    (h : world.Reads slot backlog) : next.Reads slot backlog := by
  have hpointwise : ∀ other, (next.calls other).replays slot = (world.calls other).replays slot := by
    intro other
    rw [hcalls]
    by_cases heq : other = thread
    · rw [heq, Function.update_self, hsame]
    · rw [Function.update_of_ne heq]
  cases backlog with
  | none => exact ⟨hheld.trans h.1, fun other => (hpointwise other).trans (h.2 other)⟩
  | some =>
    obtain ⟨hholds, reader, hreader, hothers⟩ := h
    exact ⟨hheld.trans hholds, reader, (hpointwise reader).trans hreader,
      fun other hne => (hpointwise other).trans (hothers other hne)⟩

theorem reads_free (h : world.Reads slot backlog)
    (hfree : (world.slots slot).dispatchHeld = false) : backlog = none := by
  cases backlog with
  | none => rfl
  | some => exact absurd (h.1.symm.trans hfree) Bool.noConfusion

variable {rest : List Nat}

theorem reads_of_replays (h : world.Reads slot backlog)
    (hcall : (world.calls thread).replays slot = some rest) :
    backlog = some rest ∧ (world.slots slot).dispatchHeld = true ∧
      ∀ other, other ≠ thread → (world.calls other).replays slot = none := by
  cases backlog with
  | none => exact absurd ((h.2 thread).symm.trans hcall) nofun
  | some =>
    obtain ⟨hholds, reader, hreader, hothers⟩ := h
    have heq : thread = reader := by
      by_contra hne
      exact absurd ((hothers thread hne).symm.trans hcall) nofun
    subst heq
    exact ⟨hreader.symm.trans hcall, hholds, hothers⟩

variable {before : List Nat}

theorem reads_advance (hcalls : next.calls = Function.update world.calls thread call)
    (hheld : (next.slots slot).dispatchHeld = (world.slots slot).dispatchHeld)
    (h : world.Reads slot backlog) (hcall : (world.calls thread).replays slot = some before)
    (hnext : call.replays slot = some rest) : next.Reads slot (some rest) := by
  obtain ⟨_, hholds, hothers⟩ := reads_of_replays h hcall
  refine ⟨hheld.trans hholds, thread, ?_, fun other hne => ?_⟩
  · rw [hcalls, Function.update_self, hnext]
  · rw [hcalls, Function.update_of_ne hne]
    exact hothers other hne

theorem reads_release (hcalls : next.calls = Function.update world.calls thread call)
    (hheld : (next.slots slot).dispatchHeld = false) (h : world.Reads slot backlog)
    (hcall : (world.calls thread).replays slot = some before) (hnext : call.replays slot = none) :
    next.Reads slot none := by
  obtain ⟨_, _, hothers⟩ := reads_of_replays h hcall
  refine ⟨hheld, fun other => ?_⟩
  by_cases heq : other = thread
  · rw [heq, hcalls, Function.update_self, hnext]
  · rw [hcalls, Function.update_of_ne heq]
    exact hothers other heq

end Calls

structure Dispatching (world : LogWorld τ) : Prop where
  sinks_nodup : world.state.sinks.values.Nodup
  sinks_lt : ∀ slot ∈ world.state.sinks.values, slot < world.slotCount
  absent : ∀ slot, world.slotCount ≤ slot → world.slots slot = .absent
  known : ∀ slot, ∀ ref ∈ (world.slots slot).replay ++ (world.slots slot).live,
    ref < world.records.length
  call : ∀ thread ref slots, world.calls thread = .dispatching ref slots →
    ref < world.records.length ∧ slots.Nodup
  one : ∀ a b ref slots others, world.calls a = .dispatching ref slots →
    world.calls b = .dispatching ref others → a = b

theorem dispatching_start : (start : LogWorld τ).Dispatching where
  sinks_nodup := .nil
  sinks_lt _ h := by cases h
  absent _ _ := rfl
  known _ _ h := by cases h
  call _ _ _ h := by cases h
  one _ _ _ _ _ h := by cases h

namespace Dispatching

variable {world next : LogWorld τ} {thread : Nat} {call : LogCall}

theorem lt_of_live (h : world.Dispatching) {slot ref : Nat} (hlive : ref ∈ (world.slots slot).live) :
    slot < world.slotCount := by
  by_contra habsent
  rw [h.absent slot (Nat.le_of_not_lt habsent)] at hlive
  cases hlive

theorem lt_of_held (h : world.Dispatching) {slot : Nat}
    (hheld : (world.slots slot).dispatchHeld = true) : slot < world.slotCount := by
  by_contra habsent
  rw [h.absent slot (Nat.le_of_not_lt habsent)] at hheld
  cases hheld

theorem frame (h : world.Dispatching) (hstate : next.state.sinks = world.state.sinks)
    (hcount : next.slotCount = world.slotCount) (hrecords : next.records = world.records)
    (hcalls : next.calls = Function.update world.calls thread call)
    (hrest : ∀ ref slots, call = .dispatching ref slots →
      ∃ slot, world.calls thread = .dispatching ref (slot :: slots))
    (hslots : ∀ slot, (next.slots slot).replay = (world.slots slot).replay ∧
      (next.slots slot).live = (world.slots slot).live)
    (habsent : ∀ slot, world.slotCount ≤ slot → next.slots slot = world.slots slot) :
    next.Dispatching where
  sinks_nodup := hstate ▸ h.sinks_nodup
  sinks_lt := by
    rw [hstate, hcount]
    exact h.sinks_lt
  absent slot hle := by
    rw [hcount] at hle
    exact (habsent slot hle).trans (h.absent slot hle)
  known slot := by
    rw [(hslots slot).1, (hslots slot).2, hrecords]
    exact h.known slot
  call other ref slots hother := by
    rw [hrecords]
    rw [hcalls] at hother
    by_cases heq : other = thread
    · rw [heq, Function.update_self] at hother
      obtain ⟨slot, hbefore⟩ := hrest ref slots hother
      obtain ⟨hlt, hnodup⟩ := h.call thread ref _ hbefore
      exact ⟨hlt, (List.nodup_cons.mp hnodup).2⟩
    · rw [Function.update_of_ne heq] at hother
      exact h.call other ref slots hother
  one a b ref slots others ha hb := by
    have hbefore : ∀ other slots, next.calls other = .dispatching ref slots →
        ∃ more, world.calls other = .dispatching ref more := by
      intro other slots hother
      rw [hcalls] at hother
      by_cases heq : other = thread
      · rw [heq, Function.update_self] at hother
        obtain ⟨slot, hbefore⟩ := hrest ref slots hother
        exact ⟨_, heq ▸ hbefore⟩
      · rw [Function.update_of_ne heq] at hother
        exact ⟨slots, hother⟩
    obtain ⟨_, ha⟩ := hbefore a slots ha
    obtain ⟨_, hb⟩ := hbefore b others hb
    exact h.one a b ref _ _ ha hb

theorem frame_slot (h : world.Dispatching) {head : Nat} {value : SinkSlot}
    (hlt : head < world.slotCount) (hstate : next.state.sinks = world.state.sinks)
    (hcount : next.slotCount = world.slotCount) (hrecords : next.records = world.records)
    (hcalls : next.calls = Function.update world.calls thread call)
    (hrest : ∀ ref slots, call = .dispatching ref slots →
      ∃ slot, world.calls thread = .dispatching ref (slot :: slots))
    (hslots : next.slots = Function.update world.slots head value)
    (hreplay : value.replay = (world.slots head).replay)
    (hlive : value.live = (world.slots head).live) : next.Dispatching := by
  refine h.frame hstate hcount hrecords hcalls hrest (fun slot => ?_) fun slot hle => ?_
  · by_cases heq : slot = head
    · rw [hslots, heq, Function.update_self]
      exact ⟨hreplay, hlive⟩
    · rw [hslots, Function.update_of_ne heq]
      exact ⟨rfl, rfl⟩
  · rw [hslots, Function.update_of_ne (Nat.ne_of_gt (Nat.lt_of_lt_of_le hlt hle))]

theorem published (h : world.Dispatching) {record : LogRecord τ} {history : List Nat}
    {line : LogLine τ} : (world.publish thread record history line).Dispatching where
  sinks_nodup := h.sinks_nodup
  sinks_lt := h.sinks_lt
  absent slot hle := by
    have hslot : slot ∉ world.state.sinks.values := fun hmem =>
      absurd (h.sinks_lt slot hmem) (Nat.not_lt.mpr hle)
    exact (if_neg hslot).trans (h.absent slot hle)
  known slot ref href := by
    have hlength : (world.publish thread record history line).records.length =
        world.records.length + 1 := List.length_append
    rw [hlength]
    by_cases hslot : slot ∈ world.state.sinks.values
    · have hfound : (world.publish thread record history line).slots slot =
          { world.slots slot with live := (world.slots slot).live ++ [world.records.length] } :=
        if_pos hslot
      rw [hfound] at href
      rcases List.mem_append.mp href with hreplay | hlive
      · exact Nat.lt_succ_of_lt (h.known slot ref (List.mem_append_left _ hreplay))
      · rcases List.mem_append.mp hlive with hlive | hlive
        · exact Nat.lt_succ_of_lt (h.known slot ref (List.mem_append_right _ hlive))
        · rw [List.mem_singleton.mp hlive]
          exact Nat.lt_succ_self _
    · have hfound : (world.publish thread record history line).slots slot = world.slots slot :=
        if_neg hslot
      rw [hfound] at href
      exact Nat.lt_succ_of_lt (h.known slot ref href)
  call other ref slots hother := by
    have hlength : (world.publish thread record history line).records.length =
        world.records.length + 1 := List.length_append
    rw [hlength]
    change Function.update world.calls thread _ other = _ at hother
    by_cases heq : other = thread
    · rw [heq, Function.update_self] at hother
      cases hother
      exact ⟨Nat.lt_succ_self _, h.sinks_nodup⟩
    · rw [Function.update_of_ne heq] at hother
      obtain ⟨hlt, hnodup⟩ := h.call other ref slots hother
      exact ⟨Nat.lt_succ_of_lt hlt, hnodup⟩
  one a b ref slots others ha hb := by
    change Function.update world.calls thread _ a = _ at ha
    change Function.update world.calls thread _ b = _ at hb
    by_cases hathread : a = thread
    · by_cases hbthread : b = thread
      · exact hathread.trans hbthread.symm
      · rw [hathread, Function.update_self] at ha
        rw [Function.update_of_ne hbthread] at hb
        cases ha
        exact absurd (h.call b _ others hb).1 (Nat.lt_irrefl _)
    · rw [Function.update_of_ne hathread] at ha
      by_cases hbthread : b = thread
      · rw [hbthread, Function.update_self] at hb
        cases hb
        exact absurd (h.call a _ slots ha).1 (Nat.lt_irrefl _)
      · rw [Function.update_of_ne hbthread] at hb
        exact h.one a b ref slots others ha hb

theorem registered (h : world.Dispatching) (hrecorded : world.Recorded)
    {maxLevel : Option LogLevel} : (world.register thread maxLevel).Dispatching := by
  have hperm : (world.register thread maxLevel).state.sinks.values.Perm
      (world.slotCount :: (world.state.sinks.erase world.state.nextRegistration).values) :=
    SortedMap.perm_values_put _ _ _
  have hold : ∀ slot ∈ (world.state.sinks.erase world.state.nextRegistration).values,
      slot < world.slotCount := fun slot hslot =>
    h.sinks_lt slot ((SortedMap.values_erase_sublist _ _).mem hslot)
  have hcalls : ∀ other ref slots,
      (world.register thread maxLevel).calls other = .dispatching ref slots →
      world.calls other = .dispatching ref slots := by
    intro other ref slots hother
    change Function.update world.calls thread _ other = _ at hother
    by_cases heq : other = thread
    · rw [heq, Function.update_self] at hother
      cases hother
    · rwa [Function.update_of_ne heq] at hother
  refine ⟨?_, ?_, ?_, ?_, fun other ref slots hother => ?_, fun a b ref slots others ha hb => ?_⟩
  · refine hperm.nodup_iff.mpr (List.nodup_cons.mpr ⟨fun hmem => ?_, ?_⟩)
    · exact Nat.lt_irrefl _ (hold _ hmem)
    · exact h.sinks_nodup.sublist (SortedMap.values_erase_sublist _ _)
  · intro slot hslot
    rcases List.mem_cons.mp (hperm.mem_iff.mp hslot) with rfl | hslot
    · exact Nat.lt_succ_self _
    · exact Nat.lt_succ_of_lt (hold slot hslot)
  · intro slot hle
    have hne : slot ≠ world.slotCount := Nat.ne_of_gt hle
    exact (Function.update_of_ne hne _ _).trans (h.absent slot (Nat.le_of_succ_le hle))
  · intro slot ref href
    by_cases heq : slot = world.slotCount
    · have hfound : (world.register thread maxLevel).slots slot =
          ⟨maxLevel, true, [], world.state.history, []⟩ := by
        rw [heq]
        exact Function.update_self ..
      rw [hfound, List.append_nil] at href
      exact hrecorded.known ref href
    · have hfound : (world.register thread maxLevel).slots slot = world.slots slot :=
        Function.update_of_ne heq _ _
      rw [hfound] at href
      exact h.known slot ref href
  · exact h.call other ref slots (hcalls other ref slots hother)
  · exact h.one a b ref slots others (hcalls a ref slots ha) (hcalls b ref others hb)

theorem deregistered (h : world.Dispatching) (id : Nat) : (world.deregister id).Dispatching where
  sinks_nodup := h.sinks_nodup.sublist (SortedMap.values_erase_sublist _ _)
  sinks_lt slot hslot := h.sinks_lt slot ((SortedMap.values_erase_sublist _ _).mem hslot)
  absent := h.absent
  known := h.known
  call := h.call
  one := h.one

theorem move (h : world.Dispatching) (hrecorded : world.Recorded)
    (hlive : ∀ slot ref, world.Owed slot ref → ref ∈ (world.slots slot).live)
    (hheld : ∀ slot thread rest, (world.calls thread).replays slot = some rest →
      (world.slots slot).dispatchHeld = true)
    (hmove : Move world next) : next.Dispatching := by
  cases hmove with
  | log | stamping | unstamped | dispatched | passed =>
    exact h.frame rfl rfl rfl rfl nofun (fun _ => ⟨rfl, rfl⟩) fun _ _ => rfl
  | coalesced | stamped => exact h.published
  | rejected hcall =>
    refine h.frame rfl rfl rfl rfl ?_ (fun _ => ⟨rfl, rfl⟩) fun _ _ => rfl
    intro ref slots hsame
    cases hsame
    exact ⟨_, hcall⟩
  | @written thread ref head slots hcall =>
    have hlt : head < world.slotCount := by
      refine h.lt_of_live (hlive head ref ⟨thread, ?_⟩)
      rw [hcall]
      simp [LogCall.owes]
    refine @frame_slot _ world _ _ _ h _ _ hlt rfl rfl rfl rfl ?_ rfl rfl rfl
    intro ref slots hsame
    cases hsame
    exact ⟨_, hcall⟩
  | register => exact h.registered hrecorded
  | @replayed thread ref head records hcall =>
    have hlt : head < world.slotCount := by
      refine h.lt_of_held (hheld head thread (ref :: records) ?_)
      rw [hcall]
      exact if_pos rfl
    exact @frame_slot _ world _ _ _ h _ _ hlt rfl rfl rfl rfl nofun rfl rfl rfl
  | @released thread head hcall =>
    have hlt : head < world.slotCount := by
      refine h.lt_of_held (hheld head thread [] ?_)
      rw [hcall]
      exact if_pos rfl
    exact @frame_slot _ world _ _ _ h _ _ hlt rfl rfl rfl rfl nofun rfl rfl rfl
  | deregister id => exact h.deregistered id

end Dispatching

def Follows (world next : LogWorld τ) (slot : Nat) (backlog : Option (List Nat)) : Prop :=
  ∃ after, next.Reads slot after ∧
    Relation.ReflTransGen Mailbox.Move (world.mailbox slot backlog) (next.mailbox slot after)

section Follows

variable {world next : LogWorld τ} {thread slot : Nat} {call : LogCall}
  {backlog : Option (List Nat)}

theorem accepts_congr {ref : Nat} (hrecord : next.records[ref]? = world.records[ref]?)
    (hlevel : (next.slots slot).maxLevel = (world.slots slot).maxLevel) :
    next.accepts slot ref = world.accepts slot ref := by
  unfold accepts
  rw [hrecord, hlevel]

theorem follows_unchanged (h : world.Reads slot backlog)
    (hcalls : next.calls = Function.update world.calls thread call)
    (hslot : next.slots slot = world.slots slot) (hrecords : next.records = world.records)
    (howes : ∀ ref, call.owes slot ref = (world.calls thread).owes slot ref)
    (hreplays : call.replays slot = (world.calls thread).replays slot) :
    Follows world next slot backlog := by
  refine ⟨backlog, reads_same hcalls (by rw [hslot]) hreplays h, ?_⟩
  have hsame : next.mailbox slot backlog = world.mailbox slot backlog := by
    unfold mailbox
    rw [hslot, owed_same hcalls howes]
    congr 1
    funext ref
    exact accepts_congr (by rw [hrecords]) (by rw [hslot])
  rw [hsame]

theorem follows_published (h : world.Reads slot backlog) (hdispatching : world.Dispatching)
    {record : LogRecord τ} {history : List Nat} {line : LogLine τ}
    (howes : ∀ ref, (world.calls thread).owes slot ref = false)
    (hreplays : (world.calls thread).replays slot = none) :
    Follows world (world.publish thread record history line) slot backlog := by
  have hcalls : (world.publish thread record history line).calls = Function.update world.calls
      thread (.dispatching world.records.length world.state.sinks.values) := rfl
  have haccepts : ∀ ref ∈ (world.slots slot).replay ++ (world.slots slot).live,
      (world.publish thread record history line).accepts slot ref = world.accepts slot ref := by
    intro ref href
    refine accepts_congr (List.getElem?_append_left (hdispatching.known slot ref href)) ?_
    change SinkSlot.maxLevel (if _ then _ else _) = _
    split <;> rfl
  have hbefore : ∀ ref, (∃ other, other ≠ thread ∧ (world.calls other).owes slot ref) ↔
      world.Owed slot ref := by
    intro ref
    rw [owed_iff thread, howes]
    simp
  have hseen : Mailbox.Move (world.mailbox slot backlog) _ := .seen _ haccepts
  by_cases hslot : slot ∈ world.state.sinks.values
  · have hfound : (world.publish thread record history line).slots slot =
        { world.slots slot with live := (world.slots slot).live ++ [world.records.length] } :=
      if_pos hslot
    refine ⟨backlog, reads_same hcalls (by rw [hfound]) hreplays.symm h, ?_⟩
    have howed : (world.publish thread record history line).Owed slot = fun ref =>
        ref = world.records.length ∨ world.Owed slot ref := by
      funext ref
      rw [propext (owed_update hcalls), propext (hbefore ref)]
      simp [LogCall.owes, hslot, eq_comm]
    have hnew : world.records.length ∉ (world.slots slot).replay ++ (world.slots slot).live :=
      fun hmem => Nat.lt_irrefl _ (hdispatching.known slot _ hmem)
    refine .tail (.single hseen) ?_
    have harrived : Mailbox.Move { world.mailbox slot backlog with
        accepts := fun ref => (world.publish thread record history line).accepts slot ref } _ :=
      .arrived world.records.length hnew
    unfold mailbox at harrived ⊢
    rw [howed, hfound]
    exact harrived
  · have hfound : (world.publish thread record history line).slots slot = world.slots slot :=
      if_neg hslot
    refine ⟨backlog, reads_same hcalls (by rw [hfound]) hreplays.symm h, ?_⟩
    have howed : (world.publish thread record history line).Owed slot = world.Owed slot := by
      refine owed_same hcalls fun ref => ?_
      rw [howes]
      simp [LogCall.owes, hslot]
    refine .single ?_
    unfold mailbox at hseen ⊢
    rw [howed, hfound]
    exact hseen

theorem owes_eq_true {ref : Nat} (h : call.owes slot ref = true) :
    ∃ slots, call = .dispatching ref slots ∧ slot ∈ slots := by
  cases call with
  | dispatching _ slots =>
    obtain ⟨rfl, hslot⟩ := of_decide_eq_true h
    exact ⟨slots, rfl, hslot⟩
  | _ => cases h

variable {slots : List Nat}

theorem owed_passed (hdispatching : world.Dispatching) {ref : Nat}
    (hcall : world.calls thread = .dispatching ref (slot :: slots))
    (hcalls : next.calls = Function.update world.calls thread (.dispatching ref slots)) :
    next.Owed slot = fun other => other ≠ ref ∧ world.Owed slot other := by
  have hnodup := (hdispatching.call thread ref _ hcall).2
  funext other
  refine propext ((owed_update hcalls).trans ⟨?_, ?_⟩)
  · rintro (howes | ⟨carrier, hne, howes⟩)
    · obtain ⟨_, hsame, hslot⟩ := owes_eq_true howes
      cases hsame
      exact absurd hslot (List.nodup_cons.mp hnodup).1
    · refine ⟨?_, carrier, howes⟩
      rintro rfl
      obtain ⟨_, hcarrier, _⟩ := owes_eq_true howes
      exact hne (hdispatching.one carrier thread _ _ _ hcarrier hcall)
  · rintro ⟨hne, howed⟩
    rcases (owed_iff thread).mp howed with howes | hcarrier
    · obtain ⟨_, hsame, _⟩ := owes_eq_true howes
      rw [hcall] at hsame
      cases hsame
      exact absurd rfl hne
    · exact Or.inr hcarrier

variable {head : Nat}

theorem owes_other {ref : Nat} (hne : slot ≠ head) (other : Nat) :
    (LogCall.dispatching ref slots).owes slot other =
      (LogCall.dispatching ref (head :: slots)).owes slot other := by
  simp [LogCall.owes, hne]

theorem calls_write (head ref : Nat) (call : LogCall) :
    ((world.write head ref).setCall thread call).calls = Function.update world.calls thread call :=
  rfl

theorem slots_write (head ref : Nat) (call : LogCall) :
    ((world.write head ref).setCall thread call).slots head =
      { world.slots head with written := (world.slots head).written ++ [ref] } :=
  Function.update_self ..

theorem slots_write_other (hne : slot ≠ head) (ref : Nat) (call : LogCall) :
    ((world.write head ref).setCall thread call).slots slot = world.slots slot :=
  Function.update_of_ne hne ..

theorem accepts_write (head ref : Nat) (call : LogCall) :
    ((world.write head ref).setCall thread call).accepts head = world.accepts head :=
  funext fun _ => accepts_congr rfl (by rw [slots_write])

theorem replays_self {records : List Nat} (hcall : world.calls thread = .replaying slot records) :
    (world.calls thread).replays slot = some records := by
  rw [hcall]
  exact if_pos rfl

theorem replays_other (hne : slot ≠ head) (records : List Nat) :
    (LogCall.replaying head records).replays slot = none := if_neg (Ne.symm hne)

theorem follows_rejected (h : world.Reads slot backlog) (hdispatching : world.Dispatching)
    {ref : Nat} (hcall : world.calls thread = .dispatching ref (head :: slots))
    (haccepts : world.accepts head ref = false) :
    Follows world (world.setCall thread (.dispatching ref slots)) slot backlog := by
  by_cases heq : slot = head
  · subst heq
    refine ⟨backlog, reads_same rfl rfl (by rw [hcall]; rfl) h, .single ?_⟩
    have hrefused : Mailbox.Move (world.mailbox slot backlog) _ := .refused haccepts
    have howed : (world.setCall thread (.dispatching ref slots)).Owed slot = _ :=
      owed_passed hdispatching hcall rfl
    unfold mailbox at hrefused ⊢
    rw [howed]
    exact hrefused
  · refine follows_unchanged h rfl rfl rfl (fun other => ?_) (by rw [hcall]; rfl)
    rw [hcall]
    exact owes_other heq other

theorem follows_written (h : world.Reads slot backlog) (hdispatching : world.Dispatching)
    {ref : Nat} (hcall : world.calls thread = .dispatching ref (head :: slots))
    (haccepts : world.accepts head ref = true) (hheld : (world.slots head).dispatchHeld = false) :
    Follows world ((world.write head ref).setCall thread (.dispatching ref slots)) slot
      backlog := by
  by_cases heq : slot = head
  · subst heq
    have hbacklog : backlog = none := reads_free h hheld
    refine ⟨backlog, reads_same (calls_write ..) (by rw [slots_write]) (by rw [hcall]; rfl) h,
      .single ?_⟩
    have hpending : world.Owed slot ref := ⟨thread, by rw [hcall]; simp [LogCall.owes]⟩
    have hdelivered : Mailbox.Move (world.mailbox slot backlog) _ :=
      .delivered hpending haccepts hbacklog
    have howed : ((world.write slot ref).setCall thread (.dispatching ref slots)).Owed slot = _ :=
      owed_passed hdispatching hcall rfl
    unfold mailbox at hdelivered ⊢
    rw [howed, slots_write, accepts_write]
    exact hdelivered
  · refine follows_unchanged h (calls_write ..) (slots_write_other heq ..) rfl (fun other => ?_)
      (by rw [hcall]; rfl)
    rw [hcall]
    exact owes_other heq other

theorem follows_registered (h : world.Reads slot backlog) (hsound : (world.mailbox slot backlog).Sound)
    (hdispatching : world.Dispatching) (hrecorded : world.Recorded) {maxLevel : Option LogLevel}
    (hcall : world.calls thread = .idle) :
    Follows world (world.register thread maxLevel) slot backlog := by
  have hcalls : (world.register thread maxLevel).calls = Function.update world.calls thread
      (.replaying world.slotCount world.state.history) := rfl
  by_cases heq : slot = world.slotCount
  · subst heq
    have habsent := hdispatching.absent world.slotCount (Nat.le_refl _)
    have hfound : (world.register thread maxLevel).slots world.slotCount =
        ⟨maxLevel, true, [], world.state.history, []⟩ := Function.update_self ..
    have hfree : (world.slots world.slotCount).dispatchHeld = false := by
      rw [habsent]
      rfl
    cases reads_free h hfree
    refine ⟨some world.state.history, ⟨by rw [hfound], thread, ?_, ?_⟩, .single ?_⟩
    · rw [hcalls, Function.update_self]
      exact if_pos rfl
    · intro other hne
      rw [hcalls, Function.update_of_ne hne]
      exact h.2 other
    · have howed : (world.register thread maxLevel).Owed world.slotCount = fun _ => False := by
        rw [owed_same hcalls (fun ref => by rw [hcall]; rfl)]
        funext ref
        refine eq_false fun howed => ?_
        have hlive := (hsound.owed ref howed).1
        unfold mailbox at hlive
        rw [habsent] at hlive
        cases hlive
      have hopened := @Mailbox.Move.opened _ (world.mailbox world.slotCount none)
        (fun ref => (world.register thread maxLevel).accepts world.slotCount ref) _
        (hrecorded.increasing.imp Nat.ne_of_lt) (by unfold mailbox; rw [habsent]; rfl)
      unfold mailbox at hopened ⊢
      rw [howed, hfound]
      exact hopened
  · refine follows_unchanged h hcalls (Function.update_of_ne heq _ _) rfl (fun ref => ?_) ?_
    · rw [hcall]
      rfl
    · rw [hcall]
      exact if_neg (Ne.symm heq)

variable {records : List Nat}

theorem follows_replayed (h : world.Reads slot backlog) {ref : Nat}
    (hcall : world.calls thread = .replaying head (ref :: records))
    (haccepts : world.accepts head ref = true) :
    Follows world ((world.write head ref).setCall thread (.replaying head records)) slot
      backlog := by
  by_cases heq : slot = head
  · subst heq
    have hreplays := replays_self hcall
    obtain ⟨hbacklog, _⟩ := reads_of_replays h hreplays
    refine ⟨some records, reads_advance (calls_write ..) (by rw [slots_write]) h hreplays
      (if_pos rfl), .single ?_⟩
    have hreplayed : Mailbox.Move (world.mailbox slot backlog) _ := .replayed hbacklog haccepts
    have howed : ((world.write slot ref).setCall thread (.replaying slot records)).Owed slot =
        world.Owed slot := owed_same (calls_write ..) fun other => by rw [hcall]; rfl
    unfold mailbox at hreplayed ⊢
    rw [howed, slots_write, accepts_write]
    exact hreplayed
  · refine follows_unchanged h (calls_write ..) (slots_write_other heq ..) rfl
      (fun other => by rw [hcall]; rfl) ?_
    rw [hcall, replays_other heq, replays_other heq]

theorem follows_passed (h : world.Reads slot backlog) {ref : Nat}
    (hcall : world.calls thread = .replaying head (ref :: records))
    (haccepts : world.accepts head ref = false) :
    Follows world (world.setCall thread (.replaying head records)) slot backlog := by
  by_cases heq : slot = head
  · subst heq
    have hreplays := replays_self hcall
    obtain ⟨hbacklog, _⟩ := reads_of_replays h hreplays
    refine ⟨some records, reads_advance rfl rfl h hreplays (if_pos rfl), .single ?_⟩
    have hpassed : Mailbox.Move (world.mailbox slot backlog) _ := .passed hbacklog haccepts
    have howed : (world.setCall thread (.replaying slot records)).Owed slot = world.Owed slot :=
      owed_same rfl fun other => by rw [hcall]; rfl
    unfold mailbox at hpassed ⊢
    rw [howed]
    exact hpassed
  · refine follows_unchanged h rfl rfl rfl (fun other => by rw [hcall]; rfl) ?_
    rw [hcall, replays_other heq, replays_other heq]

theorem follows_released (h : world.Reads slot backlog)
    (hcall : world.calls thread = .replaying head []) :
    Follows world ((world.setSlot head
      { world.slots head with dispatchHeld := false }).setCall thread .idle) slot backlog := by
  have hcalls : ((world.setSlot head
      { world.slots head with dispatchHeld := false }).setCall thread .idle).calls =
      Function.update world.calls thread .idle := rfl
  by_cases heq : slot = head
  · subst heq
    have hfound : ((world.setSlot slot
        { world.slots slot with dispatchHeld := false }).setCall thread .idle).slots slot =
        { world.slots slot with dispatchHeld := false } := Function.update_self ..
    have hreplays := replays_self hcall
    obtain ⟨hbacklog, _⟩ := reads_of_replays h hreplays
    refine ⟨none, reads_release hcalls (by rw [hfound]) h hreplays rfl, .single ?_⟩
    have hreleased : Mailbox.Move (world.mailbox slot backlog) _ := .released hbacklog
    have hsame : ∀ other, ((world.setSlot slot
        { world.slots slot with dispatchHeld := false }).setCall thread .idle).accepts slot other =
        world.accepts slot other := fun other => accepts_congr rfl (by rw [hfound])
    have howed : ((world.setSlot slot
        { world.slots slot with dispatchHeld := false }).setCall thread .idle).Owed slot =
        world.Owed slot := owed_same hcalls fun other => by rw [hcall]; rfl
    unfold mailbox at hreleased ⊢
    rw [howed, hfound, funext hsame]
    exact hreleased
  · have hfound : ((world.setSlot head
        { world.slots head with dispatchHeld := false }).setCall thread .idle).slots slot =
        world.slots slot := Function.update_of_ne heq _ _
    refine follows_unchanged h hcalls hfound rfl (fun other => by rw [hcall]; rfl) ?_
    rw [hcall, replays_other heq]
    rfl

end Follows

structure Sound (world : LogWorld τ) : Prop where
  recorded : world.Recorded
  dispatching : world.Dispatching
  mailbox : ∀ slot, ∃ backlog, world.Reads slot backlog ∧ (world.mailbox slot backlog).Sound

theorem sound_start : (start : LogWorld τ).Sound where
  recorded := recorded_start
  dispatching := dispatching_start
  mailbox slot := by
    have howed : (start : LogWorld τ).Owed slot = fun _ => False := by
      funext ref
      exact eq_false fun ⟨_, howes⟩ => Bool.false_ne_true howes
    refine ⟨none, ⟨rfl, fun _ => rfl⟩, ?_⟩
    have hempty :=
      @Mailbox.sound_empty _ fun ref => (start : LogWorld τ).accepts slot ref
    unfold LogWorld.mailbox
    rw [howed]
    exact hempty

namespace Sound

variable {world next : LogWorld τ}

theorem follows (h : world.Sound) (hmove : Move world next) {slot : Nat}
    {backlog : Option (List Nat)} (hreads : world.Reads slot backlog)
    (hbox : (world.mailbox slot backlog).Sound) : Follows world next slot backlog := by
  cases hmove with
  | log _ _ _ hidle =>
    exact follows_unchanged hreads rfl rfl rfl (fun ref => by rw [hidle]; rfl) (by rw [hidle]; rfl)
  | coalesced hcall | stamped hcall =>
    exact follows_published hreads h.dispatching (fun ref => by rw [hcall]; rfl) (by rw [hcall]; rfl)
  | stamping hcall | unstamped hcall =>
    exact follows_unchanged hreads rfl rfl rfl (fun ref => by rw [hcall]; rfl) (by rw [hcall]; rfl)
  | dispatched hcall =>
    refine follows_unchanged hreads rfl rfl rfl (fun ref => ?_) (by rw [hcall]; rfl)
    rw [hcall]
    simp [LogCall.owes]
  | rejected hcall haccepts => exact follows_rejected hreads h.dispatching hcall haccepts
  | written hcall haccepts hheld => exact follows_written hreads h.dispatching hcall haccepts hheld
  | register _ hidle =>
    exact follows_registered hreads hbox h.dispatching h.recorded hidle
  | replayed hcall haccepts => exact follows_replayed hreads hcall haccepts
  | passed hcall haccepts => exact follows_passed hreads hcall haccepts
  | released hcall => exact follows_released hreads hcall
  | deregister => exact ⟨backlog, hreads, .refl⟩

theorem move (h : world.Sound) (hmove : Move world next) : next.Sound where
  recorded := h.recorded.move hmove
  dispatching := by
    refine h.dispatching.move h.recorded (fun slot ref howed => ?_) (fun slot thread rest hcall => ?_)
      hmove
    · obtain ⟨backlog, _, hbox⟩ := h.mailbox slot
      exact (hbox.owed ref howed).1
    · obtain ⟨backlog, hreads, _⟩ := h.mailbox slot
      exact (reads_of_replays hreads hcall).2.1
  mailbox slot := by
    obtain ⟨backlog, hreads, hbox⟩ := h.mailbox slot
    obtain ⟨after, hafter, hmoves⟩ := h.follows hmove hreads hbox
    exact ⟨after, hafter, hbox.moves hmoves⟩

theorem written_prefix (h : world.Sound) (hmove : Move world next) (slot : Nat) :
    (world.slots slot).written <+: (next.slots slot).written := by
  obtain ⟨_, hreads, hbox⟩ := h.mailbox slot
  obtain ⟨_, _, hmoves⟩ := h.follows hmove hreads hbox
  exact Mailbox.written_prefix_of_moves hmoves

end Sound

/-- What the sink still gets: from the call that replays to it, or from one that logged. -/
def Pending (world : LogWorld τ) (slot ref : Nat) : Prop :=
  (∃ thread rest, (world.calls thread).replays slot = some rest ∧ ref ∈ rest) ∨
    world.Owed slot ref

/-- A call that still has something to bring, or the one it waits for, can go on. -/
def Unstuck (world : LogWorld τ) : Prop :=
  ∀ slot ref, world.Pending slot ref →
    ∃ thread, (step world (.dispatch thread)).isSome ∨ (step world (.replay thread)).isSome

/-- The history is the runs of the calls, and every sink gets what it should once. -/
structure DeliversHistory (world : LogWorld τ) : Prop where
  history : List.Forall₂ (Condenses world.records) (world.lines.splitBy sameLine)
    world.state.history
  once : ∀ slot, (world.slots slot).written.Nodup
  only : ∀ slot, ∀ ref ∈ (world.slots slot).written, world.accepts slot ref = true ∧
    ref ∈ (world.slots slot).replay ++ (world.slots slot).live
  complete : ∀ slot, ∀ ref ∈ (world.slots slot).replay ++ (world.slots slot).live,
    world.accepts slot ref = true → ref ∈ (world.slots slot).written ∨ world.Pending slot ref
  replayFirst : ∀ slot, ∃ replayed later, (world.slots slot).written = replayed ++ later ∧
    replayed <+: (world.slots slot).replay.filter (fun ref => world.accepts slot ref) ∧
    (later ≠ [] → replayed = (world.slots slot).replay.filter fun ref => world.accepts slot ref)
  created : ∀ slot, ∀ ref ∈ (world.slots slot).written, ref < world.records.length
  unstuck : world.Unstuck

namespace Sound

variable {world next : LogWorld τ}

theorem unstuck (h : world.Sound) : world.Unstuck := by
  have hreplay : ∀ {slot thread rest}, (world.calls thread).replays slot = some rest →
      (step world (.replay thread)).isSome := by
    intro slot thread rest hrest
    cases hcall : world.calls thread with
    | replaying => simp [step, hcall]
    | _ => rw [hcall] at hrest; cases hrest
  rintro slot ref (⟨thread, rest, hrest, _⟩ | ⟨thread, howes⟩)
  · exact ⟨thread, Or.inr (hreplay hrest)⟩
  · obtain ⟨slots, hcall, hslot⟩ := owes_eq_true howes
    cases slots with
    | nil => cases hslot
    | cons head =>
      obtain ⟨backlog, hreads, _⟩ := h.mailbox head
      cases backlog with
      | none =>
        refine ⟨thread, Or.inl ?_⟩
        simp only [step, hcall, dispatch, hreads.1]
        split <;> rfl
      | some =>
        obtain ⟨_, reader, hreader, _⟩ := hreads
        exact ⟨reader, Or.inr (hreplay hreader)⟩

theorem delivers (h : world.Sound) : world.DeliversHistory where
  history := h.recorded.condensed
  once slot := by
    obtain ⟨_, _, hbox⟩ := h.mailbox slot
    exact hbox.once
  only slot ref hwritten := by
    obtain ⟨_, _, hbox⟩ := h.mailbox slot
    exact (hbox.accepted ref hwritten).symm
  complete slot ref hmem haccepts := by
    obtain ⟨backlog, hreads, hbox⟩ := h.mailbox slot
    rcases List.mem_append.mp hmem with hreplay | hlive
    · cases backlog with
      | none => exact Or.inl ((hbox.after rfl).mem (List.mem_filter.mpr ⟨hreplay, haccepts⟩))
      | some rest =>
        obtain ⟨_, reader, hreader, _⟩ := hreads
        obtain ⟨passed, hsplit, hwritten⟩ := hbox.behind rest rfl
        change (world.slots slot).replay = _ at hsplit
        change (world.slots slot).written = _ at hwritten
        rw [hsplit] at hreplay
        rcases List.mem_append.mp hreplay with hpassed | hrest
        · exact Or.inl (hwritten ▸ List.mem_filter.mpr ⟨hpassed, haccepts⟩)
        · exact Or.inr (Or.inl ⟨reader, rest, hreader, hrest⟩)
    · exact (hbox.complete ref hlive haccepts).imp_right Or.inr
  replayFirst slot := by
    obtain ⟨backlog, _, hbox⟩ := h.mailbox slot
    cases backlog with
    | none =>
      obtain ⟨later, hlater⟩ := hbox.after rfl
      exact ⟨_, later, hlater.symm, List.prefix_refl _, fun _ => rfl⟩
    | some rest =>
      obtain ⟨passed, hsplit, hwritten⟩ := hbox.behind rest rfl
      refine ⟨_, [], (List.append_nil _).symm, ?_, fun hne => absurd rfl hne⟩
      change (world.slots slot).replay = _ at hsplit
      change (world.slots slot).written = _ at hwritten
      rw [hsplit, hwritten, List.filter_append]
      exact List.prefix_append _ _
  created slot ref hwritten := by
    obtain ⟨_, _, hbox⟩ := h.mailbox slot
    exact h.dispatching.known slot ref (hbox.accepted ref hwritten).1
  unstuck := h.unstuck

variable {actions : List (LogStep τ)}

theorem run (h : world.Sound) (hrun : runSteps step world actions = some next) : next.Sound :=
  runSteps_invariant (fun _ _ _ hstep hsound => hsound.move (move_of_step hstep)) hrun h

theorem written_prefix_run (h : world.Sound) (hrun : runSteps step world actions = some next)
    (slot : Nat) : (world.slots slot).written <+: (next.slots slot).written := by
  induction actions generalizing world with
  | nil => exact Option.some.inj hrun ▸ List.prefix_refl _
  | cons _ _ ih =>
    obtain ⟨_, hstep, hrest⟩ := runSteps_cons.mp hrun
    have hmove := move_of_step hstep
    exact (h.written_prefix hmove slot).trans (ih (h.move hmove) hrest)

end Sound

/-- Over every interleaving: the history is the coalesced calls, every sink gets every state it should
once and the replay first, and a state it has got stays before those created afterwards. -/
theorem delivers_history {before after : List (LogStep τ)} {world later : LogWorld τ}
    (hbefore : runSteps step start before = some world)
    (hafter : runSteps step world after = some later) :
    later.DeliversHistory ∧ ∀ slot, ∀ old ∈ (world.slots slot).written,
      ∀ new ∈ (later.slots slot).written, world.records.length ≤ new →
        [old, new].Sublist (later.slots slot).written := by
  have hworld := sound_start.run hbefore
  refine ⟨(hworld.run hafter).delivers, fun slot old hold new hnew hcreated => ?_⟩
  obtain ⟨_, hmore⟩ := hworld.written_prefix_run hafter slot
  rw [← hmore] at hnew ⊢
  rcases List.mem_append.mp hnew with hmem | hmem
  · exact absurd (hworld.delivers.created slot new hmem) (Nat.not_lt.mpr hcreated)
  · exact (List.singleton_sublist.mpr hold).append (List.singleton_sublist.mpr hmem)

/-- A sink registers, and the same message comes twice. -/
theorem repeatedRun_delivers : ∃ world later : LogWorld Nat,
    runSteps step start [.register 0 (some .all), .replay 0, .log 1 .info "core" "ready", .record 1,
      .stamp 1 7, .dispatch 1] = some world ∧
    (world.slots 0).written = [0] ∧
    runSteps step world [.dispatch 1, .log 2 .info "addon" "ready", .record 2, .dispatch 2] =
      some later ∧
    later.DeliversHistory ∧ [0, 1].Sublist (later.slots 0).written := by
  obtain ⟨world, hbefore⟩ := Option.isSome_iff_exists.mp (rfl : (runSteps step
    (start : LogWorld Nat) [.register 0 (some .all), .replay 0, .log 1 .info "core" "ready",
      .record 1, .stamp 1 7, .dispatch 1]).isSome = true)
  have hworld : (runSteps step (start : LogWorld Nat) [.register 0 (some .all), .replay 0,
      .log 1 .info "core" "ready", .record 1, .stamp 1 7, .dispatch 1]).map
      (fun world => ((world.slots 0).written, world.records.length,
        ((runSteps step world [.dispatch 1, .log 2 .info "addon" "ready", .record 2,
          .dispatch 2]).map fun later => (later.slots 0).written))) =
      some ([0], 1, some [0, 1]) := rfl
  rw [hbefore, Option.map_some, Option.some.injEq, Prod.mk.injEq, Prod.mk.injEq] at hworld
  obtain ⟨hwritten, hrecords, hlast⟩ := hworld
  obtain ⟨later, hafter, hlater⟩ := Option.map_eq_some_iff.mp hlast
  obtain ⟨hdelivers, horder⟩ := delivers_history hbefore hafter
  refine ⟨world, later, hbefore, hwritten, hafter, hdelivers, ?_⟩
  exact horder 0 0 (by rw [hwritten]; decide) 1 (by rw [hlater]; decide) (by rw [hrecords])

/-- Two calls that overlap reach the sink the other way round. -/
theorem overlapping_calls_overtake : ¬ ∀ (actions : List (LogStep Nat)) (world : LogWorld Nat),
    runSteps step start actions = some world →
    ∀ slot, (world.slots slot).written.Pairwise (· < ·) := by
  intro hordered
  obtain ⟨world, hrun⟩ := Option.isSome_iff_exists.mp (rfl : (runSteps step
    (start : LogWorld Nat) [.register 0 (some .all), .replay 0, .log 1 .info "core" "first",
      .record 1, .stamp 1 7, .log 2 .info "core" "second", .record 2, .stamp 2 8, .dispatch 2,
      .dispatch 1]).isSome = true)
  have hworld : (runSteps step (start : LogWorld Nat) [.register 0 (some .all), .replay 0,
      .log 1 .info "core" "first", .record 1, .stamp 1 7, .log 2 .info "core" "second", .record 2,
      .stamp 2 8, .dispatch 2, .dispatch 1]).map (fun world => (world.slots 0).written) =
      some [1, 0] := rfl
  rw [hrun, Option.map_some, Option.some.injEq] at hworld
  have hslot := hordered _ world hrun 0
  rw [hworld] at hslot
  exact absurd hslot (by decide)

end LogWorld

end Nexus.Logging
