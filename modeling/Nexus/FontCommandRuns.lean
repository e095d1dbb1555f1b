import Nexus.FontCommandMoves
import Nexus.Tally

namespace Nexus.RuntimeFonts

def waits (ticket : Nat) (command : PendingFontCommand) : Nat :=
  if command.ticket = ticket then 1 else 0

def holds (ticket : Nat) (use : SessionUse) : Nat :=
  match use.phase with
  | .holding command => waits ticket command
  | _ => 0

def runs (ticket : Nat) (use : SessionUse) : Nat :=
  match use.phase with
  | .running command => waits ticket command
  | _ => 0

theorem waits_self (command : PendingFontCommand) : waits command.ticket command = 1 := if_pos rfl

theorem holds_of_phase {use : SessionUse} {command : PendingFontCommand}
    (h : use.phase = .holding command) (ticket : Nat) : holds ticket use = waits ticket command := by
  unfold holds
  rw [h]

theorem runs_of_phase {use : SessionUse} {command : PendingFontCommand}
    (h : use.phase = .running command) (ticket : Nat) : runs ticket use = waits ticket command := by
  unfold runs
  rw [h]

theorem holds_eq_zero {use : SessionUse} (h : ∀ command, use.phase ≠ .holding command)
    (ticket : Nat) : holds ticket use = 0 := by
  unfold holds
  split
  next command hphase => exact absurd hphase (h command)
  next => rfl

theorem runs_eq_zero {use : SessionUse} (h : ∀ command, use.phase ≠ .running command)
    (ticket : Nat) : runs ticket use = 0 := by
  unfold runs
  split
  next command hphase => exact absurd hphase (h command)
  next => rfl

section Events

variable {V : Type}

/-- What an event says of a command: accepted, canceled, taken by its render thread, started,
completed or panicked. -/
def accepts (ticket : Nat) : FontEvent V → Nat
  | .accepted command => waits ticket command
  | _ => 0

def cancels (ticket : Nat) : FontEvent V → Nat
  | .canceled commands => tally (waits ticket) commands
  | _ => 0

def takes (ticket : Nat) : FontEvent V → Nat
  | .taken command => waits ticket command
  | _ => 0

def starts (ticket : Nat) : FontEvent V → Nat
  | .started command => waits ticket command
  | _ => 0

def completes (ticket : Nat) : FontEvent V → Nat
  | .completed other _ => if other = ticket then 1 else 0
  | _ => 0

def panics (ticket : Nat) : FontEvent V → Nat
  | .panicked other => if other = ticket then 1 else 0
  | _ => 0

def FontEvent.neutral : FontEvent V → Bool
  | .attached _ | .detached _ | .stopped | .gaveUp _ | .returned _ _ => true
  | .accepted _ | .taken _ | .started _ | .completed _ _ | .panicked _ | .canceled _ => false

/-- A command is in the queue, was canceled, or was taken; a taken one starts and ends at most
once. -/
structure Ledger (queue : List PendingFontCommand) (uses : List SessionUse)
    (log : List (FontEvent V)) (count : Nat) : Prop where
  once : ∀ ticket, tally (waits ticket) queue + tally (takes ticket) log +
    tally (cancels ticket) log = tally (accepts ticket) log
  accepted : ∀ ticket, tally (accepts ticket) log ≤ if ticket < count then 1 else 0
  started : ∀ ticket, tally (takes ticket) log = tally (starts ticket) log +
    tally (holds ticket) uses
  ended : ∀ ticket, tally (starts ticket) log = tally (completes ticket) log +
    tally (panics ticket) log + tally (runs ticket) uses

variable {queue : List PendingFontCommand} {uses : List SessionUse} {log : List (FontEvent V)}
  {count : Nat}

theorem Ledger.next (h : Ledger queue uses log count) {event : FontEvent V}
    {rest : List PendingFontCommand} {after : List SessionUse}
    (honce : ∀ ticket, tally (waits ticket) rest + takes ticket event + cancels ticket event =
      tally (waits ticket) queue)
    (haccepts : ∀ ticket, accepts ticket event = 0)
    (hstarted : ∀ ticket, tally (holds ticket) uses + takes ticket event =
      tally (holds ticket) after + starts ticket event)
    (hended : ∀ ticket, tally (runs ticket) uses + starts ticket event =
      tally (runs ticket) after + completes ticket event + panics ticket event) :
    Ledger rest after (event :: log) count := by
  refine ⟨fun ticket => ?_, fun ticket => ?_, fun ticket => ?_, fun ticket => ?_⟩
  · have hold := h.once ticket
    have hnew := honce ticket
    simp only [tally_cons, haccepts]
    omega
  · rw [tally_cons, haccepts, Nat.zero_add]
    exact h.accepted ticket
  · have hold := h.started ticket
    have hnew := hstarted ticket
    simp only [tally_cons]
    omega
  · have hold := h.ended ticket
    have hnew := hended ticket
    simp only [tally_cons]
    omega

theorem Ledger.logged (h : Ledger queue uses log count) {event : FontEvent V}
    (hneutral : event.neutral = true) : Ledger queue uses (event :: log) count := by
  cases event with
  | attached | detached | stopped | gaveUp | returned =>
    exact h.next (fun _ => rfl) (fun _ => rfl) (fun _ => rfl) fun _ => rfl
  | accepted | taken | started | completed | panicked | canceled => cases hneutral

theorem Ledger.moved (h : Ledger queue uses log count) {index : Nat} {old new : SessionUse}
    (huse : uses[index]? = some old) (hholds : ∀ ticket, holds ticket new = holds ticket old)
    (hruns : ∀ ticket, runs ticket new = runs ticket old) :
    Ledger queue (uses.set index new) log count := by
  refine ⟨h.once, h.accepted, fun ticket => ?_, fun ticket => ?_⟩
  · have hstarted := h.started ticket
    have hset := tally_set (holds ticket) huse new
    rw [hholds] at hset
    omega
  · have hended := h.ended ticket
    have hset := tally_set (runs ticket) huse new
    rw [hruns] at hset
    omega

/-- Phases between which a thread neither takes, starts nor ends a command. -/
def FontPhase.vacant : FontPhase → Bool
  | .holding _ | .running _ => false
  | .entering _ | .popping | .settling _ _ | .advancing | .inline | .failing | .left => true

theorem holds_of_vacant {use : SessionUse} (h : use.phase.vacant = true) (ticket : Nat) :
    holds ticket use = 0 :=
  holds_eq_zero (fun command hphase => by rw [hphase] at h; cases h) ticket

theorem runs_of_vacant {use : SessionUse} (h : use.phase.vacant = true) (ticket : Nat) :
    runs ticket use = 0 :=
  runs_eq_zero (fun command hphase => by rw [hphase] at h; cases h) ticket

theorem Ledger.vacant (h : Ledger queue uses log count) {index : Nat} {old new : SessionUse}
    (huse : uses[index]? = some old) (hold : old.phase.vacant = true)
    (hnew : new.phase.vacant = true) : Ledger queue (uses.set index new) log count :=
  h.moved huse (fun ticket => (holds_of_vacant hnew ticket).trans (holds_of_vacant hold ticket).symm)
    fun ticket => (runs_of_vacant hnew ticket).trans (runs_of_vacant hold ticket).symm

theorem Ledger.entered (h : Ledger queue uses log count) {use : SessionUse}
    (hnew : use.phase.vacant = true) : Ledger queue (uses ++ [use]) log count := by
  refine ⟨h.once, h.accepted, fun ticket => ?_, fun ticket => ?_⟩
  · rw [tally_append, tally_cons, tally_nil, holds_of_vacant hnew]
    exact h.started ticket
  · rw [tally_append, tally_cons, tally_nil, runs_of_vacant hnew]
    exact h.ended ticket

theorem Ledger.called (h : Ledger queue uses log count) : Ledger queue uses log (count + 1) := by
  refine ⟨h.once, fun ticket => ?_, h.started, h.ended⟩
  have haccepted := h.accepted ticket
  split at haccepted <;> split <;> omega

theorem Ledger.pushed (h : Ledger queue uses log count) {command : PendingFontCommand}
    (hticket : command.ticket = count) :
    Ledger (queue ++ [command]) uses (.accepted command :: log) (count + 1) := by
  refine ⟨fun ticket => ?_, fun ticket => ?_, fun ticket => ?_, fun ticket => ?_⟩
  · have honce := h.once ticket
    simp only [tally_append, tally_cons, tally_nil, takes, cancels, accepts]
    omega
  · have haccepted := h.accepted ticket
    simp only [tally_cons, accepts, waits, hticket]
    split at haccepted <;> split <;> split <;> omega
  · simp only [tally_cons, takes, starts, Nat.zero_add]
    exact h.started ticket
  · simp only [tally_cons, starts, completes, panics, Nat.zero_add]
    exact h.ended ticket

theorem Ledger.canceled (h : Ledger queue uses log count) {rest commands : List PendingFontCommand}
    (hsplit : ∀ ticket, tally (waits ticket) queue =
      tally (waits ticket) commands + tally (waits ticket) rest) :
    Ledger rest uses (.canceled commands :: log) count :=
  h.next (fun ticket => (Nat.add_comm ..).trans (hsplit ticket).symm) (fun _ => rfl)
    (fun _ => rfl) fun _ => rfl

variable {index : Nat} {use : SessionUse} {command : PendingFontCommand}

theorem Ledger.taken (h : Ledger (command :: queue) uses log count)
    (huse : uses[index]? = some use) (hphase : use.phase = .popping) :
    Ledger queue (uses.set index { use with phase := .holding command }) (.taken command :: log)
      count := by
  refine h.next (fun ticket => ?_) (fun _ => rfl) (fun ticket => ?_) fun ticket => ?_
  · rw [tally_cons, Nat.add_comm (waits ticket command)]
    rfl
  · have hset := tally_set (holds ticket) huse { use with phase := .holding command }
    rw [holds_eq_zero (by simp [hphase]), holds_of_phase rfl] at hset
    simp only [takes, starts]
    omega
  · have hset := tally_set (runs ticket) huse { use with phase := .holding command }
    rw [runs_eq_zero (by simp [hphase]), runs_eq_zero (by simp)] at hset
    simp only [starts, completes, panics]
    omega

theorem Ledger.ran (h : Ledger queue uses log count) (huse : uses[index]? = some use)
    (hphase : use.phase = .holding command) :
    Ledger queue (uses.set index { use with phase := .running command }) (.started command :: log)
      count := by
  refine h.next (fun ticket => rfl) (fun _ => rfl) (fun ticket => ?_) fun ticket => ?_
  · have hset := tally_set (holds ticket) huse { use with phase := .running command }
    rw [holds_of_phase hphase, holds_eq_zero (by simp)] at hset
    simp only [takes, starts]
    omega
  · have hset := tally_set (runs ticket) huse { use with phase := .running command }
    rw [runs_eq_zero (by simp [hphase]), runs_of_phase rfl] at hset
    simp only [starts, completes, panics]
    omega

theorem Ledger.stopped (h : Ledger queue uses log count) (huse : uses[index]? = some use)
    (hphase : use.phase = .running command) {new : FontPhase} (hnew : new.vacant = true)
    {event : FontEvent V} (hevent : (∃ value, event = .completed command.ticket value) ∨
      event = .panicked command.ticket) :
    Ledger queue (uses.set index { use with phase := new }) (event :: log) count := by
  have hholds (ticket : Nat) : holds ticket { use with phase := new } = 0 := holds_of_vacant hnew _
  have hruns (ticket : Nat) : runs ticket { use with phase := new } = 0 := runs_of_vacant hnew _
  refine h.next (fun ticket => ?_) (fun ticket => ?_) (fun ticket => ?_) fun ticket => ?_
  · rcases hevent with ⟨value, rfl⟩ | rfl <;> rfl
  · rcases hevent with ⟨value, rfl⟩ | rfl <;> rfl
  · have hset := tally_set (holds ticket) huse { use with phase := new }
    rw [hholds, holds_eq_zero (by simp [hphase])] at hset
    rcases hevent with ⟨value, rfl⟩ | rfl <;> exact hset.symm
  · have hset := tally_set (runs ticket) huse { use with phase := new }
    rw [hruns, runs_of_phase hphase] at hset
    have hone : completes ticket event + panics ticket event = waits ticket command := by
      rcases hevent with ⟨value, rfl⟩ | rfl
      · rfl
      · exact Nat.zero_add _
    have hzero : starts ticket event = 0 := by rcases hevent with ⟨value, rfl⟩ | rfl <;> rfl
    omega

theorem Ledger.of_canceled (h : Ledger queue uses log count) {ticket : Nat}
    (hcanceled : tally (cancels ticket) log ≠ 0) :
    tally (waits ticket) queue = 0 ∧ tally (takes ticket) log = 0 := by
  have honce := h.once ticket
  have haccepted := h.accepted ticket
  split at haccepted <;> omega

theorem Ledger.fresh (h : Ledger queue uses log count) {ticket : Nat} (hticket : count ≤ ticket)
    (value : V) : .completed ticket value ∉ log := by
  intro hmem
  have hle := le_tally (f := completes ticket) hmem
  have hone : completes ticket (.completed ticket value) = 1 := if_pos rfl
  have honce := h.once ticket
  have haccepted := h.accepted ticket
  have hstarted := h.started ticket
  have hended := h.ended ticket
  rw [if_neg (Nat.not_lt.mpr hticket)] at haccepted
  omega

end Events

namespace FontWorld

variable {V : Type}

structure Seen (ticket : Nat) (call : FontCall V) (log : List (FontEvent V)) : Prop where
  slot : ∀ value, call.slot = some value → .completed ticket value ∈ log
  kept : ∀ value, .completed ticket value ∈ log → call.phase ≠ .returned → call.slot.isSome = true
  completed : call.ticket = .completed → ∃ value, .completed ticket value ∈ log
  canceled : call.ticket = .canceled → tally (cancels ticket) log ≠ 0

def Due (ticket : Nat) (log : List (FontEvent V)) : FontTicketState → Prop
  | .queued => False
  | .completed => ∃ value, .completed ticket value ∈ log
  | .canceled => tally (cancels ticket) log ≠ 0

structure Tickets (calls : List (FontCall V)) (uses : List SessionUse)
    (retirements : List Retirement) (log : List (FontEvent V)) : Prop where
  calls : ∀ ticket call, calls[ticket]? = some call → Seen ticket call log
  settling : ∀ use ∈ uses, ∀ command state, use.phase = .settling command state →
    Due command.ticket log state
  retiring : ∀ retirement ∈ retirements, ∀ commands, retirement.phase = .canceling commands →
    ∀ command ∈ commands, Due command.ticket log .canceled

/-- The command of a call that failed is not in the queue and was not taken. -/
structure Results (queue : List PendingFontCommand) (count : Nat) (log : List (FontEvent V)) :
    Prop where
  ok : ∀ ticket value, .returned ticket (.ok value) ∈ log → .completed ticket value ∈ log
  error : ∀ ticket error, .returned ticket (.error error) ∈ log → ticket < count ∧
    tally (waits ticket) queue = 0 ∧ tally (takes ticket) log = 0

section Steps

variable {world next : FontWorld V} {action : FontAction V}

theorem ledger_move (h : Ledger world.state.queue world.uses world.log world.calls.length)
    (hmove : Move world action next) :
    Ledger next.state.queue next.uses next.log next.calls.length := by
  cases hmove with
  | same => exact h
  | attached | stopped => exact h.logged rfl
  | detached _ lease =>
    have hqueue : (world.state.detach lease.attachmentId).queue = world.state.queue := by
      unfold FontCoordinatorState.detach
      split <;> rfl
    dsimp only
    rw [hqueue]
    exact h.logged rfl
  | emptied => exact h.canceled fun _ => rfl
  | canceledNext =>
    unfold settleTicket
    rw [List.length_modify]
    exact h
  | retired =>
    unfold takeSession
    split <;> exact h
  | entered => exact h.entered rfl
  | borrowed _ _ _ huse hphase =>
    refine h.vacant huse (by rw [hphase]; rfl) ?_
    dsimp only
    unfold borrowed
    split
    · rfl
    · split
      · rfl
      · split
        · split <;> rfl
        · rfl
  | emptyQueue _ _ huse hphase => exact h.vacant huse (by rw [hphase]; rfl) rfl
  | taken _ _ _ _ _ huse hphase hqueue =>
    rw [hqueue] at h
    exact h.taken huse hphase
  | rejected _ _ _ _ _ huse hphase hqueue =>
    rw [hqueue] at h
    exact (h.canceled fun _ => rfl).vacant huse (by rw [hphase]; rfl) rfl
  | started _ _ _ huse hphase => exact h.ran huse hphase
  | finished _ _ _ value huse hphase =>
    rw [List.length_modify]
    exact h.stopped huse hphase rfl (Or.inl ⟨value, rfl⟩)
  | commandPanicked _ _ _ huse hphase => exact h.stopped huse hphase rfl (Or.inr rfl)
  | ended _ _ _ huse hold hnew =>
    refine h.vacant huse ?_ ?_
    · rcases hold with hold | hold <;> rw [hold] <;> rfl
    · rcases hnew with rfl | rfl <;> rfl
  | settled _ _ _ _ huse hphase =>
    unfold settleTicket
    rw [List.length_modify]
    exact h.vacant huse (by rw [hphase]; rfl) rfl
  | failed _ _ _ huse hold =>
    refine h.vacant huse ?_ rfl
    rcases hold with hold | hold <;> rw [hold] <;> rfl
  | refused =>
    rw [List.length_append]
    exact h.called.logged rfl
  | accepted =>
    rw [List.length_append]
    exact h.pushed rfl
  | completed | unfilled | stale | timedOut =>
    unfold returning
    rw [List.length_set]
    exact h.logged rfl
  | expired =>
    rw [List.length_set]
    exact h.logged rfl
  | withdrawn _ _ _ _ _ hfind =>
    rw [List.length_set]
    refine Ledger.logged (h.canceled fun other => ?_) rfl
    rw [tally_cons, tally_nil, Nat.add_zero]
    exact tally_eraseP _ hfind

end Steps

section Tickets

variable {calls : List (FontCall V)} {uses : List SessionUse} {retirements : List Retirement}
  {log : List (FontEvent V)} {ticket : Nat}

theorem cancels_cons {event : FontEvent V} (h : tally (cancels ticket) log ≠ 0) :
    tally (cancels ticket) (event :: log) ≠ 0 := by
  rw [tally_cons]
  omega

theorem Due.cons {state : FontTicketState} (h : Due ticket log state) (event : FontEvent V) :
    Due ticket (event :: log) state := by
  cases state with
  | queued => exact h
  | completed =>
    obtain ⟨value, hmem⟩ := h
    exact ⟨value, List.mem_cons_of_mem _ hmem⟩
  | canceled => exact cancels_cons h

theorem Seen.cons {call : FontCall V} (h : Seen ticket call log) {event : FontEvent V}
    (hevent : ∀ value, event ≠ .completed ticket value) : Seen ticket call (event :: log) := by
  refine ⟨fun value hslot => List.mem_cons_of_mem _ (h.slot value hslot), fun value hmem => ?_,
    fun hcompleted => ?_, fun hcanceled => cancels_cons (h.canceled hcanceled)⟩
  · rcases List.mem_cons.mp hmem with heq | hold
    · exact absurd heq.symm (hevent value)
    · exact h.kept value hold
  · obtain ⟨value, hmem⟩ := h.completed hcompleted
    exact ⟨value, List.mem_cons_of_mem _ hmem⟩

theorem Tickets.logged (h : Tickets calls uses retirements log) {event : FontEvent V}
    (hevent : ∀ other value, event ≠ .completed other value) :
    Tickets calls uses retirements (event :: log) where
  calls other call hcall := (h.calls other call hcall).cons (hevent other)
  settling use huse command state hphase := (h.settling use huse command state hphase).cons event
  retiring retirement hmem commands hphase command hcommand :=
    (h.retiring retirement hmem commands hphase command hcommand).cons event

theorem Tickets.used (h : Tickets calls uses retirements log) {index : Nat} {new : SessionUse}
    (hnew : ∀ command state, new.phase = .settling command state → Due command.ticket log state) :
    Tickets calls (uses.set index new) retirements log := by
  refine ⟨h.calls, fun use hmem => ?_, h.retiring⟩
  rcases List.mem_or_eq_of_mem_set hmem with hold | rfl
  · exact h.settling use hold
  · exact hnew

theorem Tickets.entered (h : Tickets calls uses retirements log) {new : SessionUse}
    (hnew : ∀ command state, new.phase ≠ .settling command state) :
    Tickets calls (uses ++ [new]) retirements log := by
  refine ⟨h.calls, fun use hmem => ?_, h.retiring⟩
  rcases List.mem_append.mp hmem with hold | heq
  · exact h.settling use hold
  · cases List.mem_singleton.mp heq
    exact fun command state hphase => absurd hphase (hnew command state)

theorem Tickets.retired (h : Tickets calls uses retirements log) {others : List Retirement}
    (hothers : ∀ retirement ∈ others, retirement ∈ retirements ∨ ∀ commands,
      retirement.phase = .canceling commands → ∀ command ∈ commands,
        Due command.ticket log .canceled) : Tickets calls uses others log := by
  refine ⟨h.calls, h.settling, fun retirement hmem => ?_⟩
  rcases hothers retirement hmem with hold | hnew
  · exact h.retiring retirement hold
  · exact hnew

theorem Tickets.retirementSet (h : Tickets calls uses retirements log) {index : Nat}
    {new : Retirement} (hnew : ∀ commands, new.phase = .canceling commands →
      ∀ command ∈ commands, Due command.ticket log .canceled) :
    Tickets calls uses (retirements.set index new) log := by
  refine h.retired fun retirement hmem => ?_
  rcases List.mem_or_eq_of_mem_set hmem with hold | rfl
  · exact Or.inl hold
  · exact Or.inr hnew

theorem Tickets.retirementAdded (h : Tickets calls uses retirements log) {new : Retirement}
    (hnew : new.phase = .emptying) : Tickets calls uses (retirements ++ [new]) log := by
  refine h.retired fun retirement hmem => ?_
  rcases List.mem_append.mp hmem with hold | heq
  · exact Or.inl hold
  · cases List.mem_singleton.mp heq
    refine Or.inr fun commands hphase => ?_
    rw [hnew] at hphase
    cases hphase

theorem Tickets.callSet (h : Tickets calls uses retirements log) {new : FontCall V}
    (hnew : Seen ticket new log) : Tickets (calls.set ticket new) uses retirements log := by
  refine ⟨fun other call hcall => ?_, h.settling, h.retiring⟩
  by_cases hsame : ticket = other
  · subst hsame
    obtain ⟨_, heq⟩ := List.getElem?_eq_some_iff.mp hcall
    rw [List.getElem_set_self] at heq
    rw [← heq]
    exact hnew
  · rw [List.getElem?_set_ne hsame] at hcall
    exact h.calls other call hcall

theorem Tickets.callAdded (h : Tickets calls uses retirements log) {new : FontCall V}
    (hnew : Seen calls.length new log) : Tickets (calls ++ [new]) uses retirements log := by
  refine ⟨fun other call hcall => ?_, h.settling, h.retiring⟩
  rw [List.getElem?_append] at hcall
  split at hcall
  next => exact h.calls other call hcall
  next =>
    rw [List.getElem?_singleton] at hcall
    split at hcall
    next =>
      cases hcall
      have hother : other = calls.length := by omega
      rw [hother]
      exact hnew
    next => cases hcall

theorem Tickets.settled (h : Tickets calls uses retirements log) {state : FontTicketState}
    (hdue : Due ticket log state) :
    Tickets (calls.modify ticket fun call => { call with ticket := state }) uses retirements log := by
  refine ⟨fun other call hcall => ?_, h.settling, h.retiring⟩
  rw [List.getElem?_modify] at hcall
  obtain ⟨old, hold, rfl⟩ := Option.map_eq_some_iff.mp hcall
  have hseen := h.calls other old hold
  split
  next hsame =>
    subst hsame
    refine ⟨hseen.slot, hseen.kept, fun heq => ?_, fun heq => ?_⟩
    · cases heq
      exact hdue
    · cases heq
      exact hdue
  next => exact hseen

theorem Tickets.filled (h : Tickets calls uses retirements log) (value : V) :
    Tickets (calls.modify ticket fun call => { call with slot := some value }) uses retirements
      (.completed ticket value :: log) := by
  refine ⟨fun other call hcall => ?_,
    fun use huse command state hphase => (h.settling use huse command state hphase).cons _,
    fun retirement hmem commands hphase command hcommand =>
      (h.retiring retirement hmem commands hphase command hcommand).cons _⟩
  rw [List.getElem?_modify] at hcall
  obtain ⟨old, hold, rfl⟩ := Option.map_eq_some_iff.mp hcall
  have hseen := h.calls other old hold
  split
  next hsame =>
    subst hsame
    refine ⟨fun _ hslot => ?_, fun _ _ _ => rfl, fun _ => ⟨value, List.mem_cons_self⟩,
      fun heq => cancels_cons (hseen.canceled heq)⟩
    cases hslot
    exact List.mem_cons_self
  next hother =>
    refine hseen.cons fun _ heq => hother ?_
    cases heq
    rfl

variable {world next : FontWorld V} {action : FontAction V}

theorem Tickets.move (h : Tickets world.calls world.uses world.retirements world.log)
    (hledger : Ledger world.state.queue world.uses world.log world.calls.length)
    (hmove : Move world action next) :
    Tickets next.calls next.uses next.retirements next.log := by
  have hnew {phase : CallPhase} : Seen world.calls.length ⟨phase, .queued, none⟩ world.log :=
    ⟨nofun, fun value hmem => absurd hmem (hledger.fresh (Nat.le_refl _) value), nofun, nofun⟩
  -- a call that goes on keeps its ticket and its slot, or returns
  have hreturned {ticket : Nat} {call : FontCall V} (hcall : world.calls[ticket]? = some call) :
      Seen ticket { call with phase := .returned } world.log :=
    have hseen := h.calls ticket call hcall
    ⟨hseen.slot, fun _ _ hne => absurd rfl hne, hseen.completed, hseen.canceled⟩
  cases hmove with
  | same => exact h
  | attached => exact h.logged nofun
  | detached | stopped =>
    exact (h.retirementAdded rfl).logged nofun
  | emptied _ _ _ _ hphase =>
    have hlogged : Tickets world.calls world.uses world.retirements
        (.canceled world.state.queue :: world.log) := h.logged nofun
    refine hlogged.retirementSet fun commands hphase command hmem => ?_
    cases hphase
    have hle := le_tally (f := waits command.ticket) hmem
    rw [waits_self] at hle
    unfold Due
    simp only [tally_cons, cancels]
    omega
  | canceledNext _ retirement command _ hretirement hphase =>
    have hdue := h.retiring retirement (List.mem_of_getElem? hretirement) _ hphase
    refine (h.settled (hdue command List.mem_cons_self)).retirementSet fun commands heq other hmem => ?_
    cases heq
    exact hdue other (List.mem_cons_of_mem _ hmem)
  | retired =>
    unfold takeSession
    split <;> exact h.retirementSet nofun
  | entered => exact h.entered nofun
  | borrowed =>
    refine h.used fun command state heq => ?_
    dsimp only at heq
    unfold borrowed at heq
    split at heq
    · cases heq
    · split at heq
      · cases heq
      · split at heq
        · split at heq <;> cases heq
        · cases heq
  | emptyQueue | failed => exact h.used nofun
  | taken | started | commandPanicked =>
    exact (h.used (by simp)).logged (by simp)
  | rejected _ _ command =>
    have hlogged : Tickets world.calls world.uses world.retirements
        (.canceled [command] :: world.log) := h.logged nofun
    refine hlogged.used fun other state heq => ?_
    cases heq
    unfold Due
    simp only [tally_cons, cancels, waits_self]
    omega
  | finished _ _ _ value =>
    refine (h.filled value).used fun other state heq => ?_
    cases heq
    exact ⟨value, List.mem_cons_self⟩
  | ended _ _ _ _ _ hnew =>
    refine h.used fun command state heq => ?_
    rcases hnew with rfl | rfl <;> cases heq
  | settled _ use command state huse hphase =>
    have hdue := h.settling use (List.mem_of_getElem? huse) command state hphase
    exact (h.settled hdue).used nofun
  | refused | accepted =>
    exact (h.callAdded hnew).logged nofun
  | completed ticket _ hcall =>
    have hseen := h.calls ticket _ hcall
    have hdone : Seen ticket ⟨.returned, .completed, none⟩ world.log :=
      ⟨nofun, fun _ _ hne => absurd rfl hne, fun _ => hseen.completed rfl, nofun⟩
    exact (h.callSet hdone).logged nofun
  | unfilled _ hcall | stale _ _ hcall | timedOut _ _ _ _ hcall =>
    exact (h.callSet (hreturned hcall)).logged nofun
  | expired ticket slot hcall =>
    have hseen := h.calls ticket _ hcall
    have hgaveUp : Seen ticket ⟨.gaveUp, .queued, slot⟩ world.log :=
      ⟨hseen.slot, fun value hmem _ => hseen.kept value hmem nofun, nofun, nofun⟩
    exact (h.callSet hgaveUp).logged nofun
  | withdrawn ticket _ slot command hcall hfind =>
    have hlogged : Tickets world.calls world.uses world.retirements
        (.canceled [command] :: world.log) := h.logged nofun
    have hseen := hlogged.calls ticket _ hcall
    have hticket : command.ticket = ticket := by simpa using List.find?_some hfind
    have hwithdrawn : Seen ticket ⟨.returned, .canceled, slot⟩ (.canceled [command] :: world.log) := by
      refine ⟨hseen.slot, fun _ _ hne => absurd rfl hne, nofun, fun _ => ?_⟩
      simp only [tally_cons, cancels, ← hticket, waits_self]
      omega
    exact (hlogged.callSet hwithdrawn).logged nofun

end Tickets

/-- A call that looks for its command at its deadline: no render thread has taken it. -/
def WithdrawsInTime (world : FontWorld V) (action : FontAction V) : Prop :=
  ∀ ticket, action = .withdraw ticket → ∀ command, .taken command ∈ world.log →
    command.ticket ≠ ticket

section Results

variable {queue : List PendingFontCommand} {log : List (FontEvent V)} {count : Nat}

theorem Results.logged (h : Results queue count log) {event : FontEvent V}
    (hreturned : ∀ ticket result, event ≠ .returned ticket result)
    (htaken : ∀ command, event ≠ .taken command) : Results queue count (event :: log) := by
  refine ⟨fun ticket value hmem => ?_, fun ticket error hmem => ?_⟩
  · rcases List.mem_cons.mp hmem with heq | hold
    · exact absurd heq.symm (hreturned ticket _)
    · exact List.mem_cons_of_mem _ (h.ok ticket value hold)
  · rcases List.mem_cons.mp hmem with heq | hold
    · exact absurd heq.symm (hreturned ticket _)
    · obtain ⟨hticket, hwaits, htakes⟩ := h.error ticket error hold
      refine ⟨hticket, hwaits, ?_⟩
      have hzero : takes ticket event = 0 := by
        cases event with
        | taken command => exact absurd rfl (htaken command)
        | attached | detached | stopped | accepted | gaveUp | started | completed | panicked
        | canceled | returned => rfl
      rw [tally_cons, hzero, htakes]

theorem tally_takes_returned (ticket other : Nat) (result : Except RuntimeFontBridgeError V) :
    tally (takes ticket) (.returned other result :: log) = tally (takes ticket) log :=
  Nat.zero_add _

theorem Results.returnedOk (h : Results queue count log) {ticket : Nat} {value : V}
    (hcompleted : .completed ticket value ∈ log) :
    Results queue count (.returned ticket (.ok value) :: log) := by
  refine ⟨fun other found hmem => ?_, fun other error hmem => ?_⟩
  · rcases List.mem_cons.mp hmem with heq | hold
    · cases heq
      exact List.mem_cons_of_mem _ hcompleted
    · exact List.mem_cons_of_mem _ (h.ok other found hold)
  · rcases List.mem_cons.mp hmem with heq | hold
    · cases heq
    · rw [tally_takes_returned]
      exact h.error other error hold

theorem Results.returnedError (h : Results queue count log) {ticket : Nat}
    {error : RuntimeFontBridgeError} (hticket : ticket < count)
    (hwaits : tally (waits ticket) queue = 0) (htakes : tally (takes ticket) log = 0) :
    Results queue count (.returned ticket (.error error) :: log) := by
  refine ⟨fun other found hmem => ?_, fun other failure hmem => ?_⟩
  · rcases List.mem_cons.mp hmem with heq | hold
    · cases heq
    · exact List.mem_cons_of_mem _ (h.ok other found hold)
  · rcases List.mem_cons.mp hmem with heq | hold
    · cases heq
      rw [tally_takes_returned]
      exact ⟨hticket, hwaits, htakes⟩
    · rw [tally_takes_returned]
      exact h.error other failure hold

theorem Results.shrunk (h : Results queue count log) {rest : List PendingFontCommand}
    (hle : ∀ ticket, tally (waits ticket) rest ≤ tally (waits ticket) queue) :
    Results rest count log := by
  refine ⟨h.ok, fun ticket error hmem => ?_⟩
  obtain ⟨hticket, _, htakes⟩ := h.error ticket error hmem
  have hrest := hle ticket
  exact ⟨hticket, by omega, htakes⟩

theorem Results.called (h : Results queue count log) : Results queue (count + 1) log := by
  refine ⟨h.ok, fun ticket error hmem => ?_⟩
  obtain ⟨hticket, hfailed⟩ := h.error ticket error hmem
  exact ⟨Nat.lt_succ_of_lt hticket, hfailed⟩

theorem Results.pushed (h : Results queue count log) {command : PendingFontCommand}
    (hticket : command.ticket = count) : Results (queue ++ [command]) (count + 1) log := by
  refine ⟨h.ok, fun ticket error hmem => ?_⟩
  obtain ⟨hlt, hwaits, htakes⟩ := h.error ticket error hmem
  have hne : waits ticket command = 0 := if_neg (by omega)
  refine ⟨Nat.lt_succ_of_lt hlt, ?_, htakes⟩
  rw [tally_append, tally_cons, tally_nil, hwaits, hne]

theorem Results.taken {command : PendingFontCommand} (h : Results (command :: queue) count log) :
    Results queue count (.taken command :: log) := by
  refine ⟨fun ticket value hmem => ?_, fun ticket error hmem => ?_⟩
  · rcases List.mem_cons.mp hmem with heq | hold
    · cases heq
    · exact List.mem_cons_of_mem _ (h.ok ticket value hold)
  · rcases List.mem_cons.mp hmem with heq | hold
    · cases heq
    · obtain ⟨hticket, hwaits, _⟩ := h.error ticket error hold
      rw [tally_cons] at hwaits
      refine ⟨hticket, by omega, ?_⟩
      simp only [tally_cons, takes]
      omega

theorem tally_waits_of_find? {ticket : Nat} (h : queue.find? (·.ticket = ticket) = none) :
    tally (waits ticket) queue = 0 := by
  refine tally_eq_zero fun command hmem => if_neg fun heq => ?_
  have hnone := List.find?_eq_none.mp h command hmem
  exact hnone (decide_eq_true heq)

variable {world next : FontWorld V} {action : FontAction V}

theorem Results.move (h : Results world.state.queue world.calls.length world.log)
    (hledger : Ledger world.state.queue world.uses world.log world.calls.length)
    (htickets : Tickets world.calls world.uses world.retirements world.log)
    (hcondition : WithdrawsInTime world action) (hmove : Move world action next) :
    Results next.state.queue next.calls.length next.log := by
  have hknown {ticket : Nat} {call : FontCall V} (hcall : world.calls[ticket]? = some call) :
      ticket < world.calls.length := (List.getElem?_eq_some_iff.mp hcall).1
  cases hmove with
  | same | entered | borrowed | emptyQueue | ended | failed => exact h
  | attached | stopped | started | commandPanicked =>
    exact h.logged nofun nofun
  | detached _ lease =>
    have hqueue : (world.state.detach lease.attachmentId).queue = world.state.queue := by
      unfold FontCoordinatorState.detach
      split <;> rfl
    dsimp only
    rw [hqueue]
    exact h.logged nofun nofun
  | emptied =>
    have hempty : Results [] world.calls.length world.log := h.shrunk fun _ => Nat.zero_le _
    exact hempty.logged nofun nofun
  | canceledNext | settled =>
    unfold settleTicket
    rw [List.length_modify]
    exact h
  | retired =>
    unfold takeSession
    split <;> exact h
  | taken _ _ _ _ _ _ _ hqueue =>
    rw [hqueue] at h
    exact h.taken
  | rejected _ _ _ queue _ _ _ hqueue =>
    have hrest : Results queue world.calls.length world.log := h.shrunk fun ticket => by
      rw [hqueue, tally_cons]
      exact Nat.le_add_left ..
    exact hrest.logged nofun nofun
  | finished =>
    rw [List.length_modify]
    exact h.logged nofun nofun
  | refused =>
    have honce := hledger.once world.calls.length
    have haccepted := hledger.accepted world.calls.length
    rw [if_neg (Nat.lt_irrefl _)] at haccepted
    rw [List.length_append]
    exact h.called.returnedError (Nat.lt_succ_self _) (by omega) (by omega)
  | accepted retainedBytes _ active =>
    rw [List.length_append]
    have hpushed : Results (world.state.queue ++
        [⟨active.attachmentId, retainedBytes, world.calls.length⟩]) (world.calls.length + 1)
        world.log := h.pushed rfl
    exact hpushed.logged nofun nofun
  | completed ticket value hcall =>
    unfold returning
    rw [List.length_set]
    exact h.returnedOk ((htickets.calls ticket _ hcall).slot value rfl)
  | unfilled ticket hcall =>
    -- the render thread fills the slot before it settles the ticket
    have hseen := htickets.calls ticket _ hcall
    obtain ⟨value, hmem⟩ := hseen.completed rfl
    cases hseen.kept value hmem nofun
  | stale ticket _ hcall =>
    unfold returning
    rw [List.length_set]
    obtain ⟨hwaits, htakes⟩ := hledger.of_canceled ((htickets.calls ticket _ hcall).canceled rfl)
    exact h.returnedError (hknown hcall) hwaits htakes
  | expired =>
    rw [List.length_set]
    exact h.logged nofun nofun
  | timedOut ticket _ _ haction hcall hfind =>
    unfold returning
    rw [List.length_set]
    refine h.returnedError (hknown hcall) (tally_waits_of_find? hfind) ?_
    refine tally_eq_zero fun event hmem => ?_
    cases event with
    | taken command => exact if_neg (hcondition ticket haction command hmem)
    | attached | detached | stopped | accepted | gaveUp | started | completed | panicked
    | canceled | returned => rfl
  | withdrawn ticket _ _ command hcall hfind =>
    rw [List.length_set]
    have hticket : command.ticket = ticket := by simpa using List.find?_some hfind
    have hsplit (other : Nat) := tally_eraseP (waits other) hfind
    have hrest : Results (world.state.queue.eraseP (·.ticket = ticket)) world.calls.length
        (.canceled [command] :: world.log) := by
      refine Results.logged (h.shrunk fun other => ?_) nofun nofun
      have hle := hsplit other
      omega
    have hledger' : Ledger (world.state.queue.eraseP (·.ticket = ticket)) world.uses
        (.canceled [command] :: world.log) world.calls.length :=
      hledger.canceled fun other => by
        rw [tally_cons, tally_nil, Nat.add_zero]
        exact hsplit other
    have hcanceled : tally (cancels ticket) (.canceled [command] :: world.log) ≠ 0 := by
      simp only [tally_cons, cancels, ← hticket, waits_self]
      omega
    obtain ⟨hwaits, htakes⟩ := hledger'.of_canceled hcanceled
    exact hrest.returnedError (hknown hcall) hwaits htakes

structure Sound (world : FontWorld V) : Prop where
  ledger : Ledger world.state.queue world.uses world.log world.calls.length
  tickets : Tickets world.calls world.uses world.retirements world.log

theorem sound_start : Sound (start : FontWorld V) :=
  ⟨⟨fun _ => rfl, fun _ => Nat.zero_le _, fun _ => rfl, fun _ => rfl⟩, ⟨nofun, nofun, nofun⟩⟩

theorem Sound.move (h : Sound world) (hmove : Move world action next) : Sound next :=
  ⟨ledger_move h.ledger hmove, h.tickets.move h.ledger hmove⟩

/-- Where no call looks for its command after a render thread took it, a result tells what became of
the operation: it ran once to its end and returned the value, or it does not run. -/
theorem commands_run_once_or_not {actions : List (FontAction V)}
    (hevery : StepRuns.EveryStep step WithdrawsInTime start actions) {world : FontWorld V}
    (h : StepRuns.runSteps step start actions = some world) :
    (∀ ticket value, .returned ticket (.ok value) ∈ world.log →
      .completed ticket value ∈ world.log ∧ tally (starts ticket) world.log = 1 ∧
        tally (completes ticket) world.log = 1) ∧
    ∀ ticket error, .returned ticket (.error error) ∈ world.log →
      tally (takes ticket) world.log = 0 ∧ tally (starts ticket) world.log = 0 ∧
        tally (waits ticket) world.state.queue = 0 := by
  have hsound : Sound world ∧ Results world.state.queue world.calls.length world.log := by
    have hstart : Sound (start : FontWorld V) ∧ Results [] 0 ([] : List (FontEvent V)) :=
      ⟨sound_start, nofun, nofun⟩
    refine StepRuns.EveryStep.invariant (Q := fun world : FontWorld V => Sound world ∧
      Results world.state.queue world.calls.length world.log) ?_ hevery h hstart
    intro world action next hstep hcondition hinv
    have hmove := step_move hstep
    exact ⟨hinv.1.move hmove, hinv.2.move hinv.1.ledger hinv.1.tickets hcondition hmove⟩
  obtain ⟨⟨hledger, _⟩, hresults⟩ := hsound
  refine ⟨fun ticket value hmem => ?_, fun ticket error hmem => ?_⟩
  · have hcompleted := hresults.ok ticket value hmem
    have hle := le_tally (f := completes ticket) hcompleted
    have hone : completes ticket (.completed ticket value) = 1 := if_pos rfl
    have honce := hledger.once ticket
    have haccepted := hledger.accepted ticket
    have hstarted := hledger.started ticket
    have hended := hledger.ended ticket
    refine ⟨hcompleted, ?_, ?_⟩
    · split at haccepted <;> omega
    · split at haccepted <;> omega
  · obtain ⟨_, hwaits, htakes⟩ := hresults.error ticket error hmem
    have hstarted := hledger.started ticket
    exact ⟨htakes, by omega, hwaits⟩

def timelyRun : List (FontAction Nat) :=
  [.attach 1 7, .enqueue 16 ⟨8, 64⟩, .advance 1 7, .borrow 0, .pop 0, .run 0, .finish 0 42,
    .settle 0, .wake 0, .enqueue 16 ⟨8, 64⟩, .expire 1]

theorem timelyRun_results : ∃ world,
    StepRuns.runSteps step start (timelyRun ++ [.withdraw 1]) = some world ∧
      .completed 0 42 ∈ world.log ∧ tally (starts 0) world.log = 1 ∧
      tally (starts 1) world.log = 0 := by
  obtain ⟨middle, hmiddle⟩ := Option.isSome_iff_exists.mp
    (rfl : (StepRuns.runSteps step start timelyRun).isSome = true)
  obtain ⟨world, hrun⟩ := Option.isSome_iff_exists.mp
    (rfl : (StepRuns.runSteps step start (timelyRun ++ [.withdraw 1])).isSome = true)
  have htaken : ∀ command, FontEvent.taken command ∈ middle.log → command.ticket ≠ 1 := by
    have hlog : (StepRuns.runSteps step start timelyRun).map (·.log) =
        some [.gaveUp 1, .accepted ⟨1, 16, 1⟩, .returned 0 (.ok 42), .completed 0 42,
          .started ⟨1, 16, 0⟩, .taken ⟨1, 16, 0⟩, .accepted ⟨1, 16, 0⟩, .attached 1] := rfl
    rw [hmiddle] at hlog
    have hlog : middle.log = _ := Option.some.inj hlog
    intro command hmem
    rw [hlog] at hmem
    simp at hmem
    rw [hmem]
    exact nofun
  have hevery : StepRuns.EveryStep step WithdrawsInTime start (timelyRun ++ [.withdraw 1]) := by
    refine StepRuns.everyStep_append.mpr ⟨?_, fun found hfound => ?_⟩
    · refine StepRuns.everyStep_of_forall fun state action hmem ticket haction => ?_
      rw [haction] at hmem
      simp [timelyRun] at hmem
    · rw [hmiddle] at hfound
      cases hfound
      refine ⟨fun ticket haction => ?_, fun _ _ => trivial⟩
      cases haction
      exact htaken
  obtain ⟨hok, herror⟩ := commands_run_once_or_not hevery hrun
  have hlog : (StepRuns.runSteps step start (timelyRun ++ [.withdraw 1])).map (·.log) =
      some [.returned 1 (.error .timeout), .canceled [⟨1, 16, 1⟩], .gaveUp 1,
        .accepted ⟨1, 16, 1⟩, .returned 0 (.ok 42), .completed 0 42, .started ⟨1, 16, 0⟩,
        .taken ⟨1, 16, 0⟩, .accepted ⟨1, 16, 0⟩, .attached 1] := rfl
  rw [hrun] at hlog
  have hlog : world.log = _ := Option.some.inj hlog
  obtain ⟨hcompleted, hstarts, _⟩ := hok 0 42 (by rw [hlog]; simp)
  obtain ⟨_, hunstarted, _⟩ := herror 1 .timeout (by rw [hlog]; simp)
  exact ⟨world, hrun, hcompleted, hstarts, hunstarted⟩

/-- A call whose deadline passes while the render thread has taken its command. -/
def lateRun : List (FontAction Nat) :=
  [.attach 1 7, .enqueue 16 ⟨8, 64⟩, .advance 1 7, .borrow 0, .pop 0, .expire 0, .withdraw 0, .run 0,
    .finish 0 42]

theorem lateRun_runs_after_timeout :
    ∃ world, StepRuns.runSteps step start lateRun = some world ∧
      .returned 0 (.error .timeout) ∈ world.log ∧ .completed 0 42 ∈ world.log := by
  obtain ⟨world, hrun⟩ := Option.isSome_iff_exists.mp
    (rfl : (StepRuns.runSteps step start lateRun).isSome = true)
  have hlog : (StepRuns.runSteps step start lateRun).map (·.log) =
      some [.completed 0 42, .started ⟨1, 16, 0⟩, .returned 0 (.error .timeout), .gaveUp 0,
        .taken ⟨1, 16, 0⟩, .accepted ⟨1, 16, 0⟩, .attached 1] := rfl
  rw [hrun] at hlog
  have hlog : world.log = _ := Option.some.inj hlog
  exact ⟨world, hrun, by rw [hlog]; simp, by rw [hlog]; simp⟩

end Results

end FontWorld

end Nexus.RuntimeFonts
