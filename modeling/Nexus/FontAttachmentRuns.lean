import Nexus.FontAttachments

namespace Nexus.RuntimeFonts

namespace FontWorld

variable {V : Type}

/-- The attachment was superseded or detached, or the coordinator was stopped. -/
def Gone (attachmentId : Nat) (log : List (FontEvent V)) : Prop :=
  (∃ later, attachmentId < later ∧ .attached later ∈ log) ∨ .detached attachmentId ∈ log ∨
    .stopped ∈ log

/-- A command is only canceled for its own attachment's sake or its own caller's. -/
def Justified (event : FontEvent V) (earlier : List (FontEvent V)) : Prop :=
  ∀ commands, event = .canceled commands → ∀ command ∈ commands,
    Gone command.attachmentId earlier ∨ .gaveUp command.ticket ∈ earlier

/-- The command's attachment is not the active one, or its caller gave up. -/
def Orphaned (world : FontWorld V) (command : PendingFontCommand) : Prop :=
  world.state.active.map ActiveFontSession.attachmentId ≠ some command.attachmentId ∨
    ∃ call, world.calls[command.ticket]? = some call ∧ call.phase = .gaveUp

def NoneTaken (world : FontWorld V) : Prop := ∀ use ∈ world.uses, use.executing = none

/-- A step that meets the commands of its own attachment, while that is active and not failed. -/
def Undisturbed (world : FontWorld V) : FontAction V → Prop
  | .attach thread _ => world.state.stopped = true ∨ world.busy thread = true ∨
      2 ^ 64 ≤ world.state.nextAttachmentId + 1 ∨ NoneTaken world
  | .shutdown _ => NoneTaken world
  | .dropLease lease => ∀ dropped, world.leases[lease]? = some dropped →
      world.state.active.map ActiveFontSession.attachmentId = some dropped.attachmentId →
        NoneTaken world
  | .pop index => ∀ use command rest, world.uses[index]? = some use →
      world.state.queue = command :: rest →
        if command.attachmentId = use.attachmentId then
          world.state.active.map ActiveFontSession.attachmentId = some use.attachmentId ∧
            (world.sessions use.thread).any FontSession.failed = false
        else Orphaned world command
  | .retire index => ∀ retirement, world.retirements[index]? = some retirement →
      retirement.phase = .emptying → ∀ command ∈ world.state.queue, Orphaned world command
  | .enqueue retainedBytes limits => limits.bytes < 2 ^ 64 - 1 ∨
      world.state.queuedBytes + retainedBytes ≤ 2 ^ 64 - 1
  | _ => True

/-- The commands that threads took are those of the active attachment. -/
def Served (world : FontWorld V) : Prop :=
  ∀ use ∈ world.uses, ∀ command, use.executing = some command →
    command.attachmentId = use.attachmentId ∧
      world.state.active.map ActiveFontSession.attachmentId = some use.attachmentId ∧
      (world.sessions use.thread).any FontSession.failed = false

/-- A command in the queue is the active attachment's, or that attachment is gone. -/
structure Caused (world : FontWorld V) : Prop where
  owned : ∀ command ∈ world.state.queue,
    world.state.active.map ActiveFontSession.attachmentId = some command.attachmentId ∨
      Gone command.attachmentId world.log
  gaveUp : ∀ ticket call, world.calls[ticket]? = some call → call.phase = .gaveUp →
    .gaveUp ticket ∈ world.log
  log : EachEvent Justified world.log

def Weighed (state : FontCoordinatorState) : Prop :=
  state.queuedBytes = tally PendingFontCommand.retainedBytes state.queue

section Served

variable {world next : FontWorld V} {action : FontAction V} {other : FontWorld V}

theorem served_of_noneTaken (huses : other.uses = world.uses) (h : NoneTaken world) :
    Served other := by
  intro use huse command htaken
  rw [huses] at huse
  rw [h use huse] at htaken
  cases htaken

theorem Served.framed (h : Served world)
    (huses : ∀ use ∈ other.uses, ∀ command, use.executing = some command → use ∈ world.uses)
    (hactive : other.state.active = world.state.active)
    (hsessions : ∀ use ∈ world.uses, ∀ command, use.executing = some command →
      (world.sessions use.thread).any FontSession.failed = false →
      (other.sessions use.thread).any FontSession.failed = false) : Served other := by
  intro use huse command htaken
  have hold := huses use huse command htaken
  obtain ⟨hown, hcurrent, hsound⟩ := h use hold command htaken
  rw [hactive]
  exact ⟨hown, hcurrent, hsessions use hold command htaken hsound⟩

variable {use : SessionUse} {command : PendingFontCommand}

theorem executing_of_set {index : Nat} {new : SessionUse} (huse : use ∈ world.uses.set index new)
    (htaken : use.executing = some command) (hnew : new.executing = none) : use ∈ world.uses := by
  rcases List.mem_or_eq_of_mem_set huse with hold | rfl
  · exact hold
  · rw [hnew] at htaken
    cases htaken

theorem Served.kept (h : Served world) (huses : other.uses = world.uses)
    (hactive : other.state.active = world.state.active)
    (hsessions : other.sessions = world.sessions) : Served other := by
  refine h.framed (fun use huse _ _ => huses ▸ huse) hactive fun _ _ _ _ hsound => ?_
  rw [hsessions]
  exact hsound

theorem Served.vacated (h : Served world) (index : Nat) (use : SessionUse) (phase : FontPhase)
    (hnew : ({ use with phase } : SessionUse).executing = none) :
    Served (world.moved index use phase) :=
  h.framed (fun _ huse _ htaken => executing_of_set huse htaken hnew) rfl fun _ _ _ _ hsound => hsound

theorem executing_ne (h : use.executing = some command) : use.phase ≠ .left ∧ use.phase ≠ .failing ∧
      use.phase ≠ .advancing := by
  refine ⟨fun hphase => ?_, fun hphase => ?_, fun hphase => ?_⟩
  all_goals
    unfold SessionUse.executing at h
    rw [hphase] at h
    cases h

theorem Served.move (h : Served world) (hthreads : Threads world)
    (hcondition : Undisturbed world action) (hmove : Move world action next) : Served next := by
  cases hmove with
  | same => exact h
  | attached _ _ haction hopen _ hfree =>
    subst haction
    refine served_of_noneTaken rfl ?_
    rcases hcondition with hstopped | hbusy | _ | hnone
    · rw [hopen] at hstopped
      cases hstopped
    · rw [hfree] at hbusy
      cases hbusy
    · omega
    · exact hnone
  | detached _ lease haction hlease =>
    subst haction
    by_cases hactive :
        world.state.active.map ActiveFontSession.attachmentId = some lease.attachmentId
    · exact served_of_noneTaken rfl (hcondition lease hlease hactive)
    · have hsame : (world.state.detach lease.attachmentId).active = world.state.active := by
        unfold FontCoordinatorState.detach
        rw [if_neg hactive]
      exact h.kept rfl hsame rfl
  | stopped _ haction =>
    subst haction
    exact served_of_noneTaken rfl hcondition
  | emptied | canceledNext | refused | accepted | completed | unfilled | stale | expired | timedOut
  | withdrawn => exact h.kept rfl rfl rfl
  | retired _ retirement =>
    unfold takeSession
    split
    · refine h.framed (fun _ huse _ _ => huse) rfl fun use _ _ _ hsound => ?_
      dsimp only
      by_cases hthread : use.thread = retirement.thread
      · rw [hthread, Function.update_self]
        rfl
      · rw [Function.update_of_ne hthread]
        exact hsound
    · exact h.kept rfl rfl rfl
  | entered =>
    refine h.framed (fun use huse command htaken => ?_) rfl fun _ _ _ _ hsound => hsound
    rcases List.mem_append.mp huse with hold | hnew
    · exact hold
    · cases List.mem_singleton.mp hnew
      cases htaken
  | borrowed index use =>
    refine h.vacated index use _ ?_
    unfold borrowed
    split
    · rfl
    · split
      · rfl
      · split
        · split <;> rfl
        · rfl
  | emptyQueue index use => exact h.vacated index use _ rfl
  | taken _ use command queue haction huse _ hqueue hown =>
    subst haction
    intro user huser other htaken
    rcases List.mem_or_eq_of_mem_set huser with hold | rfl
    · exact h user hold other htaken
    · cases htaken
      have hmeets := hcondition use command queue huse hqueue
      rw [if_pos hown] at hmeets
      exact ⟨hown, hmeets⟩
  | rejected index use command =>
    exact (h.vacated index use (.settling command .canceled) rfl).kept rfl rfl rfl
  | started _ use command huse hphase =>
    intro user huser other htaken
    rcases List.mem_or_eq_of_mem_set huser with hold | rfl
    · exact h user hold other htaken
    · cases htaken
      have hexecuting : use.executing = some command := by
        unfold SessionUse.executing
        rw [hphase]
      exact h use (List.mem_of_getElem? huse) command hexecuting
  | finished index use command =>
    exact (h.vacated index use (.settling command .completed) rfl).kept rfl rfl rfl
  | commandPanicked index use =>
    exact (h.vacated index use .failing rfl).kept rfl rfl rfl
  | ended index use _ _ _ hnew =>
    refine h.vacated index use _ ?_
    rcases hnew with rfl | rfl <;> rfl
  | settled index use =>
    exact (h.vacated index use .popping rfl).kept rfl rfl rfl
  | failed _ use _ huse hold =>
    refine h.framed (fun _ huser _ htaken => executing_of_set huser htaken rfl) rfl
      fun user huser command htaken hsound => ?_
    -- another thread's session, as a thread uses its own once
    have hthread : user.thread ≠ use.thread := by
      intro heq
      obtain ⟨hleft, hfailing, hadvancing⟩ := executing_ne htaken
      have hlive : use.phase ≠ .left := by rcases hold with hold | hold <;> rw [hold] <;> nofun
      have hsame := hthreads.unique huser (List.mem_of_getElem? huse) heq.symm hleft hlive
      rw [← hsame] at hold
      exact hold.elim hfailing hadvancing
    dsimp only
    rw [Function.update_of_ne hthread]
    exact hsound

end Served

section Caused

variable {world next : FontWorld V} {action : FontAction V}

theorem Gone.cons {attachmentId : Nat} {log : List (FontEvent V)} (h : Gone attachmentId log)
    (event : FontEvent V) : Gone attachmentId (event :: log) := by
  rcases h with ⟨later, hlater, hmem⟩ | hdetached | hstopped
  · exact Or.inl ⟨later, hlater, List.mem_cons_of_mem _ hmem⟩
  · exact Or.inr (Or.inl (List.mem_cons_of_mem _ hdetached))
  · exact Or.inr (Or.inr (List.mem_cons_of_mem _ hstopped))

variable {command : PendingFontCommand}

theorem Caused.gone_of_orphaned (h : Caused world) (hmem : command ∈ world.state.queue)
    (horphaned : Orphaned world command) :
    Gone command.attachmentId world.log ∨ .gaveUp command.ticket ∈ world.log := by
  rcases horphaned with hinactive | ⟨call, hcall, hphase⟩
  · exact Or.inl ((h.owned command hmem).resolve_left hinactive)
  · exact Or.inr (h.gaveUp command.ticket call hcall hphase)

variable {other : FontWorld V} {event : FontEvent V}

theorem Caused.logged (h : Caused world) (hlog : other.log = event :: world.log)
    (hevent : Justified event world.log)
    (hqueue : ∀ command ∈ other.state.queue, command ∈ world.state.queue)
    (hactive : other.state.active = world.state.active)
    (hcalls : ∀ ticket call, other.calls[ticket]? = some call → call.phase = .gaveUp →
      world.calls[ticket]?.map FontCall.phase = some .gaveUp ∨ event = .gaveUp ticket) :
    Caused other := by
  refine ⟨fun command hmem => ?_, fun ticket call hcall hphase => ?_, ?_⟩
  · rw [hactive, hlog]
    exact (h.owned command (hqueue command hmem)).imp_right fun hgone => hgone.cons event
  · rw [hlog]
    rcases hcalls ticket call hcall hphase with hold | rfl
    · obtain ⟨old, hsome, hgaveUp⟩ := Option.map_eq_some_iff.mp hold
      exact List.mem_cons_of_mem _ (h.gaveUp ticket old hsome hgaveUp)
    · exact List.mem_cons_self
  · rw [hlog]
    exact ⟨hevent, h.log⟩

theorem Caused.framed (h : Caused world) (hlog : other.log = world.log)
    (hqueue : other.state.queue = world.state.queue)
    (hactive : other.state.active = world.state.active)
    (hcalls : ∀ (ticket : Nat) (call : FontCall V), other.calls[ticket]? = some call →
      call.phase = .gaveUp → world.calls[ticket]?.map FontCall.phase = some .gaveUp) :
    Caused other := by
  refine ⟨?_, fun ticket call hcall hphase => ?_, ?_⟩
  · rw [hqueue, hactive, hlog]
    exact h.owned
  · obtain ⟨old, hsome, hgaveUp⟩ := Option.map_eq_some_iff.mp (hcalls ticket call hcall hphase)
    rw [hlog]
    exact h.gaveUp ticket old hsome hgaveUp
  · rw [hlog]
    exact h.log

variable {calls : List (FontCall V)} {ticket : Nat} {call : FontCall V}

theorem phase_of_some (hcall : calls[ticket]? = some call) (hphase : call.phase = .gaveUp) :
    calls[ticket]?.map FontCall.phase = some .gaveUp := by
  rw [hcall, Option.map_some, hphase]

variable {index : Nat}

theorem phase_of_modify {change : FontCall V → FontCall V}
    (hcall : (calls.modify index change)[ticket]? = some call)
    (hkept : ∀ call, (change call).phase = call.phase) (hphase : call.phase = .gaveUp) :
    calls[ticket]?.map FontCall.phase = some .gaveUp := by
  rw [List.getElem?_modify] at hcall
  obtain ⟨_, hold, rfl⟩ := Option.map_eq_some_iff.mp hcall
  rw [hold, Option.map_some]
  split at hphase
  · rw [← hkept, hphase]
  · rw [hphase]

variable {new : FontCall V}

theorem phase_of_set (hcall : (calls.set index new)[ticket]? = some call)
    (hnew : new.phase ≠ .gaveUp) (hphase : call.phase = .gaveUp) :
    calls[ticket]?.map FontCall.phase = some .gaveUp := by
  rw [List.getElem?_set] at hcall
  split at hcall
  · split at hcall
    · cases hcall
      exact absurd hphase hnew
    · cases hcall
  · exact phase_of_some hcall hphase

theorem phase_of_append (hcall : (calls ++ [new])[ticket]? = some call)
    (hnew : new.phase ≠ .gaveUp) (hphase : call.phase = .gaveUp) :
    calls[ticket]?.map FontCall.phase = some .gaveUp := by
  rw [List.getElem?_append] at hcall
  split at hcall
  · exact phase_of_some hcall hphase
  · rw [List.getElem?_singleton] at hcall
    split at hcall
    · cases hcall
      exact absurd hphase hnew
    · cases hcall

theorem justified_of_ne {earlier : List (FontEvent V)}
    (h : ∀ commands, event ≠ .canceled commands) : Justified event earlier :=
  fun commands heq => absurd heq (h commands)

theorem Caused.attached (h : Caused world) (hthreads : Threads world)
    (hlog : other.log = .attached (world.state.nextAttachmentId + 1) :: world.log)
    (hqueue : other.state.queue = world.state.queue) (hcalls : other.calls = world.calls) :
    Caused other := by
  refine ⟨fun command hmem => Or.inr ?_, fun ticket call hcall hphase => ?_, ?_⟩
  · rw [hqueue] at hmem
    rw [hlog]
    rcases h.owned command hmem with hactive | hgone
    · obtain ⟨active, hsome, _⟩ := Option.map_eq_some_iff.mp hactive
      have hlatest := hthreads.latest active hsome
      refine Or.inl ⟨world.state.nextAttachmentId + 1, ?_, List.mem_cons_self⟩
      omega
    · exact hgone.cons _
  · rw [hcalls] at hcall
    rw [hlog]
    exact List.mem_cons_of_mem _ (h.gaveUp ticket call hcall hphase)
  · rw [hlog]
    exact ⟨justified_of_ne nofun, h.log⟩

theorem Caused.deactivated (h : Caused world) (hlog : other.log = event :: world.log)
    (hevent : ∀ commands, event ≠ .canceled commands)
    (hqueue : other.state.queue = world.state.queue) (hcalls : other.calls = world.calls)
    (hactive : ∀ attachmentId,
      world.state.active.map ActiveFontSession.attachmentId = some attachmentId →
      other.state.active = world.state.active ∨ Gone attachmentId (event :: world.log)) :
    Caused other := by
  refine ⟨fun command hmem => ?_, fun ticket call hcall hphase => ?_, ?_⟩
  · rw [hqueue] at hmem
    rw [hlog]
    rcases h.owned command hmem with hcurrent | hgone
    · rcases hactive _ hcurrent with hsame | hgone
      · rw [hsame]
        exact Or.inl hcurrent
      · exact Or.inr hgone
    · exact Or.inr (hgone.cons _)
  · rw [hcalls] at hcall
    rw [hlog]
    exact List.mem_cons_of_mem _ (h.gaveUp ticket call hcall hphase)
  · rw [hlog]
    exact ⟨justified_of_ne hevent, h.log⟩

theorem Caused.accepted_move (h : Caused world) {active : ActiveFontSession}
    (hactive : world.state.active = some active)
    (hown : command.attachmentId = active.attachmentId) (hphase : call.phase ≠ .gaveUp)
    {queuedBytes : Nat} :
    Caused { world with
      state := { world.state with queuedBytes, queue := world.state.queue ++ [command] }
      calls := world.calls ++ [call]
      log := .accepted command :: world.log } := by
  refine ⟨fun other hmem => ?_, fun ticket found hcall hgaveUp => ?_,
    ⟨justified_of_ne nofun, h.log⟩⟩
  · rcases List.mem_append.mp hmem with hold | hnew
    · exact (h.owned other hold).imp_right fun hgone => hgone.cons _
    · cases List.mem_singleton.mp hnew
      refine Or.inl ?_
      dsimp only
      rw [hactive, Option.map_some, hown]
  · obtain ⟨old, hsome, hold⟩ := Option.map_eq_some_iff.mp (phase_of_append hcall hphase hgaveUp)
    exact List.mem_cons_of_mem _ (h.gaveUp ticket old hsome hold)

theorem Caused.move (h : Caused world) (hthreads : Threads world)
    (hcondition : Undisturbed world action) (hmove : Move world action next) : Caused next := by
  cases hmove with
  | same => exact h
  | attached => exact h.attached hthreads rfl rfl rfl
  | detached _ lease =>
    have hqueue : (world.state.detach lease.attachmentId).queue = world.state.queue := by
      unfold FontCoordinatorState.detach
      split <;> rfl
    refine h.deactivated rfl nofun hqueue rfl fun attachmentId hactive => ?_
    dsimp only
    unfold FontCoordinatorState.detach
    split
    next hsame =>
      rw [hactive] at hsame
      cases hsame
      exact Or.inr (Or.inr (Or.inl List.mem_cons_self))
    next => exact Or.inl rfl
  | stopped =>
    exact h.deactivated rfl nofun rfl rfl fun _ _ => Or.inr (Or.inr (Or.inr List.mem_cons_self))
  | emptied _ retirement haction hretirement hphase =>
    subst haction
    refine h.logged rfl (fun commands heq command hmem => ?_) nofun rfl fun ticket call hcall hphase =>
      Or.inl (phase_of_some hcall hphase)
    cases heq
    exact h.gone_of_orphaned hmem (hcondition retirement hretirement hphase command hmem)
  | canceledNext _ _ _ _ _ hphase | settled _ _ _ _ _ hphase =>
    exact h.framed rfl rfl rfl fun _ _ hcall hphase => phase_of_modify hcall (fun _ => rfl) hphase
  | retired =>
    unfold takeSession
    split
    · exact h.framed rfl rfl rfl fun _ _ => phase_of_some
    · exact h.framed rfl rfl rfl fun _ _ => phase_of_some
  | entered | borrowed | emptyQueue | ended | failed =>
    exact h.framed rfl rfl rfl fun _ _ => phase_of_some
  | taken _ _ _ _ _ _ hphase hqueue =>
    refine h.logged rfl (justified_of_ne nofun) (fun other hmem => ?_) rfl fun ticket call hcall hphase =>
      Or.inl (phase_of_some hcall hphase)
    rw [hqueue]
    exact List.mem_cons_of_mem _ hmem
  | rejected _ use command queue haction huse hphase hqueue hother =>
    subst haction
    have hmeets := hcondition use command queue huse hqueue
    rw [if_neg hother] at hmeets
    refine h.logged rfl (fun commands heq other hmem => ?_) (fun other hmem => ?_) rfl
      fun ticket call hcall hphase => Or.inl (phase_of_some hcall hphase)
    · cases heq
      cases List.mem_singleton.mp hmem
      refine h.gone_of_orphaned ?_ hmeets
      rw [hqueue]
      exact List.mem_cons_self
    · rw [hqueue]
      exact List.mem_cons_of_mem _ hmem
  | started _ _ _ _ hphase | commandPanicked _ _ _ _ hphase =>
    exact h.logged rfl (justified_of_ne nofun) (fun _ hmem => hmem) rfl fun ticket call hcall hphase =>
      Or.inl (phase_of_some hcall hphase)
  | finished _ _ _ _ _ hphase =>
    exact h.logged rfl (justified_of_ne nofun) (fun _ hmem => hmem) rfl fun ticket call hcall hphase =>
      Or.inl (phase_of_modify hcall (fun _ => rfl) hphase)
  | refused =>
    exact h.logged rfl (justified_of_ne nofun) (fun _ hmem => hmem) rfl fun ticket call hcall hphase =>
      Or.inl (phase_of_append hcall (by simp) hphase)
  | accepted _ _ _ _ _ _ hactive =>
    exact h.accepted_move hactive rfl (by simp)
  | completed ticket _ hcall | unfilled ticket hcall | stale ticket _ hcall
  | timedOut ticket _ _ _ hcall =>
    exact h.logged rfl (justified_of_ne nofun) (fun _ hmem => hmem) rfl fun ticket call hcall hphase =>
      Or.inl (phase_of_set hcall nofun hphase)
  | expired ticket =>
    refine h.logged rfl (justified_of_ne nofun) (fun _ hmem => hmem) rfl fun other call hfound hphase => ?_
    by_cases hsame : ticket = other
    · rw [hsame]
      exact Or.inr rfl
    · dsimp only at hfound
      rw [List.getElem?_set_ne hsame] at hfound
      exact Or.inl (phase_of_some hfound hphase)
  | withdrawn ticket _ _ command hcall hfind =>
    have hticket : command.ticket = ticket := by simpa using List.find?_some hfind
    have hcanceled : Caused { world with log := .canceled [command] :: world.log } := by
      refine h.logged rfl (fun commands heq other hmem => ?_) (fun _ hmem => hmem) rfl
        fun ticket call hcall hphase => Or.inl (phase_of_some hcall hphase)
      cases heq
      cases List.mem_singleton.mp hmem
      rw [hticket]
      exact Or.inr (h.gaveUp ticket _ hcall rfl)
    refine hcanceled.logged rfl (justified_of_ne nofun) (fun other hmem => ?_) rfl
      fun other call hfound hphase => Or.inl (phase_of_set hfound nofun hphase)
    exact List.mem_of_mem_eraseP hmem

end Caused

section Weighed

variable {world next : FontWorld V} {action : FontAction V}

theorem weighed_move (h : Weighed world.state) (hcondition : Undisturbed world action)
    (hmove : Move world action next) : Weighed next.state := by
  unfold Weighed at h ⊢
  cases hmove with
  | detached =>
    dsimp only
    unfold FontCoordinatorState.detach
    split <;> exact h
  | retired =>
    unfold takeSession
    split <;> exact h
  | emptied => rfl
  | taken _ _ _ _ _ _ _ hqueue | rejected _ _ _ _ _ _ _ hqueue =>
    rw [hqueue, tally_cons] at h
    dsimp only
    omega
  | accepted _ _ _ haction hroom =>
    subst haction
    dsimp only
    rw [tally_append, tally_cons, tally_nil, Nat.add_zero, ← h]
    unfold saturatingAdd at hroom ⊢
    dsimp only
    rcases hcondition with hlimit | hfits <;> omega
  | withdrawn _ _ _ _ _ hfind =>
    have herased := tally_eraseP PendingFontCommand.retainedBytes hfind
    dsimp only
    omega
  | same | attached | stopped | canceledNext | entered | borrowed | emptyQueue | started | finished
  | commandPanicked | ended | settled | failed | refused | completed | unfilled | stale | expired
  | timedOut => exact h

end Weighed

section Runs

variable {world next : FontWorld V} {action : FontAction V}

theorem threads_start : Threads (start : FontWorld V) :=
  ⟨fun _ => Nat.zero_le _, nofun, nofun, nofun, nofun, nofun⟩

theorem ordered_start : Ordered (start : FontWorld V) :=
  ⟨.nil, nofun, nofun, nofun, nofun, nofun, trivial⟩

theorem Served.current (h : Served world) (hthreads : Threads world) {use : SessionUse}
    (huse : use ∈ world.uses) {command : PendingFontCommand}
    (htaken : use.executing = some command) :
    world.state.active = some ⟨command.attachmentId, use.thread⟩ ∧
      ∃ session, world.sessions use.thread = some session ∧
        session.attachmentId = command.attachmentId ∧ session.failed = false := by
  obtain ⟨hown, hcurrent, hsound⟩ := h use huse command htaken
  obtain ⟨⟨attachmentId, thread⟩, hactive, hid⟩ := Option.map_eq_some_iff.mp hcurrent
  have hthread : thread = use.thread := hthreads.owner use huse _ hactive hid
  have hborrows : use.phase.borrows = true := by
    unfold SessionUse.executing at htaken
    cases hphase : use.phase with
    | holding | running => rfl
    | entering | popping | settling | advancing | inline | failing | left =>
      rw [hphase] at htaken
      cases htaken
  obtain ⟨session, hsession, hattached⟩ :=
    Option.map_eq_some_iff.mp (hthreads.borrowed use huse hborrows)
  rw [hsession] at hsound
  refine ⟨?_, session, hsession, hattached.trans hown.symm, hsound⟩
  rw [hactive, hown, ← hid, hthread]

/-- Where no step disturbs them, commands run on the render thread of the active attachment that
accepted them, in the order of their acceptance, and are canceled for their own sake only. -/
theorem commands_stay_with_attachment {actions : List (FontAction V)}
    (hevery : StepRuns.EveryStep step Undisturbed start actions)
    (h : StepRuns.runSteps step start actions = some world) :
    (∀ use ∈ world.uses, ∀ command, use.executing = some command →
      world.state.active = some ⟨command.attachmentId, use.thread⟩ ∧
        ∃ session, world.sessions use.thread = some session ∧
          session.attachmentId = command.attachmentId ∧ session.failed = false) ∧
    EachEvent InOrder world.log ∧ EachEvent Justified world.log ∧
    world.state.queuedBytes = tally PendingFontCommand.retainedBytes world.state.queue := by
  have hinvariant : Threads world ∧ Ordered world ∧ Served world ∧ Caused world ∧
      Weighed world.state := by
    refine StepRuns.EveryStep.invariant (Q := fun world : FontWorld V => Threads world ∧
      Ordered world ∧ Served world ∧ Caused world ∧ Weighed world.state) ?_ hevery h
      ⟨threads_start, ordered_start, nofun, ⟨nofun, nofun, trivial⟩, rfl⟩
    intro world action next hstep hcondition hinv
    obtain ⟨hthreads, hordered, hserved, hcaused, hweighed⟩ := hinv
    have hmove := step_move hstep
    exact ⟨hthreads.move hmove, hordered.move hthreads hmove,
      hserved.move hthreads hcondition hmove, hcaused.move hthreads hcondition hmove,
      weighed_move hweighed hcondition hmove⟩
  obtain ⟨hthreads, hordered, hserved, hcaused, hweighed⟩ := hinvariant
  exact ⟨fun use huse command => hserved.current hthreads huse, hordered.log, hcaused.log, hweighed⟩

def servedRun : List (FontAction Nat) :=
  [.attach 1 7, .enqueue 16 ⟨8, 64⟩, .advance 1 7, .borrow 0, .pop 0, .run 0]

theorem servedRun_undisturbed : StepRuns.EveryStep step Undisturbed start servedRun := by
  refine ⟨Or.inr (Or.inr (Or.inr nofun)), fun attached hstep => ?_⟩
  cases hstep
  refine ⟨Or.inl (by decide), fun accepted hstep => ?_⟩
  cases hstep
  refine ⟨trivial, fun entered hstep => ?_⟩
  cases hstep
  refine ⟨trivial, fun borrowed hstep => ?_⟩
  cases hstep
  refine ⟨fun use command rest huse hqueue => ?_, fun taken hstep => ⟨trivial, fun _ _ => trivial⟩⟩
  cases huse
  cases hqueue
  exact ⟨rfl, rfl⟩

theorem servedRun_current : ∃ world, StepRuns.runSteps step start servedRun = some world ∧
    world.state.active = some ⟨1, 1⟩ ∧ world.state.queuedBytes = 0 := by
  obtain ⟨world, hrun⟩ := Option.isSome_iff_exists.mp
    (rfl : (StepRuns.runSteps step start servedRun).isSome = true)
  have hfacts : (StepRuns.runSteps step start servedRun).map
      (fun world => (world.uses, world.state.queue)) =
        some ([⟨1, 1, 7, .running ⟨1, 16, 0⟩⟩], []) := rfl
  rw [hrun] at hfacts
  obtain ⟨huses, hqueue⟩ := Prod.mk.inj (Option.some.inj hfacts)
  obtain ⟨hserved, _, _, hbytes⟩ := commands_stay_with_attachment servedRun_undisturbed hrun
  obtain ⟨hactive, _⟩ := hserved ⟨1, 1, 7, .running ⟨1, 16, 0⟩⟩ (by rw [huses]; simp) ⟨1, 16, 0⟩ rfl
  refine ⟨world, hrun, hactive, ?_⟩
  rw [hbytes, hqueue, tally_nil]

/-- The session was marked failed before the command was accepted. -/
def failedRun : List (FontAction Nat) :=
  [.attach 1 7, .withActiveManager 1 7, .borrow 0, .panic 0, .markFailed 0, .enqueue 16 ⟨8, 64⟩,
    .advance 1 7, .borrow 1, .pop 1, .run 1]

/-- The lease of an attachment is dropped after the next attachment accepted a command. -/
def staleLeaseRun : List (FontAction Nat) :=
  [.attach 1 7, .attach 2 8, .enqueue 16 ⟨8, 64⟩, .dropLease 0, .retire 0]

theorem failed_runs_and_stale_lease_cancels :
    (∃ world, StepRuns.runSteps step start failedRun = some world ∧
      ∃ use ∈ world.uses, use.executing = some ⟨1, 16, 0⟩ ∧
        world.sessions use.thread = some ⟨1, 7, true⟩) ∧
    ∃ world, StepRuns.runSteps step start staleLeaseRun = some world ∧
      world.state.active = some ⟨2, 2⟩ ∧ ¬ EachEvent Justified world.log := by
  constructor
  · obtain ⟨world, hrun⟩ := Option.isSome_iff_exists.mp
      (rfl : (StepRuns.runSteps step start failedRun).isSome = true)
    have hfacts : (StepRuns.runSteps step start failedRun).map
        (fun world => (world.uses, world.sessions 1)) =
          some ([⟨1, 1, 7, .left⟩, ⟨1, 1, 7, .running ⟨1, 16, 0⟩⟩], some ⟨1, 7, true⟩) := rfl
    rw [hrun] at hfacts
    obtain ⟨huses, hsession⟩ := Prod.mk.inj (Option.some.inj hfacts)
    exact ⟨world, hrun, ⟨1, 1, 7, .running ⟨1, 16, 0⟩⟩, by rw [huses]; simp, rfl, hsession⟩
  · obtain ⟨world, hrun⟩ := Option.isSome_iff_exists.mp
      (rfl : (StepRuns.runSteps step start staleLeaseRun).isSome = true)
    have hfacts : (StepRuns.runSteps step start staleLeaseRun).map
        (fun world => (world.state.active, world.log)) =
          some (some ⟨2, 2⟩, [.canceled [⟨2, 16, 0⟩], .detached 1, .accepted ⟨2, 16, 0⟩,
            .attached 2, .attached 1]) := rfl
    rw [hrun] at hfacts
    obtain ⟨hactive, hlog⟩ := Prod.mk.inj (Option.some.inj hfacts)
    refine ⟨world, hrun, hactive, fun hjustified => ?_⟩
    rw [hlog] at hjustified
    have hcause := hjustified.1 _ rfl ⟨2, 16, 0⟩ List.mem_cons_self
    simp [Gone] at hcause
    obtain ⟨_, _, rfl | rfl⟩ := hcause <;> omega

end Runs

end FontWorld

end Nexus.RuntimeFonts
