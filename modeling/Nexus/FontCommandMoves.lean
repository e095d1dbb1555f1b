import Nexus.FontCommands

namespace Nexus.RuntimeFonts

theorem FontCoordinatorState.accept_cases (retainedBytes : Nat) (limits : FontQueueLimits)
    (ticket : Nat) (state : FontCoordinatorState) :
    (∃ error, state.accept retainedBytes limits ticket = (.error error, state)) ∨
      ∃ active, state.stopped = false ∧ state.active = some active ∧
        saturatingAdd state.queuedBytes retainedBytes ≤ limits.bytes ∧
        state.accept retainedBytes limits ticket = (.ok active.attachmentId,
          { state with
            queuedBytes := saturatingAdd state.queuedBytes retainedBytes
            queue := state.queue ++ [⟨active.attachmentId, retainedBytes, ticket⟩] }) := by
  unfold FontCoordinatorState.accept
  split
  next => exact Or.inl ⟨_, rfl⟩
  next hopen =>
    split
    next => exact Or.inl ⟨_, rfl⟩
    next active hactive =>
      split
      next => exact Or.inl ⟨_, rfl⟩
      next hroom =>
        refine Or.inr ⟨active, Bool.eq_false_iff.mpr hopen, hactive, ?_, rfl⟩
        exact Nat.le_of_not_lt (not_or.mp hroom).2

namespace FontWorld

variable {V : Type}

inductive Move (world : FontWorld V) (action : FontAction V) : FontWorld V → Prop where
  | same : Move world action world
  | attached (thread context : Nat) (haction : action = .attach thread context)
      (hopen : world.state.stopped = false) (hnext : world.state.nextAttachmentId + 1 < 2 ^ 64)
      (hfree : world.busy thread = false) :
      Move world action { world with
        state := { world.state with
          nextAttachmentId := world.state.nextAttachmentId + 1
          active := some ⟨world.state.nextAttachmentId + 1, thread⟩ }
        sessions := Function.update world.sessions thread
          (some ⟨world.state.nextAttachmentId + 1, context, false⟩)
        leases := world.leases ++ [⟨thread, world.state.nextAttachmentId + 1⟩]
        log := .attached (world.state.nextAttachmentId + 1) :: world.log }
  | detached (index : Nat) (lease : FontSessionLease) (haction : action = .dropLease index)
      (hlease : world.leases[index]? = some lease) :
      Move world action { world with
        state := world.state.detach lease.attachmentId
        leases := world.leases.eraseIdx index
        retirements := world.retirements ++ [⟨lease.thread, some lease.attachmentId, .emptying⟩]
        log := .detached lease.attachmentId :: world.log }
  | stopped (thread : Nat) (haction : action = .shutdown thread) : Move world action (world.shutdown thread)
  | emptied (index : Nat) (retirement : Retirement) (haction : action = .retire index)
      (hretirement : world.retirements[index]? = some retirement)
      (hphase : retirement.phase = .emptying) :
      Move world action { world with
        state := world.state.cancelAllQueued
        retirements :=
          world.retirements.set index { retirement with phase := .canceling world.state.queue }
        log := .canceled world.state.queue :: world.log }
  | canceledNext (index : Nat) (retirement : Retirement) (command : PendingFontCommand)
      (rest : List PendingFontCommand)
      (hretirement : world.retirements[index]? = some retirement)
      (hphase : retirement.phase = .canceling (command :: rest)) :
      Move world action { world.settleTicket command.ticket .canceled with
        retirements := world.retirements.set index { retirement with phase := .canceling rest } }
  | retired (index : Nat) (retirement : Retirement) :
      Move world action { world.takeSession retirement.thread retirement.session with
        retirements := world.retirements.set index { retirement with phase := .retired } }
  | entered (inline : Bool) (thread context attachmentId : Nat) (hfree : world.busy thread = false)
      (hactive : world.state.activeAttachmentOn thread = some attachmentId) :
      Move world action { world with
        uses := world.uses ++ [⟨thread, attachmentId, context, .entering inline⟩] }
  | borrowed (index : Nat) (use : SessionUse) (inline : Bool)
      (huse : world.uses[index]? = some use) (hphase : use.phase = .entering inline) :
      Move world action (world.moved index use (borrowed inline use (world.sessions use.thread)))
  | emptyQueue (index : Nat) (use : SessionUse) (huse : world.uses[index]? = some use)
      (hphase : use.phase = .popping) : Move world action (world.moved index use .advancing)
  | taken (index : Nat) (use : SessionUse) (command : PendingFontCommand)
      (queue : List PendingFontCommand) (haction : action = .pop index)
      (huse : world.uses[index]? = some use)
      (hphase : use.phase = .popping) (hqueue : world.state.queue = command :: queue)
      (hown : command.attachmentId = use.attachmentId) :
      Move world action { world.moved index use (.holding command) with
        state := { world.state with
          queue
          queuedBytes := world.state.queuedBytes - command.retainedBytes }
        log := .taken command :: world.log }
  | rejected (index : Nat) (use : SessionUse) (command : PendingFontCommand)
      (queue : List PendingFontCommand) (haction : action = .pop index)
      (huse : world.uses[index]? = some use)
      (hphase : use.phase = .popping) (hqueue : world.state.queue = command :: queue)
      (hother : command.attachmentId ≠ use.attachmentId) :
      Move world action { world.moved index use (.settling command .canceled) with
        state := { world.state with
          queue
          queuedBytes := world.state.queuedBytes - command.retainedBytes }
        log := .canceled [command] :: world.log }
  | started (index : Nat) (use : SessionUse) (command : PendingFontCommand)
      (huse : world.uses[index]? = some use) (hphase : use.phase = .holding command) :
      Move world action { world.moved index use (.running command) with
        log := .started command :: world.log }
  | finished (index : Nat) (use : SessionUse) (command : PendingFontCommand) (value : V)
      (huse : world.uses[index]? = some use) (hphase : use.phase = .running command) :
      Move world action { world.moved index use (.settling command .completed) with
        calls := world.calls.modify command.ticket fun call => { call with slot := some value }
        log := .completed command.ticket value :: world.log }
  | commandPanicked (index : Nat) (use : SessionUse) (command : PendingFontCommand)
      (huse : world.uses[index]? = some use) (hphase : use.phase = .running command) :
      Move world action { world.moved index use .failing with
        log := .panicked command.ticket :: world.log }
  | ended (index : Nat) (use : SessionUse) (phase : FontPhase)
      (huse : world.uses[index]? = some use) (hold : use.phase = .inline ∨ use.phase = .advancing)
      (hnew : phase = .left ∨ phase = .failing) : Move world action (world.moved index use phase)
  | settled (index : Nat) (use : SessionUse) (command : PendingFontCommand)
      (state : FontTicketState) (huse : world.uses[index]? = some use)
      (hphase : use.phase = .settling command state) :
      Move world action { world.settleTicket command.ticket state with
        uses := world.uses.set index { use with phase := .popping } }
  | failed (index : Nat) (use : SessionUse) (change : FontSession → FontSession)
      (huse : world.uses[index]? = some use)
      (hold : use.phase = .failing ∨ use.phase = .advancing)
      (hkept : ∀ session, (change session).attachmentId = session.attachmentId) :
      Move world action { world.moved index use .left with
        sessions :=
          Function.update world.sessions use.thread ((world.sessions use.thread).map change) }
  | refused (error : RuntimeFontBridgeError) :
      Move world action { world with
        calls := world.calls ++ [⟨.returned, .queued, none⟩]
        log := .returned world.calls.length (.error error) :: world.log }
  | accepted (retainedBytes : Nat) (limits : FontQueueLimits) (active : ActiveFontSession)
      (haction : action = .enqueue retainedBytes limits)
      (hroom : saturatingAdd world.state.queuedBytes retainedBytes ≤ limits.bytes)
      (hopen : world.state.stopped = false) (hactive : world.state.active = some active) :
      Move world action { world with
        state := { world.state with
          queuedBytes := saturatingAdd world.state.queuedBytes retainedBytes
          queue := world.state.queue ++
            [⟨active.attachmentId, retainedBytes, world.calls.length⟩] }
        calls := world.calls ++ [⟨.waiting, .queued, none⟩]
        log := .accepted ⟨active.attachmentId, retainedBytes, world.calls.length⟩ :: world.log }
  | completed (ticket : Nat) (value : V)
      (hcall : world.calls[ticket]? = some ⟨.waiting, .completed, some value⟩) :
      Move world action (world.returning ticket ⟨.waiting, .completed, none⟩ (.ok value))
  | unfilled (ticket : Nat) (hcall : world.calls[ticket]? = some ⟨.waiting, .completed, none⟩) :
      Move world action
        (world.returning ticket ⟨.waiting, .completed, none⟩ (.error .attachmentFailed))
  | stale (ticket : Nat) (slot : Option V)
      (hcall : world.calls[ticket]? = some ⟨.waiting, .canceled, slot⟩) :
      Move world action (world.returning ticket ⟨.waiting, .canceled, slot⟩ (.error .staleAttachment))
  | expired (ticket : Nat) (slot : Option V)
      (hcall : world.calls[ticket]? = some ⟨.waiting, .queued, slot⟩) :
      Move world action { world with
        calls := world.calls.set ticket ⟨.gaveUp, .queued, slot⟩
        log := .gaveUp ticket :: world.log }
  | timedOut (ticket : Nat) (settled : FontTicketState) (slot : Option V)
      (haction : action = .withdraw ticket)
      (hcall : world.calls[ticket]? = some ⟨.gaveUp, settled, slot⟩)
      (hfind : world.state.queue.find? (·.ticket = ticket) = none) :
      Move world action (world.returning ticket ⟨.gaveUp, settled, slot⟩ (.error .timeout))
  | withdrawn (ticket : Nat) (settled : FontTicketState) (slot : Option V)
      (command : PendingFontCommand)
      (hcall : world.calls[ticket]? = some ⟨.gaveUp, settled, slot⟩)
      (hfind : world.state.queue.find? (·.ticket = ticket) = some command) :
      Move world action { world with
        state := { world.state with
          queue := world.state.queue.eraseP (·.ticket = ticket)
          queuedBytes := world.state.queuedBytes - command.retainedBytes }
        calls := world.calls.set ticket ⟨.returned, .canceled, slot⟩
        log := .returned ticket (.error .timeout) :: .canceled [command] :: world.log }

section Moves

variable {world next : FontWorld V} {action : FontAction V}

theorem attach_move (thread context : Nat) :
    Move world (.attach thread context) (world.attach thread context) := by
  unfold attach
  dsimp only
  split
  next => exact .same
  next hfree =>
    obtain ⟨hopen, hbusy⟩ := not_or.mp hfree
    obtain ⟨hnext, hbusy⟩ := not_or.mp hbusy
    exact .attached thread context rfl (Bool.eq_false_iff.mpr hopen) (Nat.not_le.mp hnext)
      (Bool.eq_false_iff.mpr hbusy)

theorem dropLease_move {lease : Nat} (h : world.dropLease lease = some next) :
    Move world (.dropLease lease) next := by
  unfold dropLease at h
  split at h
  next => cases h
  next dropped hlease =>
    cases h
    exact .detached lease dropped rfl hlease

variable {index : Nat}

theorem retire_move (h : world.retire index = some next) : Move world (.retire index) next := by
  unfold retire at h
  split at h
  next => cases h
  next retirement hretirement =>
    split at h
    next hphase =>
      cases h
      exact .emptied index retirement rfl hretirement hphase
    next command rest hphase =>
      cases h
      exact .canceledNext index retirement command rest hretirement hphase
    next =>
      cases h
      exact .retired index retirement
    next => cases h

theorem enter_move (inline : Bool) (thread context : Nat) :
    Move world action (world.enter inline thread context) := by
  unfold enter
  split
  next => exact .same
  next hbusy =>
    split
    next => exact .same
    next attachmentId hactive =>
      exact .entered inline thread context attachmentId (Bool.eq_false_iff.mpr hbusy) hactive

theorem borrow_move (h : world.borrow index = some next) : Move world action next := by
  unfold borrow at h
  split at h
  next use huse =>
    split at h
    next inline hphase =>
      cases h
      exact .borrowed index use inline huse hphase
    next => cases h
  next => cases h

theorem pop_move (h : world.pop index = some next) : Move world (.pop index) next := by
  unfold pop FontCoordinatorState.popFront at h
  split at h
  next use huse =>
    split at h
    next hphase =>
      split at h
      next =>
        cases h
        exact .emptyQueue index use huse hphase
      next command _ hpop =>
        split at hpop
        next => cases hpop
        next queue hqueue =>
          cases hpop
          split at h
          next hown =>
            cases h
            exact .taken index use command queue rfl huse hphase hqueue hown
          next hother =>
            cases h
            exact .rejected index use command queue rfl huse hphase hqueue hother
    next => cases h
  next => cases h

theorem run_move (h : world.run index = some next) : Move world action next := by
  unfold run at h
  split at h
  next use huse =>
    split at h
    next command hphase =>
      cases h
      exact .started index use command huse hphase
    next => cases h
  next => cases h

theorem finish_move {value : V} (h : world.finish index value = some next) :
    Move world action next := by
  unfold finish at h
  split at h
  next use huse =>
    split at h
    next command hphase =>
      cases h
      exact .finished index use command value huse hphase
    next hphase =>
      cases h
      exact .ended index use .left huse (Or.inl hphase) (Or.inl rfl)
    next => cases h
  next => cases h

theorem panic_move (h : world.panic index = some next) : Move world action next := by
  unfold panic at h
  split at h
  next use huse =>
    split at h
    next command hphase =>
      cases h
      exact .commandPanicked index use command huse hphase
    next hphase =>
      cases h
      exact .ended index use .failing huse (Or.inl hphase) (Or.inr rfl)
    next hphase =>
      split at h
      next => cases h
      next =>
        cases h
        exact .ended index use .failing huse (Or.inr hphase) (Or.inr rfl)
    next => cases h
  next => cases h

theorem settle_move (h : world.settle index = some next) : Move world action next := by
  unfold settle at h
  split at h
  next use huse =>
    split at h
    next command state hphase =>
      cases h
      exact .settled index use command state huse hphase
    next => cases h
  next => cases h

theorem advanced_move {failed : Bool} (h : world.advanced index failed = some next) :
    Move world action next := by
  unfold advanced at h
  split at h
  next use huse =>
    split at h
    next hphase =>
      cases h
      exact .failed index use _ huse (Or.inr hphase) fun _ => rfl
    next => cases h
  next => cases h

theorem markFailed_move (h : world.markFailed index = some next) : Move world action next := by
  unfold markFailed at h
  split at h
  next use huse =>
    split at h
    next hphase =>
      cases h
      refine .failed index use _ huse (Or.inl hphase) fun session => ?_
      split <;> rfl
    next => cases h
  next => cases h

theorem enqueue_move (retainedBytes : Nat) (limits : FontQueueLimits) :
    Move world (.enqueue retainedBytes limits) (world.enqueue retainedBytes limits) := by
  unfold enqueue
  dsimp only
  rcases FontCoordinatorState.accept_cases retainedBytes limits world.calls.length world.state with
    ⟨error, hrefused⟩ | ⟨active, hopen, hactive, hroom, haccepted⟩
  · rw [hrefused]
    exact .refused error
  · rw [haccepted]
    exact .accepted retainedBytes limits active rfl hroom hopen hactive

variable {ticket : Nat}

theorem wake_move (h : world.wake ticket = some next) : Move world action next := by
  unfold wake at h
  split at h
  next value hcall =>
    cases h
    exact .completed ticket value hcall
  next hcall =>
    cases h
    exact .unfilled ticket hcall
  next slot hcall =>
    cases h
    exact .stale ticket slot hcall
  next => cases h

theorem expire_move (h : world.expire ticket = some next) : Move world action next := by
  unfold expire at h
  split at h
  next slot hcall =>
    cases h
    exact .expired ticket slot hcall
  next => cases h

theorem withdraw_move (h : world.withdraw ticket = some next) :
    Move world (.withdraw ticket) next := by
  unfold withdraw FontCoordinatorState.cancelQueued at h
  split at h
  next settled slot hcall =>
    cases hfind : world.state.queue.find? (·.ticket = ticket) with
    | none =>
      rw [hfind] at h
      cases h
      exact .timedOut ticket settled slot rfl hcall hfind
    | some command =>
      rw [hfind] at h
      cases h
      exact .withdrawn ticket settled slot command hcall hfind
  next => cases h

theorem step_move {action : FontAction V} (h : world.step action = some next) :
    Move world action next := by
  cases action with
  | attach thread context =>
    rw [← Option.some.inj h]
    exact attach_move thread context
  | dropLease => exact dropLease_move h
  | shutdown thread =>
    cases h
    exact .stopped thread rfl
  | retire => exact retire_move h
  | advance thread context =>
    rw [← Option.some.inj h]
    exact enter_move false thread context
  | withActiveManager thread context =>
    rw [← Option.some.inj h]
    exact enter_move true thread context
  | borrow => exact borrow_move h
  | pop => exact pop_move h
  | run => exact run_move h
  | finish => exact finish_move h
  | panic => exact panic_move h
  | settle => exact settle_move h
  | advanced => exact advanced_move h
  | markFailed => exact markFailed_move h
  | enqueue retainedBytes limits =>
    rw [← Option.some.inj h]
    exact enqueue_move retainedBytes limits
  | wake => exact wake_move h
  | expire => exact expire_move h
  | withdraw => exact withdraw_move h

end Moves

end FontWorld

end Nexus.RuntimeFonts
