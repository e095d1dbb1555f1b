import Nexus.EventLog
import Nexus.FontCommandMoves
import Nexus.Tally

namespace Nexus.RuntimeFonts

/-- The thread is inside `advance` or `with_active_manager`. -/
def SessionUse.live (thread : Nat) (use : SessionUse) : Bool :=
  use.thread = thread ∧ use.phase ≠ .left

def SessionUse.executing (use : SessionUse) : Option PendingFontCommand :=
  match use.phase with
  | .holding command | .running command => some command
  | .entering _ | .popping | .settling _ _ | .advancing | .inline | .failing | .left => none

def FontPhase.borrows : FontPhase → Bool
  | .popping | .holding _ | .running _ | .settling _ _ | .advancing | .inline => true
  | .entering _ | .failing | .left => false

namespace FontWorld

variable {V : Type}

/-- Each thread uses its session at most once at a time, and an attachment has one thread. -/
structure Threads (world : FontWorld V) : Prop where
  single : ∀ thread, world.uses.countP (·.live thread) ≤ 1
  borrowed : ∀ use ∈ world.uses, use.phase.borrows = true →
    (world.sessions use.thread).map FontSession.attachmentId = some use.attachmentId
  known : ∀ use ∈ world.uses, use.attachmentId ≤ world.state.nextAttachmentId
  owner : ∀ use ∈ world.uses, ∀ active, world.state.active = some active →
    active.attachmentId = use.attachmentId → active.renderThread = use.thread
  same : ∀ use ∈ world.uses, ∀ other ∈ world.uses, use.attachmentId = other.attachmentId →
    use.thread = other.thread
  latest : ∀ active, world.state.active = some active →
    active.attachmentId = world.state.nextAttachmentId

section Threads

variable {world next : FontWorld V} {action : FontAction V} {thread : Nat} {use : SessionUse}

theorem busy_eq_false (h : world.busy thread = false) (huse : use ∈ world.uses) :
    use.live thread = false :=
  List.any_eq_false.mp h use huse |> Bool.eq_false_iff.mpr

theorem Threads.unique (h : Threads world) {other : SessionUse} (huse : use ∈ world.uses)
    (hother : other ∈ world.uses) (hthread : other.thread = use.thread)
    (hlive : use.phase ≠ .left) (hlive' : other.phase ≠ .left) : use = other :=
  countP_unique (h.single use.thread) huse hother (decide_eq_true ⟨rfl, hlive⟩)
    (decide_eq_true ⟨hthread, hlive'⟩)

theorem countP_live_set {uses : List SessionUse} {index : Nat} (huse : uses[index]? = some use)
    {phase : FontPhase} (hlive : use.phase ≠ .left) (thread : Nat) :
    (uses.set index { use with phase }).countP (·.live thread) ≤ uses.countP (·.live thread) := by
  obtain ⟨hindex, heq⟩ := List.getElem?_eq_some_iff.mp huse
  rw [List.countP_set hindex, heq]
  by_cases hthread : use.thread = thread
  · have hold : use.live thread = true := decide_eq_true ⟨hthread, hlive⟩
    have hpos : 0 < uses.countP (·.live thread) :=
      List.countP_pos_iff.mpr ⟨use, List.mem_of_getElem? huse, hold⟩
    rw [if_pos hold]
    split <;> omega
  · have hnew : SessionUse.live thread { use with phase } = false :=
      decide_eq_false fun hboth => hthread hboth.1
    rw [hnew]
    simp

theorem Threads.used (h : Threads world) {index : Nat} (huse : world.uses[index]? = some use)
    (phase : FontPhase) (hlive : use.phase ≠ .left) (hborrows : phase.borrows = true →
      (world.sessions use.thread).map FontSession.attachmentId = some use.attachmentId) :
    Threads (world.moved index use phase) := by
  have hmem := List.mem_of_getElem? huse
  have hcases {other : SessionUse} (hother : other ∈ (world.moved index use phase).uses) :
      other ∈ world.uses ∨ other = { use with phase } := List.mem_or_eq_of_mem_set hother
  refine ⟨fun thread => Nat.le_trans (countP_live_set huse hlive thread) (h.single thread),
    fun other hother => ?_, fun other hother => ?_, fun other hother => ?_,
    fun first hfirst second hsecond => ?_, h.latest⟩
  · rcases hcases hother with hold | rfl
    · exact h.borrowed other hold
    · exact hborrows
  · rcases hcases hother with hold | rfl
    · exact h.known other hold
    · exact h.known use hmem
  · rcases hcases hother with hold | rfl
    · exact h.owner other hold
    · exact h.owner use hmem
  · rcases hcases hfirst with hold | rfl
    · rcases hcases hsecond with hold' | rfl
      · exact h.same first hold second hold'
      · exact h.same first hold use hmem
    · rcases hcases hsecond with hold' | rfl
      · exact h.same use hmem second hold'
      · exact fun _ => rfl

variable {other : FontWorld V}

theorem Threads.of_active (h : Threads world) (huses : other.uses = world.uses)
    (hsessions : other.sessions = world.sessions)
    (hnext : other.state.nextAttachmentId = world.state.nextAttachmentId)
    (hactive : ∀ active, other.state.active = some active → world.state.active = some active) :
    Threads other := by
  refine ⟨?_, ?_, ?_, ?_, ?_, fun active hsome => ?_⟩
  · rw [huses]
    exact h.single
  · rw [huses, hsessions]
    exact h.borrowed
  · rw [huses, hnext]
    exact h.known
  · rw [huses]
    exact fun use huse active hsome => h.owner use huse active (hactive active hsome)
  · rw [huses]
    exact h.same
  · rw [hnext]
    exact h.latest active (hactive active hsome)

variable {attachmentId : Nat} {state : FontCoordinatorState}

theorem detach_active {active : ActiveFontSession}
    (h : (state.detach attachmentId).active = some active) :
    state.active = some active ∧ active.attachmentId ≠ attachmentId := by
  unfold FontCoordinatorState.detach at h
  split at h
  next => cases h
  next hother =>
    refine ⟨h, fun heq => hother ?_⟩
    rw [h, Option.map_some, heq]

theorem detach_next (attachmentId : Nat) (state : FontCoordinatorState) :
    (state.detach attachmentId).nextAttachmentId = state.nextAttachmentId := by
  unfold FontCoordinatorState.detach
  split <;> rfl

theorem Threads.attached (h : Threads world) (hfree : world.busy thread = false)
    (session : FontSession)
    (hnext : other.state.nextAttachmentId = world.state.nextAttachmentId + 1)
    (hactive : other.state.active = some ⟨world.state.nextAttachmentId + 1, thread⟩)
    (huses : other.uses = world.uses)
    (hsessions : other.sessions = Function.update world.sessions thread (some session)) :
    Threads other := by
  refine ⟨?_, ?_, ?_, ?_, ?_, ?_⟩
  · rw [huses]
    exact h.single
  · rw [huses, hsessions]
    intro use huse hborrows
    have hne : use.thread ≠ thread := by
      intro heq
      have hlive := of_decide_eq_false (busy_eq_false hfree huse)
      refine hlive ⟨heq, fun hleft => ?_⟩
      rw [hleft] at hborrows
      cases hborrows
    rw [Function.update_of_ne hne]
    exact h.borrowed use huse hborrows
  · rw [huses, hnext]
    exact fun use huse => Nat.le_succ_of_le (h.known use huse)
  · rw [huses, hactive]
    intro use huse active hsome heq
    cases hsome
    have hknown := h.known use huse
    dsimp only at heq
    omega
  · rw [huses]
    exact h.same
  · rw [hactive, hnext]
    intro active hsome
    cases hsome
    rfl

theorem activeAttachmentOn_eq (h : state.activeAttachmentOn thread = some attachmentId) :
    state.active = some ⟨attachmentId, thread⟩ := by
  unfold FontCoordinatorState.activeAttachmentOn at h
  split at h
  next => cases h
  next =>
    obtain ⟨⟨_, _⟩, hactive, hid⟩ := Option.bind_eq_some_iff.mp h
    obtain ⟨hthread, heq⟩ := Option.ite_none_right_eq_some.mp hid
    cases heq
    cases hthread
    exact hactive

theorem Threads.entered (h : Threads world) {inline : Bool} {thread context attachmentId : Nat}
    (hfree : world.busy thread = false)
    (hactive : world.state.activeAttachmentOn thread = some attachmentId) :
    Threads { world with
      uses := world.uses ++ [⟨thread, attachmentId, context, .entering inline⟩] } := by
  have hactive := activeAttachmentOn_eq hactive
  have hcases {use : SessionUse}
      (huse : use ∈ world.uses ++ [⟨thread, attachmentId, context, .entering inline⟩]) :
      use ∈ world.uses ∨ use = ⟨thread, attachmentId, context, .entering inline⟩ :=
    (List.mem_append.mp huse).imp_right List.mem_singleton.mp
  refine ⟨fun other => ?_, fun use huse => ?_, fun use huse => ?_, fun use huse => ?_,
    fun first hfirst second hsecond => ?_, h.latest⟩
  · dsimp only
    rw [List.countP_append, List.countP_singleton]
    have hsingle := h.single other
    split
    next hlive =>
      obtain ⟨rfl, _⟩ := of_decide_eq_true hlive
      have hnone : world.uses.countP (·.live thread) = 0 :=
        List.countP_eq_zero.mpr fun use huse => Bool.eq_false_iff.mp (busy_eq_false hfree huse)
      rw [hnone]
    next => exact hsingle
  · rcases hcases huse with hold | rfl
    · exact h.borrowed use hold
    · exact nofun
  · rcases hcases huse with hold | rfl
    · exact h.known use hold
    · exact Nat.le_of_eq (h.latest _ hactive)
  · rcases hcases huse with hold | rfl
    · exact h.owner use hold
    · intro active hsome _
      have hsame := hactive.symm.trans hsome
      cases hsame
      rfl
  · rcases hcases hfirst with hold | rfl
    · rcases hcases hsecond with hold' | rfl
      · exact h.same first hold second hold'
      · exact fun heq => (h.owner first hold _ hactive heq.symm).symm
    · rcases hcases hsecond with hold' | rfl
      · exact fun heq => h.owner second hold' _ hactive heq
      · exact fun _ => rfl

theorem Threads.of_sessions (h : Threads world) {sessions : Nat → Option FontSession}
    (hsame : ∀ use ∈ world.uses, use.phase.borrows = true →
      (sessions use.thread).map FontSession.attachmentId =
        (world.sessions use.thread).map FontSession.attachmentId) :
    Threads { world with sessions } := by
  refine ⟨h.single, fun use huse hborrows => ?_, h.known, h.owner, h.same, h.latest⟩
  exact (hsame use huse hborrows).trans (h.borrowed use huse hborrows)

theorem Threads.failed (h : Threads world) {thread : Nat} {change : FontSession → FontSession}
    (hkept : ∀ session, (change session).attachmentId = session.attachmentId) :
    Threads { world with
      sessions := Function.update world.sessions thread ((world.sessions thread).map change) } := by
  refine h.of_sessions fun use _ _ => ?_
  by_cases hthread : use.thread = thread
  · rw [hthread, Function.update_self, Option.map_map]
    exact congrArg (Option.map · (world.sessions thread)) (funext hkept)
  · rw [Function.update_of_ne hthread]

theorem Threads.took (h : Threads world) (thread : Nat) (session : Option Nat) :
    Threads (world.takeSession thread session) := by
  unfold takeSession
  split
  next htaken =>
    refine h.of_sessions fun use huse hborrows => ?_
    have hne : use.thread ≠ thread := by
      intro heq
      have hlive := of_decide_eq_false (busy_eq_false htaken.2.1 huse)
      refine hlive ⟨heq, fun hleft => ?_⟩
      rw [hleft] at hborrows
      cases hborrows
    rw [Function.update_of_ne hne]
  next => exact h

theorem borrowed_borrows {inline : Bool} {session : Option FontSession}
    (h : (borrowed inline use session).borrows = true) :
    session.map FontSession.attachmentId = some use.attachmentId := by
  unfold borrowed at h
  split at h
  next => cases h
  next =>
    split at h
    next => cases h
    next hmatches =>
      rw [Option.map_some, Decidable.not_not.mp (not_or.mp hmatches).1]

theorem Threads.move (h : Threads world) (hmove : Move world action next) : Threads next := by
  cases hmove with
  | same => exact h
  | attached _ _ _ _ _ hfree => exact h.attached hfree _ rfl rfl rfl rfl
  | detached =>
    exact h.of_active rfl rfl (detach_next _ _) fun _ hsome => (detach_active hsome).1
  | stopped => exact h.of_active rfl rfl rfl nofun
  | emptied | canceledNext | refused | completed | unfilled | stale | expired | accepted | timedOut
  | withdrawn =>
    exact h.of_active rfl rfl rfl fun _ hsome => hsome
  | retired _ retirement =>
    have htook := h.took retirement.thread retirement.session
    exact htook.of_active rfl rfl rfl fun _ hsome => hsome
  | entered _ _ _ _ hfree hactive => exact h.entered hfree hactive
  | borrowed _ _ _ huse hphase =>
    exact h.used huse _ (by rw [hphase]; nofun) borrowed_borrows
  | emptyQueue _ use huse hphase =>
    have hborrowed := h.borrowed use (List.mem_of_getElem? huse) (by rw [hphase]; rfl)
    exact h.used huse _ (by rw [hphase]; nofun) fun _ => hborrowed
  | taken _ use command _ _ huse hphase =>
    have hborrowed := h.borrowed use (List.mem_of_getElem? huse) (by rw [hphase]; rfl)
    have hused := h.used huse (.holding command) (by rw [hphase]; nofun) fun _ => hborrowed
    exact hused.of_active rfl rfl rfl fun _ hsome => hsome
  | rejected _ use command _ _ huse hphase =>
    have hborrowed := h.borrowed use (List.mem_of_getElem? huse) (by rw [hphase]; rfl)
    have hused := h.used huse (.settling command .canceled) (by rw [hphase]; nofun)
      fun _ => hborrowed
    exact hused.of_active rfl rfl rfl fun _ hsome => hsome
  | started _ use command huse hphase =>
    have hborrowed := h.borrowed use (List.mem_of_getElem? huse) (by rw [hphase]; rfl)
    have hused := h.used huse (.running command) (by rw [hphase]; nofun) fun _ => hborrowed
    exact hused.of_active rfl rfl rfl fun _ hsome => hsome
  | finished _ use command _ huse hphase =>
    have hborrowed := h.borrowed use (List.mem_of_getElem? huse) (by rw [hphase]; rfl)
    have hused := h.used huse (.settling command .completed) (by rw [hphase]; nofun)
      fun _ => hborrowed
    exact hused.of_active rfl rfl rfl fun _ hsome => hsome
  | commandPanicked _ _ _ huse hphase =>
    have hused := h.used huse .failing (by rw [hphase]; nofun) nofun
    exact hused.of_active rfl rfl rfl fun _ hsome => hsome
  | ended _ _ _ huse hold hnew =>
    refine h.used huse _ ?_ ?_
    · rcases hold with hold | hold <;> rw [hold] <;> nofun
    · rcases hnew with rfl | rfl <;> nofun
  | settled _ use _ _ huse hphase =>
    have hborrowed := h.borrowed use (List.mem_of_getElem? huse) (by rw [hphase]; rfl)
    have hused := h.used huse .popping (by rw [hphase]; nofun) fun _ => hborrowed
    exact hused.of_active rfl rfl rfl fun _ hsome => hsome
  | failed _ use _ huse hold hkept =>
    have hlive : use.phase ≠ .left := by rcases hold with hold | hold <;> rw [hold] <;> nofun
    exact (h.used huse .left hlive nofun).failed hkept

end Threads

/-- Commands are accepted in the order of their tickets, and those of one attachment start in it. -/
def InOrder (event : FontEvent V) (earlier : List (FontEvent V)) : Prop :=
  match event with
  | .accepted command => ∀ other, .accepted other ∈ earlier → other.ticket < command.ticket
  | .started command => ∀ other, .started other ∈ earlier →
      other.attachmentId = command.attachmentId → other.ticket < command.ticket
  | _ => True

def quiet : FontEvent V → Bool
  | .accepted _ | .taken _ | .started _ => false
  | .attached _ | .detached _ | .stopped | .gaveUp _ | .completed _ _ | .panicked _ | .canceled _
  | .returned _ _ => true

structure Ordered (world : FontWorld V) : Prop where
  queue : world.state.queue.Pairwise (·.ticket < ·.ticket)
  waiting : ∀ command ∈ world.state.queue, .accepted command ∈ world.log
  accepted : ∀ command, .accepted command ∈ world.log → command.ticket < world.calls.length
  taken : ∀ command, .taken command ∈ world.log → .accepted command ∈ world.log ∧
    ∀ other ∈ world.state.queue, command.ticket < other.ticket
  started : ∀ command, .started command ∈ world.log → .taken command ∈ world.log
  holding : ∀ use ∈ world.uses, ∀ command, use.phase = .holding command →
    command.attachmentId = use.attachmentId ∧ .taken command ∈ world.log ∧
      ∀ other, .started other ∈ world.log → other.attachmentId = command.attachmentId →
        other.ticket < command.ticket
  log : EachEvent InOrder world.log

section Ordered

variable {world next : FontWorld V} {action : FontAction V}

theorem eachEvent_quiet {log : List (FontEvent V)} (h : EachEvent InOrder log)
    {events : List (FontEvent V)} (hquiet : ∀ event ∈ events, quiet event = true) :
    EachEvent InOrder (events ++ log) := by
  induction events with
  | nil => exact h
  | cons event _ ih =>
    refine ⟨?_, ih fun other hmem => hquiet other (List.mem_cons_of_mem _ hmem)⟩
    have hevent := hquiet event List.mem_cons_self
    cases event with
    | accepted | taken | started => cases hevent
    | attached | detached | stopped | gaveUp | completed | panicked | canceled | returned => trivial

theorem Ordered.framed (h : Ordered world) {other : FontWorld V} (events : List (FontEvent V))
    (hlog : other.log = events ++ world.log) (hquiet : ∀ event ∈ events, quiet event = true)
    (hqueue : other.state.queue.Sublist world.state.queue)
    (huses : ∀ use ∈ other.uses, ∀ command, use.phase = .holding command → use ∈ world.uses)
    (hcalls : world.calls.length ≤ other.calls.length) : Ordered other := by
  have hold {event : FontEvent V} (hmem : event ∈ world.log) : event ∈ other.log := by
    rw [hlog]
    exact List.mem_append_right _ hmem
  have hloud {event : FontEvent V} (hmem : event ∈ other.log) (hevent : quiet event = false) :
      event ∈ world.log := by
    rw [hlog] at hmem
    rcases List.mem_append.mp hmem with hnew | hmem
    · rw [hquiet event hnew] at hevent
      cases hevent
    · exact hmem
  refine ⟨h.queue.sublist hqueue, fun command hmem => ?_, fun command hmem => ?_,
    fun command hmem => ?_, fun command hmem => ?_, fun use huse command hphase => ?_, ?_⟩
  · exact hold (h.waiting command (hqueue.subset hmem))
  · exact Nat.lt_of_lt_of_le (h.accepted command (hloud hmem rfl)) hcalls
  · obtain ⟨haccepted, hbefore⟩ := h.taken command (hloud hmem rfl)
    exact ⟨hold haccepted, fun other hother => hbefore other (hqueue.subset hother)⟩
  · exact hold (h.started command (hloud hmem rfl))
  · obtain ⟨hown, htaken, hstarted⟩ := h.holding use (huses use huse command hphase) command hphase
    exact ⟨hown, hold htaken, fun other hmem => hstarted other (hloud hmem rfl)⟩
  · rw [hlog]
    exact eachEvent_quiet h.log hquiet

variable {index : Nat} {use : SessionUse} {command : PendingFontCommand}

theorem holding_of_set {new : SessionUse} (huse : use ∈ world.uses.set index new)
    (hphase : use.phase = .holding command) (hnew : ∀ command, new.phase ≠ .holding command) :
    use ∈ world.uses := by
  rcases List.mem_or_eq_of_mem_set huse with hold | rfl
  · exact hold
  · exact absurd hphase (hnew command)

variable {queuedBytes : Nat}

theorem Ordered.accepted_move (h : Ordered world) (hticket : command.ticket = world.calls.length)
    {call : FontCall V} :
    Ordered { world with
      state := { world.state with queuedBytes, queue := world.state.queue ++ [command] }
      calls := world.calls ++ [call]
      log := .accepted command :: world.log } := by
  have hbefore {other : PendingFontCommand} (hmem : .accepted other ∈ world.log) :
      other.ticket < command.ticket := hticket ▸ h.accepted other hmem
  refine ⟨?_, fun other hmem => ?_, fun other hmem => ?_, fun other hmem => ?_, fun other hmem => ?_,
    fun use huse other hphase => ?_, ⟨fun other hmem => hbefore hmem, h.log⟩⟩
  · refine List.pairwise_append.mpr ⟨h.queue, List.pairwise_singleton .., fun first hfirst last hlast => ?_⟩
    cases List.mem_singleton.mp hlast
    exact hbefore (h.waiting first hfirst)
  · rcases List.mem_append.mp hmem with hold | hnew
    · exact List.mem_cons_of_mem _ (h.waiting other hold)
    · cases List.mem_singleton.mp hnew
      exact List.mem_cons_self
  · dsimp only
    rw [List.length_append]
    rcases List.mem_cons.mp hmem with heq | hold
    · cases heq
      rw [hticket]
      exact Nat.lt_succ_self _
    · exact Nat.lt_succ_of_lt (h.accepted other hold)
  · have hold := (List.mem_cons.mp hmem).resolve_left nofun
    obtain ⟨haccepted, hqueued⟩ := h.taken other hold
    refine ⟨List.mem_cons_of_mem _ haccepted, fun last hlast => ?_⟩
    rcases List.mem_append.mp hlast with hlast | hnew
    · exact hqueued last hlast
    · cases List.mem_singleton.mp hnew
      exact hbefore haccepted
  · exact List.mem_cons_of_mem _ (h.started other ((List.mem_cons.mp hmem).resolve_left nofun))
  · obtain ⟨hown, htaken, hstarted⟩ := h.holding use huse other hphase
    exact ⟨hown, List.mem_cons_of_mem _ htaken, fun last hmem =>
      hstarted last ((List.mem_cons.mp hmem).resolve_left nofun)⟩

theorem Ordered.taken_move (h : Ordered world) {queue : List PendingFontCommand}
    (hqueue : world.state.queue = command :: queue)
    (hown : command.attachmentId = use.attachmentId) :
    Ordered { world.moved index use (.holding command) with
      state := { world.state with queue, queuedBytes }
      log := .taken command :: world.log } := by
  have hpairs := h.queue
  rw [hqueue] at hpairs
  obtain ⟨hfirst, hrest⟩ := List.pairwise_cons.mp hpairs
  have hmember {other : PendingFontCommand} (hmem : other ∈ queue) : other ∈ world.state.queue := by
    rw [hqueue]
    exact List.mem_cons_of_mem _ hmem
  have hfront : command ∈ world.state.queue := by
    rw [hqueue]
    exact List.mem_cons_self
  refine ⟨hrest, fun other hmem => ?_, fun other hmem => ?_, fun other hmem => ?_,
    fun other hmem => ?_, fun user huser other hphase => ?_, ⟨trivial, h.log⟩⟩
  · exact List.mem_cons_of_mem _ (h.waiting other (hmember hmem))
  · exact h.accepted other ((List.mem_cons.mp hmem).resolve_left nofun)
  · rcases List.mem_cons.mp hmem with heq | hold
    · cases heq
      exact ⟨List.mem_cons_of_mem _ (h.waiting command hfront), hfirst⟩
    · obtain ⟨haccepted, hqueued⟩ := h.taken other hold
      exact ⟨List.mem_cons_of_mem _ haccepted, fun last hlast => hqueued last (hmember hlast)⟩
  · exact List.mem_cons_of_mem _ (h.started other ((List.mem_cons.mp hmem).resolve_left nofun))
  · rcases List.mem_or_eq_of_mem_set huser with hold | rfl
    · obtain ⟨hother, htaken, hstarted⟩ := h.holding user hold other hphase
      exact ⟨hother, List.mem_cons_of_mem _ htaken, fun last hmem =>
        hstarted last ((List.mem_cons.mp hmem).resolve_left nofun)⟩
    · cases hphase
      refine ⟨hown, List.mem_cons_self, fun last hmem _ => ?_⟩
      have hstarted := h.started last ((List.mem_cons.mp hmem).resolve_left nofun)
      exact (h.taken last hstarted).2 command hfront

theorem Ordered.started_move (h : Ordered world) (huse : world.uses[index]? = some use)
    (hphase : use.phase = .holding command)
    (hthreads : Threads (world.moved index use (.running command))) :
    Ordered { world.moved index use (.running command) with
      log := .started command :: world.log } := by
  obtain ⟨hown, htaken, hstarted⟩ := h.holding use (List.mem_of_getElem? huse) command hphase
  refine ⟨h.queue, fun other hmem => List.mem_cons_of_mem _ (h.waiting other hmem),
    fun other hmem => ?_, fun other hmem => ?_, fun other hmem => ?_,
    fun user huser other hholding => ?_, ⟨hstarted, h.log⟩⟩
  · exact h.accepted other ((List.mem_cons.mp hmem).resolve_left nofun)
  · obtain ⟨haccepted, hqueued⟩ := h.taken other ((List.mem_cons.mp hmem).resolve_left nofun)
    exact ⟨List.mem_cons_of_mem _ haccepted, hqueued⟩
  · rcases List.mem_cons.mp hmem with heq | hold
    · cases heq
      exact List.mem_cons_of_mem _ htaken
    · exact List.mem_cons_of_mem _ (h.started other hold)
  · have huser' := holding_of_set huser hholding fun _ => nofun
    obtain ⟨hother, htaken', hstarted'⟩ := h.holding user huser' other hholding
    refine ⟨hother, List.mem_cons_of_mem _ htaken', fun last hmem hsame => ?_⟩
    rcases List.mem_cons.mp hmem with heq | hold
    · cases heq
      -- both threads would use the attachment's session
      have hrunner : { use with phase := .running command } ∈
          (world.moved index use (.running command)).uses :=
        List.mem_of_getElem? (List.getElem?_set_self (List.getElem?_eq_some_iff.mp huse).1)
      have hattachment : user.attachmentId = use.attachmentId := by rw [← hother, ← hsame, hown]
      have hthread := hthreads.same user huser _ hrunner hattachment
      have heq := hthreads.unique hrunner huser hthread nofun (by rw [hholding]; nofun)
      rw [← heq] at hholding
      cases hholding
    · exact hstarted' last hold hsame

theorem Ordered.move (h : Ordered world) (hthreads : Threads world)
    (hmove : Move world action next) : Ordered next := by
  cases hmove with
  | same => exact h
  | attached | stopped =>
    exact h.framed [_] rfl (by simp [quiet]) (.refl _) (fun _ huse _ _ => huse) (Nat.le_refl _)
  | detached _ lease =>
    have hqueue : (world.state.detach lease.attachmentId).queue = world.state.queue := by
      unfold FontCoordinatorState.detach
      split <;> rfl
    refine h.framed [_] rfl (by simp [quiet]) ?_ (fun _ huse _ _ => huse) (Nat.le_refl _)
    dsimp only
    rw [hqueue]
  | emptied =>
    exact h.framed [_] rfl (by simp [quiet]) (List.nil_sublist _) (fun _ huse _ _ => huse)
      (Nat.le_refl _)
  | canceledNext =>
    refine h.framed [] rfl nofun (.refl _) (fun _ huse _ _ => huse) ?_
    unfold settleTicket
    rw [List.length_modify]
  | retired =>
    unfold takeSession
    split
    · exact h.framed [] rfl nofun (.refl _) (fun _ huse _ _ => huse) (Nat.le_refl _)
    · exact h.framed [] rfl nofun (.refl _) (fun _ huse _ _ => huse) (Nat.le_refl _)
  | entered =>
    refine h.framed [] rfl nofun (.refl _) (fun use huse command hphase => ?_) (Nat.le_refl _)
    rcases List.mem_append.mp huse with hold | hnew
    · exact hold
    · cases List.mem_singleton.mp hnew
      cases hphase
  | borrowed =>
    refine h.framed [] rfl nofun (.refl _) (fun user huser command hholding => ?_) (Nat.le_refl _)
    refine holding_of_set huser hholding fun command heq => ?_
    dsimp only at heq
    unfold borrowed at heq
    split at heq
    · cases heq
    · split at heq
      · cases heq
      · split at heq
        · split at heq <;> cases heq
        · cases heq
  | emptyQueue | failed =>
    exact h.framed [] rfl nofun (.refl _)
      (fun _ huser _ hholding => holding_of_set huser hholding fun _ => nofun) (Nat.le_refl _)
  | taken _ _ _ _ _ _ _ hqueue hown => exact h.taken_move hqueue hown
  | rejected _ _ _ _ _ _ _ hqueue =>
    refine h.framed [_] rfl (by simp [quiet]) ?_
      (fun _ huser _ hholding => holding_of_set huser hholding fun _ => nofun) (Nat.le_refl _)
    rw [hqueue]
    exact List.sublist_cons_self ..
  | started _ use _ huse hphase =>
    have hborrowed := hthreads.borrowed use (List.mem_of_getElem? huse) (by rw [hphase]; rfl)
    exact h.started_move huse hphase (hthreads.used huse _ (by rw [hphase]; nofun) fun _ => hborrowed)
  | finished =>
    refine h.framed [_] rfl (by simp [quiet]) (.refl _)
      (fun _ huser _ hholding => holding_of_set huser hholding fun _ => nofun) ?_
    rw [List.length_modify]
  | commandPanicked =>
    exact h.framed [_] rfl (by simp [quiet]) (.refl _)
      (fun _ huser _ hholding => holding_of_set huser hholding fun _ => nofun) (Nat.le_refl _)
  | ended _ _ _ _ _ hnew =>
    refine h.framed [] rfl nofun (.refl _) (fun _ huser _ hholding => ?_) (Nat.le_refl _)
    refine holding_of_set huser hholding fun command heq => ?_
    rcases hnew with rfl | rfl <;> cases heq
  | settled =>
    refine h.framed [] rfl nofun (.refl _)
      (fun _ huser _ hholding => holding_of_set huser hholding fun _ => nofun) ?_
    unfold settleTicket
    rw [List.length_modify]
  | refused =>
    refine h.framed [_] rfl (by simp [quiet]) (.refl _) (fun _ huse _ _ => huse) ?_
    rw [List.length_append]
    exact Nat.le_add_right ..
  | accepted => exact h.accepted_move rfl
  | completed | unfilled | stale | timedOut =>
    refine h.framed [_] rfl (by simp [quiet]) (.refl _) (fun _ huse _ _ => huse) ?_
    unfold returning
    rw [List.length_set]
  | expired =>
    refine h.framed [_] rfl (by simp [quiet]) (.refl _) (fun _ huse _ _ => huse) ?_
    rw [List.length_set]
  | withdrawn =>
    refine h.framed [_, _] rfl (by simp [quiet]) List.eraseP_sublist (fun _ huse _ _ => huse) ?_
    rw [List.length_set]

end Ordered

end FontWorld

end Nexus.RuntimeFonts
