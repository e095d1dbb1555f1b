import Nexus.SelectionQueue

namespace Nexus.Selection

open StepRuns SelectionTransitionState

variable {δ : Type}

inductive Position (state : SelectionTransitionState δ) : List (Drainer δ) → Prop
  | quiet : state.draining = false → state.inFlight = none → state.skippedThrough = none →
      state.hasReadyTransition = false → Position state []
  | looping : state.draining = true → state.inFlight = none → Position state [.looping]
  | reporting {sequence attempts : Nat} {diagnostic : δ} {reset : Bool} : state.draining = true →
      state.inFlight = some ⟨sequence, reset⟩ →
      state.pending.get? sequence = some (.deferred diagnostic) →
      Position state [.reporting sequence diagnostic attempts]
  | reported {sequence : Nat} {reset : Bool} : state.draining = true →
      state.inFlight = some ⟨sequence, reset⟩ → Position state [.reported sequence]
  | failed {inFlight : SelectionTransitionInFlight} : state.draining = true →
      state.inFlight = some inFlight → Position state [.failed]

def enqueued (sequence : Nat) (transition : SelectionTransition δ)
    (state : SelectionTransitionState δ) : SelectionTransitionState δ :=
  (state.insert sequence transition).advanceOverflowSkip

def logged (sequence : Nat) (transition : SelectionTransition δ) (world : SelectionWorld δ) :
    List (SelectionEvent δ) :=
  if world.state.overloads sequence transition then
    .overloaded :: .enqueued sequence transition :: world.log
  else .enqueued sequence transition :: world.log

inductive Move : SelectionWorld δ → SelectionWorld δ → Prop
  | queued {world : SelectionWorld δ} {sequence : Nat} {transition : SelectionTransition δ} :
      sequence < 2 ^ 64 →
      ((enqueued sequence transition world.state).draining = true ∨
        (enqueued sequence transition world.state).hasReadyTransition = false) →
      Move world ⟨enqueued sequence transition world.state, world.drainers,
        logged sequence transition world⟩
  | woken {world : SelectionWorld δ} {sequence : Nat} {transition : SelectionTransition δ} :
      sequence < 2 ^ 64 → world.drainers = [] → world.state.inFlight = none →
      Move world ⟨{ enqueued sequence transition world.state with draining := true }, [.looping],
        logged sequence transition world⟩
  | idle {state : SelectionTransitionState δ} {log : List (SelectionEvent δ)} :
      state.inFlight = none → state.advanceOverflowSkip.hasReadyTransition = false →
      Move ⟨state, [.looping], log⟩
        ⟨{ state.advanceOverflowSkip with draining := false }, [], log⟩
  | resolved {state : SelectionTransitionState δ} {log : List (SelectionEvent δ)} {sequence : Nat} :
      state.inFlight = none →
      state.advanceOverflowSkip.pending.get? sequence = some .resolved →
      sequence = state.advanceOverflowSkip.latest + 1 →
      Move ⟨state, [.looping], log⟩ ⟨{ state.advanceOverflowSkip with
          resetDeferralBeforeNext := false
          pending := state.advanceOverflowSkip.pending.erase sequence
          latestSequence := some sequence
          deferral := none }, [.looping], .processed sequence .resolved false :: log⟩
  | repeated {state : SelectionTransitionState δ} {log : List (SelectionEvent δ)} {sequence : Nat}
      {diagnostic : δ} : state.inFlight = none →
      state.advanceOverflowSkip.pending.get? sequence = some (.deferred diagnostic) →
      sequence = state.advanceOverflowSkip.latest + 1 →
      state.resetDeferralBeforeNext = false → state.deferral = some diagnostic →
      Move ⟨state, [.looping], log⟩ ⟨{ state.advanceOverflowSkip with
          resetDeferralBeforeNext := false
          pending := state.advanceOverflowSkip.pending.erase sequence
          latestSequence := some sequence }, [.looping],
        .processed sequence (.deferred diagnostic) false :: log⟩
  | report {state : SelectionTransitionState δ} {log : List (SelectionEvent δ)} {sequence : Nat}
      {diagnostic : δ} : state.inFlight = none →
      state.advanceOverflowSkip.pending.get? sequence = some (.deferred diagnostic) →
      sequence = state.advanceOverflowSkip.latest + 1 →
      ¬ (state.resetDeferralBeforeNext = false ∧ state.deferral = some diagnostic) →
      Move ⟨state, [.looping], log⟩ ⟨{ state.advanceOverflowSkip with
          resetDeferralBeforeNext := false
          inFlight := some ⟨sequence, state.advanceOverflowSkip.resetDeferralBeforeNext⟩ },
        [.reporting sequence diagnostic 0], .processed sequence (.deferred diagnostic) true :: log⟩
  | reported {state : SelectionTransitionState δ} {log : List (SelectionEvent δ)}
      {sequence attempts : Nat} {diagnostic : δ} {reset : Bool} :
      state.inFlight = some ⟨sequence, reset⟩ →
      state.pending.get? sequence = some (.deferred diagnostic) →
      Move ⟨state, [.reporting sequence diagnostic attempts], log⟩
        ⟨state, [.reported sequence], .reported sequence diagnostic :: log⟩
  | panicked {state : SelectionTransitionState δ} {log : List (SelectionEvent δ)}
      {sequence attempts : Nat} {diagnostic : δ} {next : Drainer δ} :
      next = .failed ∨ next = .reporting sequence diagnostic (attempts + 1) →
      Move ⟨state, [.reporting sequence diagnostic attempts], log⟩ ⟨state, [next], log⟩
  | committed {state : SelectionTransitionState δ} {log : List (SelectionEvent δ)}
      {inFlight : SelectionTransitionInFlight} {diagnostic : δ} :
      state.inFlight = some inFlight →
      state.pending.get? inFlight.sequence = some (.deferred diagnostic) →
      Move ⟨state, [.reported inFlight.sequence], log⟩ ⟨{ state with
          inFlight := none
          pending := state.pending.erase inFlight.sequence
          latestSequence := some inFlight.sequence
          deferral := some diagnostic }, [.looping], log⟩
  | abandoned {state : SelectionTransitionState δ} {log : List (SelectionEvent δ)} :
      Move ⟨state, [.failed], log⟩ ⟨state.abandonReporterBacklog, [], .abandoned :: log⟩

theorem SelectionTransitionState.Inserted.frame {sequence : Nat} {transition : SelectionTransition δ}
    {state next : SelectionTransitionState δ} (h : Inserted sequence transition state next) :
    next.inFlight = state.inFlight ∧ next.draining = state.draining ∧
      next.latestSequence = state.latestSequence ∧ next.deferral = state.deferral := by
  cases h <;> exact ⟨rfl, rfl, rfl, rfl⟩

theorem enqueued_frame {sequence : Nat} {transition : SelectionTransition δ}
    {state : SelectionTransitionState δ} (h : state.Sound) (hbound : sequence < 2 ^ 64) :
    (enqueued sequence transition state).Sound ∧
      (enqueued sequence transition state).inFlight = state.inFlight ∧
      (enqueued sequence transition state).draining = state.draining ∧
      (enqueued sequence transition state).deferral = state.deferral ∧
      ∀ inFlight, state.inFlight = some inFlight →
        (enqueued sequence transition state).pending.get? inFlight.sequence =
          state.pending.get? inFlight.sequence := by
  obtain ⟨hinserted, hsound, hkept⟩ := @SelectionTransitionState.Sound.insert _ _ _ transition h hbound
  obtain ⟨hflight, hdraining, _, hdeferral⟩ := hinserted.frame
  obtain ⟨hpending, hflight', hdeferral', hdraining', _⟩ := hsound.advance_frame
  unfold enqueued
  refine ⟨hsound.advance, hflight'.trans hflight, hdraining'.trans hdraining,
    hdeferral'.trans hdeferral, fun inFlight hsome => ?_⟩
  rw [hpending]
  exact hkept inFlight hsome

section Steps

variable {world next : SelectionWorld δ} {action : SelectionStep δ}

theorem move_of_enqueue {sequence : Nat} {transition : SelectionTransition δ}
    (hsound : world.state.Sound) (hposition : Position world.state world.drainers)
    (hbound : sequence < 2 ^ 64) : Move world (world.enqueue sequence transition) := by
  obtain ⟨_, _, hdraining, _⟩ := @enqueued_frame _ _ transition _ hsound hbound
  unfold SelectionWorld.enqueue SelectionTransitionState.enqueue
  dsimp only
  by_cases hstays : (enqueued sequence transition world.state).draining = true ∨
      (enqueued sequence transition world.state).hasReadyTransition = false
  · have hcondition : ((enqueued sequence transition world.state).draining ||
        !(enqueued sequence transition world.state).hasReadyTransition) = true := by
      rcases hstays with h | h <;> simp [h]
    unfold enqueued at hcondition
    rw [if_pos hcondition]
    exact .queued hbound hstays
  · have hcondition : ¬ ((enqueued sequence transition world.state).draining ||
        !(enqueued sequence transition world.state).hasReadyTransition) = true := by
      simpa using hstays
    have hidle : world.state.draining = false := by
      rw [← hdraining]
      simpa using fun h => hstays (Or.inl h)
    unfold enqueued at hcondition
    rw [if_neg hcondition]
    obtain ⟨state, drainers, _⟩ := world
    cases hposition with
    | quiet _ hnone => exact .woken hbound rfl hnone
    | looping hbusy | reporting hbusy | reported hbusy | failed hbusy =>
      exact absurd (hidle.symm.trans hbusy) Bool.false_ne_true

theorem only_drainer {drainer other : Drainer δ} {place : Nat}
    (h : [drainer][place]? = some other) : place = 0 ∧ drainer = other := by
  cases place with
  | zero => exact ⟨rfl, Option.some.inj h⟩
  | succ => cases h

variable [DecidableEq δ]

theorem move_of_next {state : SelectionTransitionState δ} {log : List (SelectionEvent δ)}
    (hsound : state.Sound) (hflight : state.inFlight = none) :
    Move ⟨state, [.looping], log⟩ (SelectionWorld.next 0 ⟨state, [.looping], log⟩) := by
  have hacted := hsound.nextAction
  obtain ⟨_, _, hdeferral, _, hreset⟩ := hsound.advance_frame
  unfold SelectionWorld.next
  dsimp only
  generalize state.nextAction = outcome at hacted
  cases hacted with
  | idle hready => exact .idle hflight hready
  | resolved hhead hnext =>
    rw [hhead]
    exact .resolved hflight (get?_of_head? hhead) hnext
  | repeated hhead hnext hkept hsame =>
    rw [hhead]
    exact .repeated hflight (get?_of_head? hhead) hnext (hreset.symm.trans hkept)
      (hdeferral.symm.trans hsame)
  | report hhead hnext hother =>
    refine .report hflight (get?_of_head? hhead) hnext fun hboth => hother ?_
    exact ⟨hreset.trans hboth.1, hdeferral.trans hboth.2⟩

theorem move_of_step (hsound : world.state.Sound)
    (hposition : Position world.state world.drainers)
    (hstep : SelectionWorld.step world action = some next) : Move world next := by
  obtain ⟨state, drainers, log⟩ := world
  cases action with
  | enqueue sequence transition =>
    by_cases hbound : sequence < 2 ^ 64
    · have hfound : some (SelectionWorld.enqueue sequence transition ⟨state, drainers, log⟩) =
          some next := (if_pos hbound).symm.trans hstep
      cases hfound
      exact move_of_enqueue hsound hposition hbound
    · cases (if_neg hbound).symm.trans hstep
  | next place =>
    have hnext : SelectionWorld.nextAt place ⟨state, drainers, log⟩ = some next := hstep
    unfold SelectionWorld.nextAt at hnext
    split at hnext
    next hfound =>
      cases hposition with
      | looping _ hflight =>
        obtain ⟨rfl, _⟩ := only_drainer hfound
        cases hnext
        exact move_of_next hsound hflight
      | quiet => cases hfound
      | reporting | reported | failed => cases (only_drainer hfound).2
    next => cases hnext
  | attempt place succeeds =>
    have hattempt : SelectionWorld.attemptAt place succeeds ⟨state, drainers, log⟩ = some next :=
      hstep
    unfold SelectionWorld.attemptAt at hattempt
    split at hattempt
    next hfound =>
      cases hposition with
      | reporting _ hflight hget =>
        obtain ⟨rfl, hsame⟩ := only_drainer hfound
        cases hsame
        cases hattempt
        cases succeeds with
        | true => exact .reported hflight hget
        | false =>
          refine .panicked ?_
          split
          · exact Or.inl rfl
          · exact Or.inr rfl
      | quiet => cases hfound
      | looping | reported | failed => cases (only_drainer hfound).2
    next => cases hattempt
  | settle place =>
    have hsettle : SelectionWorld.settleAt place ⟨state, drainers, log⟩ = some next := hstep
    unfold SelectionWorld.settleAt at hsettle
    split at hsettle
    next hfound =>
      cases hposition with
      | reported _ hflight =>
        obtain ⟨rfl, hsame⟩ := only_drainer hfound
        cases hsame
        obtain ⟨_, hget, hcommit, _⟩ := hsound.commit hflight
        dsimp only at hcommit hsettle
        rw [hcommit] at hsettle
        cases hsettle
        exact .committed hflight hget
      | quiet => cases hfound
      | looping | reporting | failed => cases (only_drainer hfound).2
    next hfound =>
      cases hposition with
      | failed =>
        obtain ⟨rfl, _⟩ := only_drainer hfound
        cases hsettle
        exact .abandoned
      | quiet => cases hfound
      | looping | reporting | reported => cases (only_drainer hfound).2
    next => cases hsettle

end Steps

section Invariants

variable {world next : SelectionWorld δ}

/-- The queue is sound, and at most one drainer is at work on it. -/
structure Drained (world : SelectionWorld δ) : Prop where
  sound : world.state.Sound
  position : Position world.state world.drainers

theorem Drained.queued (h : Drained world) {sequence : Nat} {transition : SelectionTransition δ}
    (hbound : sequence < 2 ^ 64)
    (hstays : (enqueued sequence transition world.state).draining = true ∨
      (enqueued sequence transition world.state).hasReadyTransition = false) :
    Position (enqueued sequence transition world.state) world.drainers := by
  obtain ⟨_, hflight, hdraining, _, hkept⟩ :=
    @enqueued_frame _ _ transition _ h.sound hbound
  obtain ⟨hinserted, hsound, _⟩ := @SelectionTransitionState.Sound.insert _ _ _ transition h.sound hbound
  have hposition := h.position
  generalize world.drainers = drainers at hposition
  cases hposition with
  | quiet hidle hnone =>
    have hidle' := hdraining.trans hidle
    refine .quiet hidle' (hflight.trans hnone) ?_ (hstays.resolve_left (by simp [hidle']))
    exact hsound.advance_taken (hinserted.frame.1.trans hnone)
  | looping hbusy hnone => exact .looping (hdraining.trans hbusy) (hflight.trans hnone)
  | reporting hbusy hsome hget =>
    exact .reporting (hdraining.trans hbusy) (hflight.trans hsome) ((hkept _ hsome).trans hget)
  | reported hbusy hsome => exact .reported (hdraining.trans hbusy) (hflight.trans hsome)
  | failed hbusy hsome => exact .failed (hdraining.trans hbusy) (hflight.trans hsome)

variable {state : SelectionTransitionState δ}

theorem Drained.busy {drainer : Drainer δ} {log : List (SelectionEvent δ)}
    (h : Drained ⟨state, [drainer], log⟩) : state.draining = true := by
  obtain ⟨_, hposition⟩ := h
  cases hposition <;> assumption

theorem SelectionTransitionState.Sound.started {state : SelectionTransitionState δ} (h : state.Sound) :
    Sound { state with draining := true } :=
  ⟨h.noRetry, h.bounded, h.latestBound, h.ahead, h.flying, h.behind⟩

theorem SelectionTransitionState.Sound.stopped {state : SelectionTransitionState δ} (h : state.Sound) :
    Sound { state with draining := false } :=
  ⟨h.noRetry, h.bounded, h.latestBound, h.ahead, h.flying, h.behind⟩

variable {sequence : Nat}

theorem SelectionTransitionState.Sound.launched (h : state.Sound)
    (hskipped : state.skippedThrough = none) {diagnostic : δ}
    (hget : state.pending.get? sequence = some (.deferred diagnostic))
    (hnext : sequence = state.latest + 1) (reset : Bool) :
    Sound { state with
      resetDeferralBeforeNext := false
      inFlight := some ⟨sequence, reset⟩ } where
  noRetry := h.noRetry
  bounded := h.bounded
  latestBound := h.latestBound
  ahead := h.ahead
  flying inFlight hsome := by
    cases hsome
    exact ⟨hnext, diagnostic, hget⟩
  behind skipped hsome := absurd (hsome.symm.trans hskipped) (Option.some_ne_none _)

theorem Drained.move (h : Drained world) (hmove : Move world next) : Drained next := by
  cases hmove with
  | queued hbound hstays => exact ⟨(enqueued_frame h.sound hbound).1, h.queued hbound hstays⟩
  | woken hbound _ hflight =>
    obtain ⟨hsound, hflight', _⟩ := enqueued_frame h.sound hbound
    exact ⟨hsound.started, .looping rfl (hflight'.trans hflight)⟩
  | idle hflight hready =>
    obtain ⟨_, hflight', _⟩ := h.sound.advance_frame
    exact ⟨h.sound.advance.stopped, .quiet rfl (hflight'.trans hflight)
      (h.sound.advance_taken hflight) hready⟩
  | resolved hflight hget hnext =>
    obtain ⟨_, hflight', _, hdraining, _⟩ := h.sound.advance_frame
    exact ⟨h.sound.advance.taken (hflight'.trans hflight) (h.sound.advance_taken hflight) hnext
      (h.sound.advance.ahead _ _ hget).2 none,
      .looping (hdraining.trans h.busy) (hflight'.trans hflight)⟩
  | repeated hflight hget hnext =>
    obtain ⟨_, hflight', _, hdraining, _⟩ := h.sound.advance_frame
    exact ⟨h.sound.advance.taken (hflight'.trans hflight) (h.sound.advance_taken hflight) hnext
      (h.sound.advance.ahead _ _ hget).2 _,
      .looping (hdraining.trans h.busy) (hflight'.trans hflight)⟩
  | report hflight hget hnext =>
    obtain ⟨_, _, _, hdraining, _⟩ := h.sound.advance_frame
    exact ⟨h.sound.advance.launched (h.sound.advance_taken hflight) hget hnext _,
      .reporting (hdraining.trans h.busy) rfl hget⟩
  | reported hflight => exact ⟨h.sound, .reported h.busy hflight⟩
  | panicked hnext =>
    have hposition := h.position
    cases hposition with
    | reporting hbusy hflight hget =>
      rcases hnext with rfl | rfl
      · exact ⟨h.sound, .failed hbusy hflight⟩
      · exact ⟨h.sound, .reporting hbusy hflight hget⟩
  | committed hflight hget =>
    obtain ⟨_, hget', _, hsound⟩ := h.sound.commit hflight
    cases hget.symm.trans hget'
    exact ⟨hsound, .looping h.busy rfl⟩
  | abandoned => exact ⟨h.sound.abandon, .quiet rfl rfl rfl rfl⟩

def Forward (state next : SelectionTransitionState δ) : Prop :=
  next.latestSequence = state.latestSequence ∨
    ∃ sequence, next.latestSequence = some sequence ∧ state.latest < sequence

theorem Forward.le {next : SelectionTransitionState δ} (h : Forward state next) :
    state.latest ≤ next.latest := by
  rcases h with hsame | ⟨_, hsome, hlt⟩
  · unfold SelectionTransitionState.latest
    rw [hsame]
  · unfold SelectionTransitionState.latest at hlt ⊢
    rw [hsome]
    exact Nat.le_of_lt hlt

theorem SelectionTransitionState.Sound.advance_forward (h : state.Sound) :
    Forward state state.advanceOverflowSkip := by
  have hadvanced := h.advanced
  generalize state.advanceOverflowSkip = next at hadvanced
  cases hadvanced with
  | same => exact Or.inl rfl
  | skipped _ hskipped => exact Or.inr ⟨_, rfl, (h.behind _ hskipped).1⟩

theorem enqueued_forward {transition : SelectionTransition δ} (h : state.Sound)
    (hbound : sequence < 2 ^ 64) : Forward state (enqueued sequence transition state) := by
  obtain ⟨hinserted, hsound, _⟩ := @SelectionTransitionState.Sound.insert _ _ _ transition h hbound
  have hforward := hsound.advance_forward
  unfold Forward SelectionTransitionState.latest at hforward ⊢
  rw [hinserted.frame.2.2.1] at hforward
  exact hforward

theorem Drained.forward (h : Drained world) (hmove : Move world next) :
    Forward world.state next.state := by
  cases hmove with
  | queued hbound | woken hbound => exact enqueued_forward h.sound hbound
  | idle | report => exact h.sound.advance_forward
  | resolved _ _ hnext | repeated _ _ hnext =>
    exact Or.inr ⟨_, rfl, hnext ▸ Nat.lt_succ_of_le h.sound.advance_latest⟩
  | reported | panicked => exact Or.inl rfl
  | committed hflight =>
    exact Or.inr ⟨_, rfl, (h.sound.flying _ hflight).1 ▸ Nat.lt_succ_self _⟩
  | abandoned =>
    rcases h.sound.abandoned_latest with hsame | ⟨through, hthrough, hlt, _⟩
    · exact Or.inl hsame
    · exact Or.inr ⟨through, hthrough, hlt⟩

def reports : List (SelectionEvent δ) → List (Nat × δ)
  | [] => []
  | .reported sequence diagnostic :: log => reports log ++ [(sequence, diagnostic)]
  | .enqueued _ _ :: log => reports log
  | .overloaded :: log => reports log
  | .processed _ _ _ :: log => reports log
  | .abandoned :: log => reports log

theorem reports_logged (sequence : Nat) (transition : SelectionTransition δ)
    (world : SelectionWorld δ) : reports (logged sequence transition world) = reports world.log := by
  unfold logged
  split <;> rfl

/-- The reports so far are in order, and all but the one on its way to the commit are committed. -/
structure InOrder (world : SelectionWorld δ) : Prop where
  increasing : (reports world.log).Pairwise fun first second => first.1 < second.1
  committed : ∀ report ∈ reports world.log, report.1 ≤ world.state.latest ∨
    world.drainers = [.reported report.1]

theorem InOrder.of_le (h : InOrder world) {drainers : List (Drainer δ)}
    {log : List (SelectionEvent δ)} (hreports : reports log = reports world.log)
    (hle : world.state.latest ≤ state.latest)
    (hdrainers : ∀ sequence, world.drainers = [.reported sequence] →
      drainers = [.reported sequence] ∨ sequence ≤ state.latest) :
    InOrder ⟨state, drainers, log⟩ := by
  refine ⟨?_, fun report hmem => ?_⟩
  · rw [hreports]
    exact h.increasing
  · rw [hreports] at hmem
    rcases h.committed report hmem with hbefore | hhere
    · exact Or.inl (Nat.le_trans hbefore hle)
    · exact (hdrainers report.1 hhere).symm

theorem InOrder.move (h : InOrder world) (hdrained : Drained world) (hmove : Move world next) :
    InOrder next := by
  have hle := (hdrained.forward hmove).le
  cases hmove with
  | queued => exact h.of_le (reports_logged _ _ _) hle fun _ hsame => Or.inl hsame
  | woken _ hnobody =>
    refine h.of_le (reports_logged _ _ _) hle fun sequence hsame => ?_
    rw [hnobody] at hsame
    cases hsame
  | idle | resolved | repeated | report | panicked | abandoned =>
    exact h.of_le rfl hle nofun
  | @reported state log _ _ _ _ hflight =>
    have hnext := (hdrained.sound.flying _ hflight).1
    dsimp only at hnext
    have hbefore (report : Nat × δ) (hmem : report ∈ reports log) : report.1 ≤ state.latest :=
      (h.committed report hmem).resolve_right nofun
    refine ⟨List.pairwise_append.mpr ⟨h.increasing, List.pairwise_singleton _ _, ?_⟩, ?_⟩
    · intro report hmem last hlast
      rw [List.mem_singleton.mp hlast, hnext]
      exact Nat.lt_succ_of_le (hbefore report hmem)
    · intro report hmem
      rcases List.mem_append.mp hmem with hmem | hmem
      · exact Or.inl (hbefore report hmem)
      · rw [List.mem_singleton.mp hmem]
        exact Or.inr rfl
  | committed =>
    refine h.of_le rfl hle fun sequence hsame => ?_
    cases hsame
    exact Or.inr (Nat.le_refl _)

/-- An overload or an abandoned backlog since the last deferred transition that was processed. -/
def mustReport : List (SelectionEvent δ) → Bool
  | [] => false
  | .overloaded :: _ => true
  | .abandoned :: _ => true
  | .processed _ (.deferred _) _ :: _ => false
  | .processed _ .resolved _ :: log => mustReport log
  | .enqueued _ _ :: log => mustReport log
  | .reported _ _ :: log => mustReport log

/-- The first deferred transition that is processed after an overload or an abandoned backlog goes to
the reporter. -/
def Exposed : List (SelectionEvent δ) → Prop
  | [] => True
  | .processed _ (.deferred _) isReported :: log =>
    (mustReport log = true → isReported = true) ∧ Exposed log
  | .processed _ .resolved _ :: log => Exposed log
  | .overloaded :: log => Exposed log
  | .abandoned :: log => Exposed log
  | .enqueued _ _ :: log => Exposed log
  | .reported _ _ :: log => Exposed log

/-- Where the next deferred transition has to be reported, the state sees to it. -/
structure Exposing (world : SelectionWorld δ) : Prop where
  exposed : Exposed world.log
  armed : mustReport world.log = true → world.state.resetDeferralBeforeNext = true ∨
    world.state.deferral = none ∧ world.state.inFlight = none

theorem Exposing.enqueued (h : Exposing world) (hsound : world.state.Sound)
    {transition : SelectionTransition δ} (hbound : sequence < 2 ^ 64) (draining : Bool)
    (drainers : List (Drainer δ)) :
    Exposing ⟨{ enqueued sequence transition world.state with draining }, drainers,
      logged sequence transition world⟩ := by
  obtain ⟨hinserted, hsound', _⟩ := @SelectionTransitionState.Sound.insert _ _ _ transition hsound hbound
  obtain ⟨_, hflight, hdeferral, _, hreset⟩ := hsound'.advance_frame
  have harmed : mustReport (logged sequence transition world) = true →
      (world.state.insert sequence transition).resetDeferralBeforeNext = true ∨
        (world.state.insert sequence transition).deferral = none ∧
          (world.state.insert sequence transition).inFlight = none := by
    unfold logged
    generalize world.state.insert sequence transition = inserted at hinserted
    cases hinserted with
    | refused _ hoverloads | added _ hoverloads =>
      rw [hoverloads]
      exact h.armed
    | shed => exact fun _ => Or.inl rfl
  refine ⟨?_, fun hmust => ?_⟩
  · unfold logged
    split
    · exact h.exposed
    · exact h.exposed
  · unfold Selection.enqueued
    dsimp only
    rw [hreset, hdeferral, hflight]
    exact harmed hmust

theorem Exposing.move (h : Exposing world) (hdrained : Drained world) (hmove : Move world next) :
    Exposing next := by
  cases hmove with
  | queued hbound | woken hbound => exact h.enqueued hdrained.sound hbound _ _
  | idle =>
    obtain ⟨_, hflight, hdeferral, _, hreset⟩ := hdrained.sound.advance_frame
    refine ⟨h.exposed, fun hmust => ?_⟩
    dsimp only
    rw [hreset, hdeferral, hflight]
    exact h.armed hmust
  | resolved hflight =>
    obtain ⟨_, hflight', _⟩ := hdrained.sound.advance_frame
    exact ⟨h.exposed, fun _ => Or.inr ⟨rfl, hflight'.trans hflight⟩⟩
  | repeated _ _ _ hkept hsame =>
    refine ⟨⟨fun hmust => ?_, h.exposed⟩, fun hmust => absurd hmust Bool.false_ne_true⟩
    rcases h.armed hmust with hreset | ⟨hnone, _⟩
    · exact absurd (hkept.symm.trans hreset) Bool.false_ne_true
    · exact absurd (hsame.symm.trans hnone) (Option.some_ne_none _)
  | report =>
    exact ⟨⟨fun _ => rfl, h.exposed⟩, fun hmust => absurd hmust Bool.false_ne_true⟩
  | reported | panicked => exact ⟨h.exposed, h.armed⟩
  | committed hflight =>
    refine ⟨h.exposed, fun hmust => Or.inl ?_⟩
    rcases h.armed hmust with hreset | ⟨_, hnone⟩
    · exact hreset
    · exact absurd (hflight.symm.trans hnone) (Option.some_ne_none _)
  | abandoned => exact ⟨h.exposed, fun _ => Or.inr ⟨rfl, rfl⟩⟩

end Invariants

section History

variable {world next : SelectionWorld δ}

def arrived : List (SelectionEvent δ) → Nat → Option (SelectionTransition δ)
  | [], _ => none
  | .enqueued sequence transition :: log, key =>
    (arrived log key).or (if sequence = key then some transition else none)
  | .overloaded :: log, key => arrived log key
  | .processed _ _ _ :: log, key => arrived log key
  | .reported _ _ :: log, key => arrived log key
  | .abandoned :: log, key => arrived log key

def Clean : List (SelectionEvent δ) → Prop
  | [] => True
  | .overloaded :: _ => False
  | .abandoned :: _ => False
  | .enqueued _ _ :: log => Clean log
  | .processed _ _ _ :: log => Clean log
  | .reported _ _ :: log => Clean log

def lastDeferral (transitions : List (SelectionTransition δ)) : Option δ :=
  match transitions.getLast? with
  | some (.deferred diagnostic) => some diagnostic
  | _ => none

theorem lastDeferral_snoc (transitions : List (SelectionTransition δ))
    (transition : SelectionTransition δ) :
    lastDeferral (transitions ++ [transition]) = lastDeferral [transition] := by
  unfold lastDeferral
  rw [List.getLast?_concat]
  rfl

variable {sequence : Nat} {transition : SelectionTransition δ}

theorem clean_logged (h : Clean (logged sequence transition world)) :
    world.state.overloads sequence transition = false ∧ Clean world.log ∧
      logged sequence transition world = .enqueued sequence transition :: world.log := by
  unfold logged at h ⊢
  cases hoverloads : world.state.overloads sequence transition with
  | true =>
    rw [hoverloads] at h
    exact absurd h id
  | false =>
    rw [hoverloads] at h
    exact ⟨rfl, h, rfl⟩

def inHand (world : SelectionWorld δ) : List (SelectionTransition δ) :=
  match world.drainers with
  | [.reported sequence] => (world.state.pending.get? sequence).toList
  | _ => []

theorem inHand_enqueued (h : Drained world) (hbound : sequence < 2 ^ 64) (draining : Bool)
    (log : List (SelectionEvent δ)) :
    inHand ⟨{ enqueued sequence transition world.state with draining }, world.drainers, log⟩ =
      inHand world := by
  obtain ⟨_, _, _, _, hkept⟩ := @enqueued_frame _ _ transition _ h.sound hbound
  have hposition := h.position
  unfold inHand
  generalize world.drainers = drainers at hposition
  cases hposition with
  | reported _ hsome => exact congrArg Option.toList (hkept _ hsome)
  | quiet | looping | reporting | failed => rfl

theorem Move.clean (hmove : Move world next) (hclean : Clean next.log) : Clean world.log := by
  cases hmove with
  | queued | woken => exact (clean_logged hclean).2.1
  | abandoned => exact absurd hclean id
  | idle | resolved | repeated | report | reported | panicked | committed => exact hclean

variable [DecidableEq δ]

/-- The deferred transitions with their sequences, less those that repeat the one directly before. -/
def visible (previous : Option δ) (sequence : Nat) :
    List (SelectionTransition δ) → List (Nat × δ)
  | [] => []
  | .resolved :: transitions => visible none (sequence + 1) transitions
  | .deferred diagnostic :: transitions =>
    (if previous = some diagnostic then [] else [(sequence, diagnostic)]) ++
      visible (some diagnostic) (sequence + 1) transitions

theorem visible_append (previous : Option δ) (sequence : Nat)
    (transitions : List (SelectionTransition δ)) (transition : SelectionTransition δ) :
    visible previous sequence (transitions ++ [transition]) =
      visible previous sequence transitions ++
        visible (if transitions = [] then previous else lastDeferral transitions)
          (sequence + transitions.length) [transition] := by
  induction transitions generalizing previous sequence with
  | nil => rfl
  | cons first transitions ih =>
    have hlast : (if transitions = [] then lastDeferral [first] else lastDeferral transitions) =
        lastDeferral (first :: transitions) := by
      unfold lastDeferral
      cases transitions with
      | nil => rfl
      | cons => rw [if_neg (List.cons_ne_nil _ _), List.getLast?_cons_cons]
    rw [if_neg (List.cons_ne_nil _ _), ← hlast, List.length_cons, Nat.add_comm transitions.length,
      ← Nat.add_assoc]
    cases first with
    | resolved => exact ih none (sequence + 1)
    | deferred =>
      rw [List.cons_append, visible, visible, ih, List.append_assoc]
      rfl

theorem visible_snoc (transitions : List (SelectionTransition δ))
    (transition : SelectionTransition δ) :
    visible none 1 (transitions ++ [transition]) = visible none 1 transitions ++
      visible (lastDeferral transitions) (1 + transitions.length) [transition] := by
  have hstart : (if transitions = [] then none else lastDeferral transitions) =
      lastDeferral transitions := by
    split
    next hempty => rw [hempty]; rfl
    next => rfl
  rw [visible_append, hstart]

/-- Without overload and abandoned backlog, the committed prefix is what came in under the first
sequences, and the rest is waiting. -/
structure History (world : SelectionWorld δ) (transitions : List (SelectionTransition δ)) :
    Prop where
  latest : world.state.latest = transitions.length
  prefixed : ∀ index transition, transitions[index]? = some transition →
    arrived world.log (index + 1) = some transition
  waiting : ∀ key, transitions.length < key →
    world.state.pending.get? key = arrived world.log key
  deferral : world.state.deferral = lastDeferral transitions
  unreset : world.state.resetDeferralBeforeNext = false
  unskipped : world.state.skippedThrough = none
  fresh : ∀ inFlight diagnostic, world.state.inFlight = some inFlight →
    world.state.pending.get? inFlight.sequence = some (.deferred diagnostic) →
    world.state.deferral ≠ some diagnostic
  reported : reports world.log = visible none 1 (transitions ++ inHand world)

variable {transitions : List (SelectionTransition δ)}

theorem History.extend (h : History world transitions)
    (hget : world.state.pending.get? (transitions.length + 1) = some transition)
    {state : SelectionTransitionState δ} {drainers : List (Drainer δ)}
    {log : List (SelectionEvent δ)}
    (hlatest : state.latestSequence = some (transitions.length + 1))
    (hpending : state.pending = world.state.pending.erase (transitions.length + 1))
    (hdeferral : state.deferral = lastDeferral [transition])
    (hreset : state.resetDeferralBeforeNext = false) (hskipped : state.skippedThrough = none)
    (hflight : state.inFlight = none) (harrived : ∀ key, arrived log key = arrived world.log key)
    (hhand : inHand ⟨state, drainers, log⟩ = [])
    (hreports : reports log = visible none 1 (transitions ++ [transition])) :
    History ⟨state, drainers, log⟩ (transitions ++ [transition]) where
  latest := by
    unfold SelectionTransitionState.latest
    rw [hlatest, List.length_append]
    rfl
  prefixed index found hfound := by
    rw [harrived]
    rcases Nat.lt_or_ge index transitions.length with hlt | hge
    · rw [List.getElem?_append_left hlt] at hfound
      exact h.prefixed index found hfound
    · rw [List.getElem?_append_right hge, List.getElem?_singleton] at hfound
      split at hfound
      next =>
        cases hfound
        have hindex : index = transitions.length := by omega
        rw [hindex, ← h.waiting _ (Nat.lt_succ_self _)]
        exact hget
      next => cases hfound
  waiting key hkey := by
    rw [List.length_append, List.length_singleton] at hkey
    rw [harrived, hpending, SortedMap.get?_erase, if_neg (by omega)]
    exact h.waiting key (by omega)
  deferral := hdeferral.trans (lastDeferral_snoc transitions transition).symm
  unreset := hreset
  unskipped := hskipped
  fresh _ _ hsome := absurd (hsome.symm.trans hflight) (Option.some_ne_none _)
  reported := by
    rw [hhand, List.append_nil]
    exact hreports

theorem History.enqueued (h : History world transitions) (hsound : world.state.Sound)
    (hbound : sequence < 2 ^ 64) (hclean : Clean (logged sequence transition world))
    (draining : Bool) {drainers : List (Drainer δ)}
    (hhand : inHand ⟨{ enqueued sequence transition world.state with draining }, drainers,
      logged sequence transition world⟩ = inHand world) :
    History ⟨{ enqueued sequence transition world.state with draining }, drainers,
      logged sequence transition world⟩ transitions := by
  obtain ⟨hoverloads, _, hlog⟩ := clean_logged hclean
  obtain ⟨hinserted, _, hkept⟩ := @SelectionTransitionState.Sound.insert _ _ _ transition hsound hbound
  obtain ⟨hflight, _, hlatest, hdeferral⟩ := hinserted.frame
  have hinsert : (world.state.insert sequence transition).skippedThrough = none ∧
      (world.state.insert sequence transition).resetDeferralBeforeNext = false ∧
      ∀ key, transitions.length < key → (world.state.insert sequence transition).pending.get? key =
        (world.state.pending.get? key).or (if sequence = key then some transition else none) := by
    generalize world.state.insert sequence transition = inserted at hinserted
    cases hinserted with
    | refused haccepts =>
      refine ⟨h.unskipped, h.unreset, fun key hkey => ?_⟩
      rcases hget : world.state.pending.get? key with _ | found
      · rw [Option.none_or, if_neg]
        rintro rfl
        rw [← h.latest] at hkey
        rw [hsound.accepts_iff.mpr ⟨by omega, hkey, fun skipped hsome =>
          absurd (hsome.symm.trans h.unskipped) (Option.some_ne_none _), hget⟩] at haccepts
        cases haccepts
      · rfl
    | added haccepts =>
      refine ⟨h.unskipped, h.unreset, fun key _ => ?_⟩
      obtain ⟨_, _, _, hnone⟩ := hsound.accepts_iff.mp haccepts
      dsimp only
      rw [SortedMap.get?_put]
      by_cases hkey : key = sequence
      · rw [if_pos hkey, hkey, hnone, if_pos rfl]
        rfl
      · rw [if_neg hkey, if_neg fun hsame => hkey hsame.symm, Option.or_none]
    | shed hover => exact absurd (hoverloads.symm.trans hover) Bool.false_ne_true
  obtain ⟨hskipped, hreset, hpending⟩ := hinsert
  unfold Selection.enqueued at hhand ⊢
  rw [advance_unskipped hskipped] at hhand ⊢
  constructor
  case latest =>
    unfold SelectionTransitionState.latest
    dsimp only
    rw [hlatest]
    exact h.latest
  case prefixed =>
    intro index found hfound
    rw [hlog, arrived, h.prefixed index found hfound, Option.some_or]
  case waiting =>
    intro key hkey
    rw [hlog, arrived, ← h.waiting key hkey]
    exact hpending key hkey
  case deferral => exact hdeferral.trans h.deferral
  case unreset => exact hreset
  case unskipped => exact hskipped
  case fresh =>
    intro inFlight diagnostic hsome hget
    have hbefore := hflight.symm.trans hsome
    dsimp only at hget ⊢
    rw [hkept inFlight hbefore] at hget
    rw [hdeferral]
    exact h.fresh inFlight diagnostic hbefore hget
  case reported =>
    rw [hhand, hlog]
    exact h.reported

theorem History.move (h : History world transitions) (hdrained : Drained world)
    (hmove : Move world next) (hclean : Clean next.log) :
    ∃ transitions, History next transitions := by
  cases hmove with
  | queued hbound =>
    exact ⟨_, h.enqueued hdrained.sound hbound hclean _ (inHand_enqueued hdrained hbound _ _)⟩
  | woken hbound hnobody =>
    refine ⟨_, h.enqueued hdrained.sound hbound hclean true ?_⟩
    unfold inHand
    rw [hnobody]
  | idle =>
    refine ⟨transitions, ?_⟩
    rw [advance_unskipped h.unskipped]
    exact ⟨h.latest, h.prefixed, h.waiting, h.deferral, h.unreset, h.unskipped, h.fresh, h.reported⟩
  | @resolved _ _ sequence hflight hget hnext =>
    rw [advance_unskipped h.unskipped] at hget hnext ⊢
    have hlength : sequence = transitions.length + 1 := by rw [hnext, h.latest]
    subst hlength
    refine ⟨_, h.extend hget rfl rfl rfl rfl h.unskipped hflight (fun _ => rfl) rfl ?_⟩
    have hreported := h.reported
    unfold inHand at hreported
    rw [List.append_nil] at hreported
    rw [visible_snoc]
    simpa [reports, visible] using hreported
  | @repeated _ _ sequence _ hflight hget hnext _ hsame =>
    rw [advance_unskipped h.unskipped] at hget hnext ⊢
    have hlength : sequence = transitions.length + 1 := by rw [hnext, h.latest]
    subst hlength
    refine ⟨_, h.extend hget rfl rfl hsame rfl h.unskipped hflight (fun _ => rfl) rfl ?_⟩
    have hreported := h.reported
    unfold inHand at hreported
    rw [List.append_nil] at hreported
    rw [visible_snoc, ← h.deferral]
    simpa [reports, visible, hsame] using hreported
  | @report state _ _ diagnostic _ hget hnext hother =>
    refine ⟨transitions, ?_⟩
    rw [advance_unskipped h.unskipped] at hget hnext ⊢
    have hnew : state.deferral ≠ some diagnostic := fun hsame => hother ⟨h.unreset, hsame⟩
    refine ⟨h.latest, h.prefixed, h.waiting, h.deferral, rfl, h.unskipped, ?_, h.reported⟩
    intro inFlight found hsome hfound
    cases hsome
    cases hget.symm.trans hfound
    exact hnew
  | @reported _ _ sequence _ _ _ hflight hget =>
    refine ⟨transitions, h.latest, h.prefixed, h.waiting, h.deferral, h.unreset, h.unskipped,
      h.fresh, ?_⟩
    have hnew := h.fresh _ _ hflight hget
    have hreported := h.reported
    unfold inHand at hreported ⊢
    rw [List.append_nil] at hreported
    dsimp only at hget hnew ⊢
    have hsequence : sequence = 1 + transitions.length :=
      (hdrained.sound.flying _ hflight).1.trans (by rw [h.latest, Nat.add_comm])
    rw [hget, Option.toList_some, visible_snoc, ← h.deferral]
    simp only [reports, visible, if_neg hnew]
    rw [← hreported, ← hsequence]
    rfl
  | panicked hnext =>
    refine ⟨transitions, h.latest, h.prefixed, h.waiting, h.deferral, h.unreset, h.unskipped,
      h.fresh, ?_⟩
    rcases hnext with rfl | rfl
    · exact h.reported
    · exact h.reported
  | @committed _ _ inFlight _ hflight hget =>
    have hlength : inFlight.sequence = transitions.length + 1 := by
      rw [(hdrained.sound.flying _ hflight).1, h.latest]
    have hreported := h.reported
    unfold inHand at hreported
    dsimp only at hreported
    rw [hget] at hreported
    rw [hlength] at hget ⊢
    exact ⟨_, h.extend hget rfl rfl rfl h.unreset h.unskipped rfl (fun _ => rfl) rfl hreported⟩
  | abandoned => exact absurd hclean id

end History

section Runs

theorem logged_head (sequence : Nat) (transition : SelectionTransition δ)
    (world : SelectionWorld δ) :
    (logged sequence transition world).head? ≠ some .abandoned := by
  unfold logged
  split <;> exact nofun

theorem no_ready {state : SelectionTransitionState δ} (h : state.Sound)
    (hready : state.hasReadyTransition = false) :
    state.pending.get? (state.latest + 1) = none := by
  refine Option.eq_none_iff_forall_ne_some.mpr fun value hvalue => ?_
  have hmem := SortedMap.get?_mem hvalue
  have hsorted := state.pending.sorted
  unfold hasReadyTransition at hready
  rcases hitems : state.pending.toList with _ | ⟨⟨first, transition⟩, _⟩
  · rw [hitems] at hmem
    cases hmem
  · have hhead : state.pending.toList.head? = some (first, transition) := by rw [hitems]; rfl
    have hget := get?_of_head? hhead
    have hahead := (h.ahead first transition hget).1
    rw [hhead, h.expected hget] at hready
    have hother := of_decide_eq_false hready
    rw [hitems] at hmem hsorted
    rcases List.mem_cons.mp hmem with heq | hmem
    · exact hother (congrArg Prod.fst heq).symm
    · have hlt := (List.pairwise_cons.mp hsorted).1 _ (List.mem_map_of_mem hmem)
      dsimp only at hlt hother
      omega

variable [DecidableEq δ]

structure Kept (world : SelectionWorld δ) : Prop where
  drained : Drained world
  inOrder : InOrder world
  exposing : Exposing world
  history : Clean world.log → ∃ transitions, History world transitions
  emptied : world.log.head? = some .abandoned → world.drainers = [] ∧
    world.state.pending.toList = []

theorem Kept.emptied_move {world next : SelectionWorld δ} (h : Kept world) (hmove : Move world next)
    (hlast : next.log.head? = some .abandoned) :
    next.drainers = [] ∧ next.state.pending.toList = [] := by
  cases hmove with
  | queued | woken => exact absurd hlast (logged_head _ _ _)
  | abandoned => exact ⟨rfl, rfl⟩
  | idle | panicked | committed => exact absurd (h.emptied hlast).1 (List.cons_ne_nil _ _)
  | resolved | repeated | report | reported => cases hlast

theorem Kept.move {world next : SelectionWorld δ} (h : Kept world) (hmove : Move world next) :
    Kept next where
  drained := h.drained.move hmove
  inOrder := h.inOrder.move h.drained hmove
  exposing := h.exposing.move h.drained hmove
  history hclean := by
    obtain ⟨_, hhistory⟩ := h.history (hmove.clean hclean)
    exact hhistory.move h.drained hmove hclean
  emptied := h.emptied_move hmove

structure Faithful (world : SelectionWorld δ) : Prop where
  oneDrainer : world.drainers.length ≤ 1
  increasing : (reports world.log).Pairwise fun first second => first.1 < second.1
  bounded : world.state.pending.toList.length ≤ SELECTION_TRANSITION_CAPACITY
  inFlightKept : ∀ inFlight, world.state.inFlight = some inFlight →
    ∃ diagnostic, world.state.pending.get? inFlight.sequence = some (.deferred diagnostic)
  complete : Clean world.log → ∃ transitions,
    (∀ index transition, transitions[index]? = some transition →
      arrived world.log (index + 1) = some transition) ∧
    reports world.log = visible none 1 transitions ∧
    (world.drainers = [] → arrived world.log (transitions.length + 1) = none)
  exposed : Exposed world.log
  settled : world.drainers = [] → world.state.hasReadyTransition = false
  emptied : world.log.head? = some .abandoned → world.drainers = [] ∧
    world.state.pending.toList = []

/-- A drainer is never stuck: whatever the reporter does, its call goes on. -/
def Unstuck (world : SelectionWorld δ) : Prop :=
  ∀ (place : Nat) (drainer : Drainer δ), world.drainers[place]? = some drainer →
    match drainer with
    | .looping => (SelectionWorld.step world (.next place)).isSome
    | .reporting _ _ _ => ∀ succeeds, (SelectionWorld.step world (.attempt place succeeds)).isSome
    | .reported _ => (SelectionWorld.step world (.settle place)).isSome
    | .failed => (SelectionWorld.step world (.settle place)).isSome

theorem Kept.unstuck {world : SelectionWorld δ} (h : Kept world) : Unstuck world := by
  intro place drainer hfound
  obtain ⟨state, _, log⟩ := world
  have hposition := h.drained.position
  have hsound := h.drained.sound
  dsimp only at hfound hposition hsound
  cases hposition with
  | quiet => cases hfound
  | looping | failed =>
    obtain ⟨rfl, rfl⟩ := only_drainer hfound
    exact rfl
  | reporting =>
    obtain ⟨rfl, rfl⟩ := only_drainer hfound
    exact fun _ => rfl
  | @reported sequence _ _ hflight =>
    obtain ⟨rfl, rfl⟩ := only_drainer hfound
    obtain ⟨_, _, hcommit, _⟩ := hsound.commit hflight
    have hsettle : SelectionWorld.step ⟨state, [.reported sequence], log⟩ (.settle 0) =
        (state.commitReport sequence).map fun state => ⟨state, [.looping], log⟩ := rfl
    dsimp only at hcommit ⊢
    rw [hsettle, hcommit]
    rfl

theorem Kept.complete {world : SelectionWorld δ} (h : Kept world) (hclean : Clean world.log) :
    ∃ transitions : List (SelectionTransition δ),
      (∀ index transition, transitions[index]? = some transition →
        arrived world.log (index + 1) = some transition) ∧
      reports world.log = visible none 1 transitions ∧
      (world.drainers = [] → arrived world.log (transitions.length + 1) = none) := by
  obtain ⟨transitions, hhistory⟩ := h.history hclean
  refine ⟨transitions ++ inHand world, fun index transition hfound => ?_, hhistory.reported,
    fun hnobody => ?_⟩
  · rcases Nat.lt_or_ge index transitions.length with hlt | hge
    · rw [List.getElem?_append_left hlt] at hfound
      exact hhistory.prefixed index transition hfound
    · rw [List.getElem?_append_right hge] at hfound
      have hposition := h.drained.position
      have hsound := h.drained.sound
      obtain ⟨_, drainers, log⟩ := world
      unfold inHand at hfound
      dsimp only at hfound hposition
      cases hposition with
      | reported _ hflight =>
        obtain ⟨hnext, _, hget⟩ := hsound.flying _ hflight
        dsimp only at hnext hget hfound
        rw [hget] at hfound
        have hindex : index = transitions.length := by
          have hlength := (List.getElem?_eq_some_iff.mp hfound).1
          simp only [Option.toList_some, List.length_singleton] at hlength
          omega
        rw [hindex, Nat.sub_self] at hfound
        cases hfound
        have hwaiting := hhistory.waiting (transitions.length + 1) (Nat.lt_succ_self _)
        rw [hindex, ← hwaiting, ← hhistory.latest, ← hnext]
        exact hget
      | quiet | looping | reporting | failed => cases hfound
  · have hposition := h.drained.position
    have hhand : inHand world = [] := by
      unfold inHand
      rw [hnobody]
    rw [hnobody] at hposition
    cases hposition with
    | quiet _ _ _ hready =>
      have hnone := no_ready h.drained.sound hready
      rw [hhand, List.append_nil, ← hhistory.waiting _ (Nat.lt_succ_self _), ← hhistory.latest]
      exact hnone

end Runs

end Nexus.Selection
