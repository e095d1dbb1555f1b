import Nexus.StageBudgets
import Nexus.SwapChainSessions

namespace Nexus.Render

inductive GenerationChange where
  | reactivated
  | window
  | device
  | adapter
  | size
  | format
  | colorSpace
  deriving DecidableEq

inductive SessionEventKind where
  | discovered
  | generationAdvanced (changes : List GenerationChange)
  | becamePrimary
  | becameCandidate
  | retired
  deriving DecidableEq

structure SessionEvent where
  id : Nat
  generation : Nat
  kind : SessionEventKind
  deriving DecidableEq

def SessionLifecycle.eventKind : SessionLifecycle → SessionEventKind
  | .primary => .becamePrimary
  | .candidate => .becameCandidate
  | .retired => .retired

def generationChanges (session : SwapChainSession) (observation : SwapChainObservation) :
    List GenerationChange :=
  let previous := session.observation
  (if session.lifecycle = .retired then [.reactivated] else []) ++
    (if previous.hwnd ≠ observation.hwnd then [.window] else []) ++
    (if previous.device ≠ observation.device then [.device] else []) ++
    (if previous.adapterLuid ≠ observation.adapterLuid then [.adapter] else []) ++
    (if previous.size ≠ observation.size then [.size] else []) ++
    (if previous.format ≠ observation.format then [.format] else []) ++
    (if previous.colorSpace ≠ observation.colorSpace then [.colorSpace] else [])

theorem generationChanges_eq_nil {session : SwapChainSession} {observation : SwapChainObservation} :
    generationChanges session observation = [] ↔ ¬ session.Changed observation := by
  unfold generationChanges SwapChainSession.Changed sameSurface
  simp only [List.append_eq_nil_iff, ite_eq_right_iff, List.cons_ne_nil, imp_false, not_not, not_or]
  tauto

abbrev SessionView := Nat → Option (Nat × SessionLifecycle)

def SessionEventKind.apply (generation : Nat) (known : Option (Nat × SessionLifecycle)) :
    SessionEventKind → Option (Nat × SessionLifecycle)
  | .discovered => some (generation, .candidate)
  | .generationAdvanced _ => known.map fun entry => (generation, entry.2)
  | .becamePrimary => some (generation, .primary)
  | .becameCandidate => some (generation, .candidate)
  | .retired => some (generation, .retired)

theorem apply_eventKind (generation : Nat) (known : Option (Nat × SessionLifecycle))
    (lifecycle : SessionLifecycle) :
    lifecycle.eventKind.apply generation known = some (generation, lifecycle) := by
  cases lifecycle <;> rfl

def SessionEvent.apply (view : SessionView) (event : SessionEvent) : SessionView :=
  Function.update view event.id (event.kind.apply event.generation (view event.id))

def replay (view : SessionView) (events : List SessionEvent) : SessionView :=
  events.foldl SessionEvent.apply view

theorem replay_append (view : SessionView) (first second : List SessionEvent) :
    replay view (first ++ second) = replay (replay view first) second :=
  List.foldl_append

@[simp]
theorem replay_nil (view : SessionView) : replay view [] = view := rfl

@[simp]
theorem replay_cons (view : SessionView) (event : SessionEvent) (events : List SessionEvent) :
    replay view (event :: events) = replay (event.apply view) events := rfl

def viewOf (sessions : SortedMap Nat SwapChainSession) : SessionView := fun id =>
  (sessions.get? id).map fun session => (session.generation, session.lifecycle)

theorem viewOf_put (sessions : SortedMap Nat SwapChainSession) (id : Nat)
    (session : SwapChainSession) :
    viewOf (sessions.put id session) =
      Function.update (viewOf sessions) id (some (session.generation, session.lifecycle)) := by
  funext other
  unfold viewOf
  rw [SortedMap.get?_put]
  by_cases h : other = id
  · subst h
    simp
  · simp [h]

namespace SwapChainRegistry

/-- One turn of the first loop of `reconcile`. -/
def observeEntry (policy : FailurePolicy) (primary : Option Nat)
    (state : SortedMap Nat SwapChainSession × List SessionEvent)
    (entry : Nat × SwapChainObservation) : SortedMap Nat SwapChainSession × List SessionEvent :=
  let (sessions, events) := state
  let (id, observation) := entry
  let targetLifecycle := lifecycleOf primary id
  match sessions.get? id with
  | some session =>
    let changes := generationChanges session observation
    let (session, events) :=
      if changes = [] then (session, events)
      else
        let session := session.advance policy
        (session, events ++ [⟨id, session.generation, .generationAdvanced changes⟩])
    let session := { session with observation }
    if session.lifecycle = targetLifecycle then (sessions.put id session, events)
    else
      let session := { session with lifecycle := targetLifecycle }
      (sessions.put id session, events ++ [⟨id, session.generation, targetLifecycle.eventKind⟩])
  | none =>
    let session : SwapChainSession :=
      ⟨observation, 1, targetLifecycle, .new policy, fun _ => none⟩
    let events := events ++ [⟨id, session.generation, .discovered⟩]
    if targetLifecycle = .primary then
      (sessions.put id session, events ++ [⟨id, session.generation, .becamePrimary⟩])
    else (sessions.put id session, events)

def retireEntry (snapshot : SortedMap Nat SwapChainObservation)
    (state : SortedMap Nat SwapChainSession × List SessionEvent) (entry : Nat × SwapChainSession) :
    SortedMap Nat SwapChainSession × List SessionEvent :=
  let (sessions, events) := state
  let (id, session) := entry
  if (snapshot.get? id).isNone ∧ session.lifecycle ≠ .retired then
    (sessions.put id { session with lifecycle := .retired },
      events ++ [⟨id, session.generation, .retired⟩])
  else (sessions, events)

/-- `reconcile` with the events that it returns. -/
def reconcileEvents (observations : List SwapChainObservation) (primary : Option Nat)
    (registry : SwapChainRegistry) : List SessionEvent × SwapChainRegistry :=
  let snapshot := snapshotOf observations
  let (sessions, events) :=
    snapshot.toList.foldl (observeEntry registry.failurePolicy primary) (registry.sessions, [])
  let (sessions, events) := sessions.toList.foldl (retireEntry snapshot) (sessions, events)
  (events, { registry with sessions })

def view (registry : SwapChainRegistry) : SessionView := viewOf registry.sessions

section Replay

variable {start : SessionView}

theorem viewOf_some {sessions : SortedMap Nat SwapChainSession} {id : Nat}
    {session : SwapChainSession} (h : sessions.get? id = some session) :
    viewOf sessions id = some (session.generation, session.lifecycle) := by
  simp [viewOf, h]

theorem replay_observeEntry (policy : FailurePolicy) (primary : Option Nat)
    (sessions : SortedMap Nat SwapChainSession) (events : List SessionEvent)
    (entry : Nat × SwapChainObservation) (h : replay start events = viewOf sessions) :
    replay start (observeEntry policy primary (sessions, events) entry).2 =
      viewOf (observeEntry policy primary (sessions, events) entry).1 := by
  obtain ⟨id, observation⟩ := entry
  unfold observeEntry
  dsimp only
  rcases hget : sessions.get? id with _ | session
  · dsimp only
    have hlifecycle : lifecycleOf primary id = .primary ∨ lifecycleOf primary id = .candidate := by
      unfold lifecycleOf
      split
      · exact Or.inl rfl
      · exact Or.inr rfl
    split
    next hprimary =>
      simp [replay_append, h, SessionEvent.apply, SessionEventKind.apply, viewOf_put, hprimary]
    next hother =>
      have hcandidate := hlifecycle.resolve_left hother
      simp [replay_append, h, SessionEvent.apply, SessionEventKind.apply, viewOf_put, hcandidate]
  · have hview := viewOf_some hget
    dsimp only
    by_cases hchanges : generationChanges session observation = []
    · simp only [hchanges, if_true]
      split
      next =>
        have hself := Function.update_eq_self id (viewOf sessions)
        rw [hview] at hself
        rw [viewOf_put, h, hself]
      next =>
        simp [replay_append, h, SessionEvent.apply, apply_eventKind, viewOf_put]
    · simp only [hchanges, if_false]
      split
      next =>
        simp [replay_append, h, SessionEvent.apply, SessionEventKind.apply, viewOf_put, hview,
          SwapChainSession.advance]
      next =>
        simp [replay_append, h, SessionEvent.apply, apply_eventKind, viewOf_put,
          SwapChainSession.advance]

theorem replay_retireEntry (snapshot : SortedMap Nat SwapChainObservation)
    (sessions : SortedMap Nat SwapChainSession) (events : List SessionEvent)
    (entry : Nat × SwapChainSession) (h : replay start events = viewOf sessions) :
    replay start (retireEntry snapshot (sessions, events) entry).2 =
      viewOf (retireEntry snapshot (sessions, events) entry).1 := by
  obtain ⟨_, _⟩ := entry
  unfold retireEntry
  dsimp only
  split
  · simp [replay_append, h, SessionEvent.apply, SessionEventKind.apply, viewOf_put]
  · exact h

theorem replay_foldl {α : Type} {turn : SortedMap Nat SwapChainSession × List SessionEvent → α →
      SortedMap Nat SwapChainSession × List SessionEvent}
    (hturn : ∀ sessions events entry, replay start events = viewOf sessions →
      replay start (turn (sessions, events) entry).2 = viewOf (turn (sessions, events) entry).1)
    (entries : List α) (state : SortedMap Nat SwapChainSession × List SessionEvent)
    (h : replay start state.2 = viewOf state.1) :
    replay start (entries.foldl turn state).2 = viewOf (entries.foldl turn state).1 := by
  induction entries generalizing state with
  | nil => exact h
  | cons entry _ ih => exact ih _ (hturn state.1 state.2 entry h)

theorem replay_reconcileEvents (observations : List SwapChainObservation) (primary : Option Nat)
    (registry : SwapChainRegistry) :
    replay registry.view (registry.reconcileEvents observations primary).1 =
      (registry.reconcileEvents observations primary).2.view := by
  have hobserved := @replay_foldl registry.view _ _
    (replay_observeEntry registry.failurePolicy primary)
    (snapshotOf observations).toList (registry.sessions, []) rfl
  exact replay_foldl (replay_retireEntry (snapshotOf observations)) _ _ hobserved

end Replay

theorem fst_observeEntry (policy : FailurePolicy) (primary : Option Nat)
    (state : SortedMap Nat SwapChainSession × List SessionEvent)
    (entry : Nat × SwapChainObservation) :
    (observeEntry policy primary state entry).1 =
      state.1.put entry.1 (observed policy primary entry.2 entry.1 (state.1.get? entry.1)) := by
  obtain ⟨sessions, _⟩ := state
  obtain ⟨id, observation⟩ := entry
  unfold observeEntry observed
  dsimp only
  rcases hget : sessions.get? id with _ | session
  · dsimp only
    split
    · rfl
    · rfl
  · dsimp only
    by_cases hchanged : session.Changed observation
    · have hchanges : generationChanges session observation ≠ [] := fun h =>
        generationChanges_eq_nil.mp h hchanged
      simp only [hchanges, hchanged, if_true, if_false]
      split
      next hsame =>
        rw [← hsame]
      · rfl
    · have hchanges := generationChanges_eq_nil.mpr hchanged
      simp only [hchanges, hchanged, if_true, if_false]
      split
      next hsame =>
        rw [← hsame]
      · rfl

theorem fst_foldl_observeEntry (policy : FailurePolicy) (primary : Option Nat)
    (entries : List (Nat × SwapChainObservation))
    (state : SortedMap Nat SwapChainSession × List SessionEvent) :
    (entries.foldl (observeEntry policy primary) state).1 =
      entries.foldl (fun sessions entry => sessions.put entry.1
        (observed policy primary entry.2 entry.1 (sessions.get? entry.1))) state.1 := by
  induction entries generalizing state with
  | nil => rfl
  | cons _ _ ih => rw [List.foldl_cons, ih, fst_observeEntry, List.foldl_cons]

def retirement (snapshot : SortedMap Nat SwapChainObservation) (id : Nat)
    (session : SwapChainSession) : Option SwapChainSession :=
  if (snapshot.get? id).isNone ∧ session.lifecycle ≠ .retired then
    some { session with lifecycle := .retired }
  else none

theorem fst_foldl_retireEntry (snapshot : SortedMap Nat SwapChainObservation)
    (entries : List (Nat × SwapChainSession))
    (state : SortedMap Nat SwapChainSession × List SessionEvent) :
    (entries.foldl (retireEntry snapshot) state).1 =
      entries.foldl (fun sessions entry =>
        ((retirement snapshot entry.1 entry.2).map (sessions.put entry.1)).getD sessions)
        state.1 := by
  induction entries generalizing state with
  | nil => rfl
  | cons _ _ ih =>
    rw [List.foldl_cons, ih, List.foldl_cons]
    congr 1
    unfold retireEntry retirement
    dsimp only
    split
    · rfl
    · rfl

theorem nodup_keys {α : Type} (map : SortedMap Nat α) : (map.toList.map Prod.fst).Nodup :=
  map.sorted.imp fun h => ne_of_lt h

theorem reconcileEvents_snd (observations : List SwapChainObservation) (primary : Option Nat)
    (registry : SwapChainRegistry) :
    (registry.reconcileEvents observations primary).2 =
      registry.reconcile observations primary := by
  have hsessions : (registry.reconcileEvents observations primary).2.sessions =
      (registry.reconcile observations primary).sessions := by
    refine SortedMap.ext_get? fun id => ?_
    have hreconcile := get?_reconcile observations primary registry id
    unfold get? at hreconcile
    rw [hreconcile]
    unfold reconcileEvents
    dsimp only
    rw [fst_foldl_retireEntry, SortedMap.get?_foldl_putSome (nodup_keys _),
      fst_foldl_observeEntry]
    have hfirst := SortedMap.get?_foldl_alter (nodup_keys (snapshotOf observations))
      (fun id observation known => observed registry.failurePolicy primary observation id known)
      registry.sessions id
    unfold SortedMap.get? at hfirst ⊢
    rw [hfirst]
    rcases hfind : SortedMap.find id (snapshotOf observations).toList with _ | observation
    · dsimp only
      rcases SortedMap.find id registry.sessions.toList with _ | session
      · rfl
      · unfold retirement SortedMap.get?
        rw [hfind]
        by_cases hretired : session.lifecycle = .retired
        · have hsame : { session with lifecycle := SessionLifecycle.retired } = session := by
            rw [← hretired]
          simp [hretired, hsame]
        · simp [hretired]
    · dsimp only
      have hkept : ∀ session, retirement (snapshotOf observations) id session = none := by
        intro session
        unfold retirement SortedMap.get?
        rw [hfind]
        exact if_neg fun h => Bool.noConfusion h.1
      simp [hkept]
  calc (registry.reconcileEvents observations primary).2
      = { registry with
          sessions := (registry.reconcileEvents observations primary).2.sessions } := rfl
    _ = { registry with sessions := (registry.reconcile observations primary).sessions } := by
      rw [hsessions]
    _ = registry.reconcile observations primary := rfl

/-- The generation of a session, against the same session before: one further exactly where the
session was retired or its surface is another, and only then is its history empty. -/
structure Advanced (policy : FailurePolicy) (observation : Option SwapChainObservation)
    (before after : SwapChainSession) : Prop where
  generation_le : before.generation ≤ after.generation
  next_iff : after.generation = before.generation + 1 ↔
    ∃ current, observation = some current ∧
      (before.lifecycle = .retired ∨ ¬ sameSurface before.observation current)
  kept_iff : after.generation = before.generation ↔ after.generation ≠ before.generation + 1
  reset : after.generation = before.generation + 1 →
    after.failures = .new policy ∧ after.latestOutcomeSequences = fun _ => none
  kept : after.generation = before.generation →
    after.failures = before.failures ∧
      after.latestOutcomeSequences = before.latestOutcomeSequences
  observed : ∀ current, observation = some current → after.observation = current
  missing : observation = none → after.observation = before.observation

theorem saturating_generation {generation : Nat} (h : generation + 1 < 2 ^ 64) :
    saturating 64 (generation + 1) = generation + 1 :=
  FailureController.saturating_of_le h

variable {registry : SwapChainRegistry} {id : Nat} {session : SwapChainSession}

theorem advanced_reconcile (observations : List SwapChainObservation) (primary : Option Nat)
    (hget : registry.get? id = some session) (hlimit : session.generation + 1 < 2 ^ 64) :
    ∃ after, (registry.reconcile observations primary).get? id = some after ∧
      Advanced registry.failurePolicy ((snapshotOf observations).get? id) session after := by
  rw [get?_reconcile, hget]
  rcases (snapshotOf observations).get? id with _ | observation
  · refine ⟨{ session with lifecycle := .retired }, rfl, Nat.le_refl _, ?_, ?_, ?_, ?_, ?_, ?_⟩
    · constructor
      · intro h
        have hnext : session.generation = session.generation + 1 := h
        omega
      · rintro ⟨current, hcurrent, _⟩
        cases hcurrent
    · dsimp only
      omega
    · intro h
      have hnext : session.generation = session.generation + 1 := h
      omega
    · exact fun _ => ⟨rfl, rfl⟩
    · intro current hcurrent
      cases hcurrent
    · exact fun _ => rfl
  · dsimp only
    refine ⟨_, rfl, ?_⟩
    unfold observed
    by_cases hchanged : session.Changed observation
    · simp only [hchanged, if_true, SwapChainSession.advance, saturating_generation hlimit]
      refine ⟨Nat.le_succ _, ?_, ?_, fun _ => ⟨rfl, rfl⟩, ?_, ?_, ?_⟩
      · exact ⟨fun _ => ⟨observation, rfl, hchanged⟩, fun _ => rfl⟩
      · dsimp only
        omega
      · intro h
        have hsame : session.generation + 1 = session.generation := h
        omega
      · intro current hcurrent
        exact Option.some.inj hcurrent
      · intro hnone
        cases hnone
    · simp only [hchanged, if_false]
      refine ⟨Nat.le_refl _, ?_, ?_, ?_, fun _ => ⟨rfl, rfl⟩, ?_, ?_⟩
      · constructor
        · intro h
          have hnext : session.generation = session.generation + 1 := h
          omega
        · rintro ⟨current, hcurrent, hother⟩
          cases hcurrent
          exact absurd hother hchanged
      · dsimp only
        omega
      · intro h
        have hnext : session.generation = session.generation + 1 := h
        omega
      · intro current hcurrent
        exact Option.some.inj hcurrent
      · intro hnone
        cases hnone

variable {observations : List SwapChainObservation} {primary : Option Nat}

theorem retired_of_absent (habsent : (snapshotOf observations).get? id = none)
    (h : (registry.reconcile observations primary).get? id = some session) :
    session.lifecycle = .retired := by
  rw [get?_reconcile, habsent] at h
  obtain ⟨_, _, hafter⟩ := Option.map_eq_some_iff.mp h
  rw [← hafter]

theorem primary_reconcile (h : (registry.reconcile observations primary).get? id = some session)
    (hprimary : session.lifecycle = .primary) : primary = some id := by
  rw [get?_reconcile] at h
  rcases hget : (snapshotOf observations).get? id with _ | _
  · rw [hget] at h
    obtain ⟨_, _, hafter⟩ := Option.map_eq_some_iff.mp h
    rw [← hafter] at hprimary
    cases hprimary
  · rw [hget] at h
    have hafter := Option.some.inj h
    have hlifecycle : session.lifecycle = lifecycleOf primary id := by
      rw [← hafter]
      unfold observed
      split
      · rfl
      · rfl
    rw [hprimary] at hlifecycle
    unfold lifecycleOf at hlifecycle
    split at hlifecycle
    next hselected => exact hselected
    next => cases hlifecycle

def new (failurePolicy : FailurePolicy) : SwapChainRegistry := ⟨.empty, failurePolicy⟩

def withSession (id : Nat) (change : SwapChainSession → SwapChainSession)
    (registry : SwapChainRegistry) : SwapChainRegistry :=
  match registry.get? id with
  | some session => { registry with sessions := registry.sessions.put id (change session) }
  | none => registry

/-- One call on the registry or on a session of it. `failures` is anything that `failures_mut` lets
its caller leave. -/
inductive Call where
  | reconcile (observations : List SwapChainObservation) (primary : Option Nat)
  | recordRenderOutcome (id : Nat) (stage : RenderStage) (sequence : Nat) (succeeded : Bool)
  | failures (id : Nat) (failures : FailureController)

def call : Call → SwapChainRegistry → List SessionEvent × SwapChainRegistry
  | .reconcile observations primary, registry => registry.reconcileEvents observations primary
  | .recordRenderOutcome id stage sequence succeeded, registry =>
    ([], registry.withSession id fun session =>
      (session.recordRenderOutcome stage sequence succeeded).2)
  | .failures id failures, registry =>
    ([], registry.withSession id fun session => { session with failures })

def calls : List Call → SwapChainRegistry → List SessionEvent × SwapChainRegistry
  | [], registry => ([], registry)
  | first :: rest, registry =>
    let (events, next) := registry.call first
    let (later, final) := calls rest next
    (events ++ later, final)

def OnePrimary (registry : SwapChainRegistry) : Prop :=
  ∃ primary, ∀ id session, registry.get? id = some session → session.lifecycle = .primary →
    primary = some id

theorem OnePrimary.eq (h : registry.OnePrimary) {other : Nat} {another : SwapChainSession}
    (hget : registry.get? id = some session) (hother : registry.get? other = some another)
    (hprimary : session.lifecycle = .primary) (hsecond : another.lifecycle = .primary) :
    id = other := by
  obtain ⟨primary, hall⟩ := h
  have hid := hall id session hget hprimary
  have hsame := hall other another hother hsecond
  exact Option.some.inj (hid.symm.trans hsame)

theorem get?_withSession (id other : Nat) (change : SwapChainSession → SwapChainSession)
    (registry : SwapChainRegistry) :
    (registry.withSession id change).get? other =
      if other = id then (registry.get? other).map change else registry.get? other := by
  unfold withSession
  rcases hget : registry.get? id with _ | _
  · dsimp only
    split
    next heq => rw [heq, hget, Option.map_none]
    next => rfl
  · unfold get? at hget ⊢
    dsimp only
    rw [SortedMap.get?_put]
    split
    next heq => rw [heq, hget, Option.map_some]
    next => rfl

theorem lifecycle_recordRenderOutcome (stage : RenderStage) (sequence : Nat) (succeeded : Bool)
    (session : SwapChainSession) :
    (session.recordRenderOutcome stage sequence succeeded).2.lifecycle = session.lifecycle ∧
      (session.recordRenderOutcome stage sequence succeeded).2.generation = session.generation := by
  unfold SwapChainSession.recordRenderOutcome
  split
  · exact ⟨rfl, rfl⟩
  · exact ⟨rfl, rfl⟩

variable {change : SwapChainSession → SwapChainSession}

theorem view_withSession (id : Nat)
    (hchange : ∀ session, (change session).lifecycle = session.lifecycle ∧
      (change session).generation = session.generation) (registry : SwapChainRegistry) :
    (registry.withSession id change).view = registry.view := by
  funext other
  have hget := get?_withSession id other change registry
  unfold get? at hget
  unfold view viewOf
  rw [hget]
  split
  · rcases registry.sessions.get? other with _ | session
    · rfl
    · obtain ⟨hlifecycle, hgeneration⟩ := hchange session
      simp [hlifecycle, hgeneration]
  · rfl

theorem onePrimary_withSession (id : Nat)
    (hchange : ∀ session, (change session).lifecycle = session.lifecycle)
    (h : registry.OnePrimary) : (registry.withSession id change).OnePrimary := by
  obtain ⟨primary, hall⟩ := h
  refine ⟨primary, fun other session hget hprimary => ?_⟩
  rw [get?_withSession] at hget
  split at hget
  · obtain ⟨before, hbefore, rfl⟩ := Option.map_eq_some_iff.mp hget
    rw [hchange] at hprimary
    exact hall other before hbefore hprimary
  · exact hall other session hget hprimary

theorem call_spec (call : Call) (h : registry.OnePrimary) :
    replay registry.view (registry.call call).1 = (registry.call call).2.view ∧
      (registry.call call).2.OnePrimary := by
  cases call with
  | reconcile observations primary =>
    refine ⟨replay_reconcileEvents observations primary registry, primary, ?_⟩
    intro id session hget hprimary
    dsimp only [SwapChainRegistry.call] at hget
    rw [reconcileEvents_snd] at hget
    exact primary_reconcile hget hprimary
  | recordRenderOutcome id stage sequence succeeded =>
    have hkeeps := lifecycle_recordRenderOutcome stage sequence succeeded
    exact ⟨(view_withSession id hkeeps registry).symm,
      onePrimary_withSession id (fun session => (hkeeps session).1) h⟩
  | failures id failures =>
    have hview : (registry.withSession id fun session => { session with failures }).view =
        registry.view := view_withSession id (by intro session; exact ⟨rfl, rfl⟩) registry
    exact ⟨hview.symm, onePrimary_withSession id (by intro session; rfl) h⟩

theorem calls_spec (calls : List Call) (h : registry.OnePrimary) :
    replay registry.view (registry.calls calls).1 = (registry.calls calls).2.view ∧
      (registry.calls calls).2.OnePrimary := by
  induction calls generalizing registry with
  | nil => exact ⟨rfl, h⟩
  | cons call calls ih =>
    obtain ⟨hreplay, hnext⟩ := call_spec call h
    obtain ⟨hrest, hfinal⟩ := ih hnext
    refine ⟨?_, hfinal⟩
    dsimp only [SwapChainRegistry.calls]
    rw [replay_append, hreplay, hrest]

theorem onePrimary_new (policy : FailurePolicy) : (new policy).OnePrimary := by
  refine ⟨none, fun id session hget _ => ?_⟩
  cases hget

/-- The events of the registry replay it, and its generations count the changes of surface. -/
theorem session_events_replay (policy : FailurePolicy) (calls : List Call) :
    let (events, registry) := (new policy).calls calls
    replay (fun _ => none) events = registry.view ∧
    (∀ id session other another, registry.get? id = some session →
      registry.get? other = some another → session.lifecycle = .primary →
      another.lifecycle = .primary → id = other) ∧
    ∀ observations primary,
      let next := (registry.reconcileEvents observations primary).2
      replay registry.view (registry.reconcileEvents observations primary).1 = next.view ∧
      (∀ id session, registry.get? id = some session → session.generation + 1 < 2 ^ 64 →
        ∃ after, next.get? id = some after ∧
          Advanced registry.failurePolicy ((snapshotOf observations).get? id) session after) ∧
      (∀ id session, (snapshotOf observations).get? id = none → next.get? id = some session →
        session.lifecycle = .retired) ∧
      (∀ id session, next.get? id = some session → session.lifecycle = .primary →
        primary = some id) := by
  obtain ⟨hreplay, hone⟩ := calls_spec calls (onePrimary_new policy)
  refine ⟨hreplay, fun id session other another => hone.eq, fun observations primary => ?_⟩
  have hnext := reconcileEvents_snd observations primary ((new policy).calls calls).2
  refine ⟨replay_reconcileEvents observations primary _, ?_, ?_, ?_⟩
  · intro id session hget hlimit
    rw [hnext]
    exact advanced_reconcile observations primary hget hlimit
  · intro id session habsent hget
    rw [hnext] at hget
    exact retired_of_absent habsent hget
  · intro id session hget hprimary
    rw [hnext] at hget
    exact primary_reconcile hget hprimary

end SwapChainRegistry

end Nexus.Render
