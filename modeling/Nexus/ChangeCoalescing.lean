import Nexus.ChangeRecords
import Nexus.EventLog
import Nexus.StepRuns

namespace Nexus.AddonWatch

open StepRuns

/-- `Duration::MAX` in nanoseconds. Durations and clock readings are counted in them. -/
def DURATION_MAX : Nat := (2 ^ 64 - 1) * 10 ^ 9 + 999999999

def addOrMax (lhs rhs : Nat) : Nat := if lhs + rhs ≤ DURATION_MAX then lhs + rhs else DURATION_MAX

structure WatchConfig where
  quietPeriod : Nat
  maxLatency : Nat
  quiet_pos : 0 < quietPeriod
  quiet_le : quietPeriod ≤ maxLatency

inductive WatchError where
  | ioEventResetFailed
  | readStartFailed
  | readCompletionFailed
  | readCancellationFailed
  | waitFailed
  deriving DecidableEq

structure Coalescer where
  config : WatchConfig
  firstAt : Option Nat
  lastAt : Option Nat
  kinds : ChangeKinds

namespace Coalescer

def new (config : WatchConfig) : Coalescer := ⟨config, none, none, .default⟩

def record (now : Nat) (kinds : ChangeKinds) (coalescer : Coalescer) : Coalescer :=
  if kinds.isEmpty then coalescer
  else
    { coalescer with
      firstAt := some (coalescer.firstAt.getD now)
      lastAt := some (coalescer.lastAt.elim now fun last => max last now)
      kinds := coalescer.kinds.bitor kinds }

def deadline (coalescer : Coalescer) : Option Nat := do
  let first ← coalescer.firstAt
  let last ← coalescer.lastAt
  some (min (addOrMax last coalescer.config.quietPeriod)
    (addOrMax first coalescer.config.maxLatency))

def clear (coalescer : Coalescer) : Coalescer := new coalescer.config

def takeIfDue (now : Nat) (coalescer : Coalescer) : Option (ChangeKinds × Coalescer) :=
  if coalescer.deadline.any fun deadline => deadline ≤ now then
    some (coalescer.kinds, new coalescer.config)
  else none

end Coalescer

def STOP_POLL_INTERVAL : Nat := 250 * 10 ^ 6

def durationMillisCeil (duration : Nat) : Nat :=
  let wholeMillis :=
    if duration / 10 ^ 6 < 2 ^ 32 then duration / 10 ^ 6 else 2 ^ 32 - 2
  if duration % 10 ^ 6 = 0 then wholeMillis else min (wholeMillis + 1) (2 ^ 32 - 1)

def waitTimeout (coalescer : Coalescer) (now : Nat) : Nat :=
  let untilDelivery := coalescer.deadline.elim STOP_POLL_INTERVAL fun deadline => deadline - now
  durationMillisCeil (min untilDelivery STOP_POLL_INTERVAL)

inductive GateState where
  | callbackIdle
  | callbackActive
  | stopping
  | callbackStopping
  deriving DecidableEq

namespace GateState

def tryBeginCallback : GateState → Option GateState
  | callbackIdle => some callbackActive
  | _ => none

def finishCallback : GateState → GateState
  | callbackActive => callbackIdle
  | _ => stopping

def requestStop : GateState → GateState
  | callbackIdle => stopping
  | callbackActive => callbackStopping
  | stopping => stopping
  | callbackStopping => callbackStopping

def IsStopping (gate : GateState) : Prop := gate = stopping ∨ gate = callbackStopping

instance (gate : GateState) : Decidable gate.IsStopping := inferInstanceAs (Decidable (_ ∨ _))

end GateState

/-- What `WaitForMultipleObjects` comes back with, and what the calls after it answer. -/
inductive WaitOutcome where
  | stopEvent
  | completion (transferred : Except WatchError Nat) (buffer : List UInt8) (now : Nat)
      (begun : Except WatchError Unit)
  | timeout (now : Nat) (panics : Bool)
  | failed

inductive StopPoint where
  | top
  | waited
  | recorded
  | dispatching
  | callback
  deriving DecidableEq

structure Turn where
  stopAt : StopPoint → Bool
  asked : Nat
  outcome : WaitOutcome
  cancelled : Except WatchError Unit

/-- What the worker recorded and delivered, at which reading of the clock. The last is the first in a
log. -/
inductive WorkEvent where
  | recorded (now : Nat) (kinds : ChangeKinds)
  | delivered (now : Nat) (kinds : ChangeKinds)
  deriving DecidableEq

/-- The worker between two turns. `waits` are the time-outs asked for, and the outcome of a worker that
has ended is its number of contained panics. -/
structure Worker where
  coalescer : Coalescer
  gate : GateState
  callbackPanics : Nat
  waits : List Nat
  log : List WorkEvent
  outcome : Option (Except WatchError Nat)

namespace Worker

def initial (config : WatchConfig) : Worker := ⟨.new config, .callbackIdle, 0, [], [], none⟩

def reach (turn : Turn) (point : StopPoint) (worker : Worker) : Worker :=
  if turn.stopAt point then { worker with gate := worker.gate.requestStop } else worker

/-- Pending changes are cleared, the read is cancelled, and the report is returned. -/
def stopped (turn : Turn) (worker : Worker) : Worker :=
  { worker with
    coalescer := worker.coalescer.clear
    outcome := some (turn.cancelled.map fun _ => worker.callbackPanics) }

def record (now : Nat) (kinds : ChangeKinds) (worker : Worker) : Worker :=
  { worker with
    coalescer := worker.coalescer.record now kinds
    log := .recorded now kinds :: worker.log }

def deliver (gate : GateState) (now : Nat) (kinds : ChangeKinds) (worker : Worker) : Worker :=
  { worker with gate := gate, log := .delivered now kinds :: worker.log }

/-- `dispatch_callback`: a stop may come before the gate and while the callback runs. -/
def dispatchCallback (turn : Turn) (now : Nat) (kinds : ChangeKinds) (panics : Bool)
    (worker : Worker) : Worker :=
  let worker := worker.reach turn .dispatching
  match worker.gate.tryBeginCallback with
  | none => worker
  | some gate =>
    let worker := (worker.deliver gate now kinds).reach turn .callback
    { worker with
      gate := worker.gate.finishCallback
      callbackPanics :=
        if panics then min (worker.callbackPanics + 1) (2 ^ 64 - 1) else worker.callbackPanics }

def complete (turn : Turn) (transferred : Except WatchError Nat) (buffer : List UInt8) (now : Nat)
    (begun : Except WatchError Unit) (worker : Worker) : Worker :=
  let worker := worker.reach turn .waited
  if worker.gate.IsStopping then worker.stopped turn
  else
    match transferred with
    | .error error => { worker with outcome := some (.error error) }
    | .ok bytes =>
      let worker := worker.record now (parseChangeKinds buffer bytes)
      let worker := worker.reach turn .recorded
      if worker.gate.IsStopping then
        { worker with coalescer := worker.coalescer.clear, outcome := some (.ok worker.callbackPanics) }
      else
        match begun with
        | .error error => { worker with outcome := some (.error error) }
        | .ok () => worker

def expire (turn : Turn) (now : Nat) (panics : Bool) (worker : Worker) : Worker :=
  let worker := worker.reach turn .waited
  if worker.gate.IsStopping then worker.stopped turn
  else
    match worker.coalescer.takeIfDue now with
    | none => worker
    | some (kinds, coalescer) => { worker with coalescer }.dispatchCallback turn now kinds panics

/-- One turn of the loop of `run_worker`. -/
def step (worker : Worker) (turn : Turn) : Option Worker :=
  if worker.outcome.isSome then none
  else
    let worker := worker.reach turn .top
    if worker.gate.IsStopping then some (worker.stopped turn)
    else
      let worker :=
        { worker with waits := worker.waits ++ [waitTimeout worker.coalescer turn.asked] }
      match turn.outcome with
      | .stopEvent => some (worker.stopped turn)
      | .completion transferred buffer now begun =>
        some (worker.complete turn transferred buffer now begun)
      | .timeout now panics => some (worker.expire turn now panics)
      | .failed =>
        some { worker with
          outcome := some (match turn.cancelled with
            | .ok () => .error .waitFailed
            | .error error => .error error) }

end Worker

def pendingChanges : List WorkEvent → List (Nat × ChangeKinds)
  | [] => []
  | .recorded now kinds :: earlier => pendingChanges earlier ++ [(now, kinds)]
  | .delivered _ _ :: _ => []

def unionOf (changes : List (Nat × ChangeKinds)) : ChangeKinds :=
  changes.foldl (fun kinds change => kinds.bitor change.2) .default

def firstChange (changes : List (Nat × ChangeKinds)) : Option Nat := changes.head?.map Prod.fst

def lastChange (changes : List (Nat × ChangeKinds)) : Option Nat :=
  changes.foldl (fun last change => some (last.elim change.1 fun last => max last change.1)) none

def dueAt (config : WatchConfig) (changes : List (Nat × ChangeKinds)) : Option Nat := do
  let first ← firstChange changes
  let last ← lastChange changes
  some (min (addOrMax last config.quietPeriod) (addOrMax first config.maxLatency))

/-- Each delivery of the log has just what was recorded since the one before, and is not early. -/
def Exact (config : WatchConfig) (log : List WorkEvent) : Prop :=
  EachEvent (fun event earlier => ∀ now kinds, event = .delivered now kinds →
    kinds = unionOf (pendingChanges earlier) ∧
      ∃ due, dueAt config (pendingChanges earlier) = some due ∧ due ≤ now) log

def Turn.reading (turn : Turn) : Option Nat :=
  match turn.outcome with
  | .completion _ _ now _ | .timeout now _ => some now
  | .stopEvent | .failed => none

/-- A worker that goes on after the turn has nothing pending that is older than the latency allows. -/
def Prompt (config : WatchConfig) (turn : Turn) (after : Worker) : Prop :=
  after.outcome = none → ¬ after.gate.IsStopping → ∀ now, turn.reading = some now →
    ∀ first, firstChange (pendingChanges after.log) = some first →
      now < addOrMax first config.maxLatency

/-- A completed read that the worker goes on after is handled before the first pending change, or its
own, is older than the latency allows. -/
def InTime (config : WatchConfig) (worker : Worker) (turn : Turn) : Prop :=
  match turn.outcome with
  | .completion (.ok _) _ now (.ok ()) =>
    ¬ worker.gate.IsStopping → turn.stopAt .top = false → turn.stopAt .waited = false →
      turn.stopAt .recorded = false →
        now < addOrMax (worker.coalescer.firstAt.getD now) config.maxLatency
  | _ => True

structure Summarizes (config : WatchConfig) (coalescer : Coalescer)
    (changes : List (Nat × ChangeKinds)) : Prop where
  config_eq : coalescer.config = config
  first_eq : coalescer.firstAt = firstChange changes
  last_eq : coalescer.lastAt = lastChange changes
  kinds_eq : coalescer.kinds = unionOf changes

theorem summarizes_new (config : WatchConfig) : Summarizes config (.new config) [] :=
  ⟨rfl, rfl, rfl, rfl⟩

section Summary

variable {config : WatchConfig} {coalescer : Coalescer} {changes : List (Nat × ChangeKinds)}

theorem firstChange_concat (changes : List (Nat × ChangeKinds)) (now : Nat) (kinds : ChangeKinds) :
    firstChange (changes ++ [(now, kinds)]) = some ((firstChange changes).getD now) := by
  cases changes with
  | nil | cons => rfl

variable {first : Nat}

theorem lastChange_of_firstChange (h : firstChange changes = some first) :
    ∃ last, lastChange changes = some last := by
  have hkeeps : ∀ (rest : List (Nat × ChangeKinds)) (last : Nat), ∃ latest,
      rest.foldl (fun last change => some (last.elim change.1 fun last => max last change.1))
        (some last) = some latest := by
    intro rest
    induction rest with
    | nil => exact fun last => ⟨last, rfl⟩
    | cons change _ ih => exact fun last => ih (max last change.1)
  cases changes with
  | nil => cases h
  | cons change rest => exact hkeeps rest change.1

theorem Summarizes.record (h : Summarizes config coalescer changes) (now : Nat)
    {kinds : ChangeKinds} (hkinds : ¬ kinds.isEmpty) :
    Summarizes config (coalescer.record now kinds) (changes ++ [(now, kinds)]) := by
  unfold Coalescer.record
  rw [if_neg hkinds]
  refine ⟨h.config_eq, ?_, ?_, ?_⟩
  · rw [firstChange_concat, ← h.first_eq]
  · simp [lastChange, h.last_eq]
  · simp [unionOf, h.kinds_eq]

theorem Summarizes.deadline (h : Summarizes config coalescer changes) :
    coalescer.deadline = dueAt config changes := by
  unfold Coalescer.deadline dueAt
  rw [h.first_eq, h.last_eq, h.config_eq]

theorem Summarizes.taken (h : Summarizes config coalescer changes) {now : Nat}
    {kinds : ChangeKinds} {next : Coalescer} (htake : coalescer.takeIfDue now = some (kinds, next)) :
    next = .new config ∧ kinds = unionOf changes ∧
      ∃ due, dueAt config changes = some due ∧ due ≤ now := by
  unfold Coalescer.takeIfDue at htake
  rw [h.deadline] at htake
  split at htake
  next hdue =>
    cases htake
    obtain ⟨due, hsome, hle⟩ := (Option.any_eq_true _ _).mp hdue
    exact ⟨by rw [h.config_eq], h.kinds_eq, due, hsome, of_decide_eq_true hle⟩
  next => cases htake

theorem Summarizes.not_taken (h : Summarizes config coalescer changes) {now : Nat}
    (htake : coalescer.takeIfDue now = none) (hfirst : firstChange changes = some first) :
    now < addOrMax first config.maxLatency := by
  unfold Coalescer.takeIfDue at htake
  rw [h.deadline] at htake
  split at htake
  · cases htake
  next hnot =>
    obtain ⟨last, hlast⟩ := lastChange_of_firstChange hfirst
    have hdue : dueAt config changes =
        some (min (addOrMax last config.quietPeriod) (addOrMax first config.maxLatency)) := by
      unfold dueAt
      rw [hfirst, hlast]
      rfl
    rw [hdue, Option.any_some, decide_eq_true_eq] at hnot
    omega

end Summary

namespace Worker

variable {config : WatchConfig} {worker next : Worker} {turn : Turn}

theorem isStopping_requestStop (gate : GateState) : gate.requestStop.IsStopping := by
  cases gate
  · exact Or.inl rfl
  · exact Or.inr rfl
  · exact Or.inl rfl
  · exact Or.inr rfl

theorem reach_of_not_stopping {point : StopPoint} (h : ¬ (worker.reach turn point).gate.IsStopping) :
    turn.stopAt point = false ∧ worker.reach turn point = worker := by
  unfold reach at h ⊢
  split at h
  · exact absurd (isStopping_requestStop worker.gate) h
  next hstop =>
    refine ⟨Bool.eq_false_of_not_eq_true hstop, ?_⟩
    rw [if_neg hstop]

@[simp]
theorem log_reach (turn : Turn) (point : StopPoint) (worker : Worker) :
    (worker.reach turn point).log = worker.log := by
  unfold reach
  split
  · rfl
  · rfl

@[simp]
theorem coalescer_reach (turn : Turn) (point : StopPoint) (worker : Worker) :
    (worker.reach turn point).coalescer = worker.coalescer := by
  unfold reach
  split
  · rfl
  · rfl

@[simp]
theorem outcome_reach (turn : Turn) (point : StopPoint) (worker : Worker) :
    (worker.reach turn point).outcome = worker.outcome := by
  unfold reach
  split
  · rfl
  · rfl

def RecordsAtMost (worker next : Worker) : Prop :=
  next.log = worker.log ∨ ∃ now kinds, next.log = .recorded now kinds :: worker.log

variable {buffer : List UInt8} {now : Nat}

theorem complete_cases {transferred : Except WatchError Nat} {begun : Except WatchError Unit}
    (h : worker.complete turn transferred buffer now begun = next) :
    (RecordsAtMost worker next ∧ (next.outcome ≠ none ∨ next.gate.IsStopping)) ∨
    (∃ bytes, transferred = .ok bytes ∧ begun = .ok () ∧ ¬ next.gate.IsStopping ∧
      turn.stopAt .waited = false ∧ turn.stopAt .recorded = false ∧
      next.coalescer = worker.coalescer.record now (parseChangeKinds buffer bytes) ∧
      next.log = .recorded now (parseChangeKinds buffer bytes) :: worker.log) := by
  unfold complete at h
  dsimp only at h
  split at h
  · subst h
    exact Or.inl ⟨Or.inl (by simp [stopped]), Or.inl (by simp [stopped])⟩
  next hwaited =>
    obtain ⟨hstop, hsame⟩ := reach_of_not_stopping hwaited
    rw [hsame] at h
    rcases transferred with error | bytes
    · subst h
      exact Or.inl ⟨Or.inl rfl, Or.inl (Option.some_ne_none _)⟩
    · dsimp only at h
      split at h
      · subst h
        exact Or.inl ⟨Or.inr ⟨now, parseChangeKinds buffer bytes, by simp [record]⟩,
          Or.inl (Option.some_ne_none _)⟩
      next hrecorded =>
        obtain ⟨hlater, hafter⟩ := reach_of_not_stopping hrecorded
        rw [hafter] at h hrecorded
        rcases begun with error | _
        · subst h
          exact Or.inl ⟨Or.inr ⟨now, _, rfl⟩, Or.inl (Option.some_ne_none _)⟩
        · subst h
          exact Or.inr ⟨bytes, rfl, rfl, hrecorded, hstop, hlater, rfl, rfl⟩

/-- Between two turns no callback runs. -/
def AtRest (worker : Worker) : Prop := worker.gate = .callbackIdle ∨ worker.gate = .stopping

theorem AtRest.reach (h : worker.AtRest) (turn : Turn) (point : StopPoint) :
    (worker.reach turn point).AtRest := by
  unfold AtRest Worker.reach at *
  split
  · rcases h with h | h
    · rw [h]
      exact Or.inr rfl
    · rw [h]
      exact Or.inr rfl
  · exact h

theorem AtRest.idle (h : worker.AtRest) (hgate : ¬ worker.gate.IsStopping) :
    worker.gate = .callbackIdle :=
  h.resolve_right fun hstopping => hgate (Or.inl hstopping)

theorem finish_callback (h : worker.gate = .callbackActive) :
    (worker.reach turn .callback).gate.finishCallback = .callbackIdle ∨
      (worker.reach turn .callback).gate.finishCallback = .stopping := by
  unfold reach
  split
  · dsimp only
    rw [h]
    exact Or.inr rfl
  · rw [h]
    exact Or.inl rfl

variable {panics : Bool}

theorem dispatchCallback_cases {kinds : ChangeKinds} (hgate : worker.gate = .callbackIdle)
    (h : worker.dispatchCallback turn now kinds panics = next) :
    next.AtRest ∧ next.coalescer = worker.coalescer ∧
      ((next.log = worker.log ∧ next.gate.IsStopping) ∨
        next.log = .delivered now kinds :: worker.log) := by
  unfold dispatchCallback at h
  dsimp only at h
  have hrest : (worker.reach turn .dispatching).AtRest := AtRest.reach (Or.inl hgate) turn _
  rcases hrest with hidle | hstopping
  · -- the callback runs, and a stop may be requested meanwhile
    have hbegin : GateState.callbackIdle.tryBeginCallback = some .callbackActive := rfl
    rw [hidle, hbegin] at h
    dsimp only at h
    subst h
    exact ⟨finish_callback rfl, by simp [deliver], Or.inr (by simp [deliver])⟩
  · have hrefused : GateState.stopping.tryBeginCallback = none := rfl
    rw [hstopping, hrefused] at h
    dsimp only at h
    subst h
    exact ⟨Or.inr hstopping, by simp, Or.inl ⟨by simp, Or.inl hstopping⟩⟩

theorem AtRest.complete (h : worker.AtRest) (turn : Turn) (transferred : Except WatchError Nat)
    (buffer : List UInt8) (now : Nat) (begun : Except WatchError Unit) :
    (worker.complete turn transferred buffer now begun).AtRest := by
  unfold Worker.complete
  dsimp only
  split
  · exact h.reach turn .waited
  · rcases transferred with error | bytes
    · exact h.reach turn .waited
    · have hlater : ((worker.reach turn .waited).record now
          (parseChangeKinds buffer bytes)).AtRest := h.reach turn .waited
      dsimp only
      split
      · exact hlater.reach turn .recorded
      · rcases begun with error | _
        · exact hlater.reach turn .recorded
        · exact hlater.reach turn .recorded

theorem expire_cases (hrest : worker.AtRest) (h : worker.expire turn now panics = next) :
    next.AtRest ∧ ((next.log = worker.log ∧ (next.outcome ≠ none ∨ next.gate.IsStopping)) ∨
    (worker.coalescer.takeIfDue now = none ∧ next.coalescer = worker.coalescer ∧
      next.log = worker.log) ∨
    (∃ kinds, worker.coalescer.takeIfDue now = some (kinds, next.coalescer) ∧
      next.log = .delivered now kinds :: worker.log)) := by
  unfold expire at h
  dsimp only at h
  split at h
  · subst h
    exact ⟨hrest.reach turn .waited, Or.inl ⟨by simp [stopped], Or.inl (by simp [stopped])⟩⟩
  next hwaited =>
    obtain ⟨_, hsame⟩ := reach_of_not_stopping hwaited
    rw [hsame] at h hwaited
    rcases htake : worker.coalescer.takeIfDue now with _ | ⟨kinds, coalescer⟩
    · rw [htake] at h
      subst h
      exact ⟨hrest, Or.inr (Or.inl ⟨rfl, rfl, rfl⟩)⟩
    · rw [htake] at h
      have hidle : ({ worker with coalescer := coalescer } : Worker).gate = .callbackIdle :=
        hrest.idle hwaited
      obtain ⟨hafter, hcoalescer, hlog⟩ := dispatchCallback_cases hidle h
      refine ⟨hafter, ?_⟩
      rcases hlog with ⟨hlog, hgate⟩ | hlog
      · exact Or.inl ⟨hlog, Or.inr hgate⟩
      · exact Or.inr (Or.inr ⟨kinds, by rw [hcoalescer], hlog⟩)

/-- The ways a turn ends: the worker is over or told to stop, it recorded a change, its wait ended with
nothing due, or it delivered. -/
theorem step_cases (hrest : worker.AtRest) (hstep : worker.step turn = some next) :
    next.AtRest ∧
    ((RecordsAtMost worker next ∧ (next.outcome ≠ none ∨ next.gate.IsStopping)) ∨
    (∃ bytes buffer now, turn.outcome = .completion (.ok bytes) buffer now (.ok ()) ∧
      ¬ worker.gate.IsStopping ∧ ¬ next.gate.IsStopping ∧ turn.stopAt .top = false ∧
      turn.stopAt .waited = false ∧ turn.stopAt .recorded = false ∧
      next.coalescer = worker.coalescer.record now (parseChangeKinds buffer bytes) ∧
      next.log = .recorded now (parseChangeKinds buffer bytes) :: worker.log) ∨
    (∃ now panics, turn.outcome = .timeout now panics ∧ ¬ worker.gate.IsStopping ∧
      worker.coalescer.takeIfDue now = none ∧ next.coalescer = worker.coalescer ∧
      next.log = worker.log) ∨
    (∃ now panics kinds, turn.outcome = .timeout now panics ∧ ¬ worker.gate.IsStopping ∧
      worker.coalescer.takeIfDue now = some (kinds, next.coalescer) ∧
      next.log = .delivered now kinds :: worker.log)) := by
  unfold step at hstep
  split at hstep
  · cases hstep
  · dsimp only at hstep
    split at hstep
    · cases hstep
      exact ⟨hrest.reach turn .top, Or.inl ⟨Or.inl (by simp [stopped]), Or.inl (by simp [stopped])⟩⟩
    next htop =>
      obtain ⟨hstop, hsame⟩ := reach_of_not_stopping htop
      rw [hsame] at hstep htop
      have hwaits : ∀ waits, ({ worker with waits := waits } : Worker).AtRest := fun _ => hrest
      rcases houtcome : turn.outcome with _ | ⟨transferred, buffer, now, begun⟩ | ⟨now, panics⟩ | _
      · rw [houtcome] at hstep
        cases hstep
        exact ⟨hrest, Or.inl ⟨Or.inl rfl, Or.inl (Option.some_ne_none _)⟩⟩
      · rw [houtcome] at hstep
        have hcomplete := Option.some.inj hstep
        refine ⟨hcomplete ▸ (hwaits _).complete turn transferred buffer now begun, ?_⟩
        rcases complete_cases hcomplete with ⟨hlog, hend⟩ |
          ⟨bytes, rfl, rfl, hgate, hwaited, hrecorded, hcoalescer, hlog⟩
        · exact Or.inl ⟨hlog, hend⟩
        · exact Or.inr (Or.inl ⟨bytes, buffer, now, rfl, htop, hgate, hstop, hwaited, hrecorded,
            hcoalescer, hlog⟩)
      · rw [houtcome] at hstep
        obtain ⟨hafter, hcases⟩ := expire_cases (hwaits _) (Option.some.inj hstep)
        refine ⟨hafter, ?_⟩
        rcases hcases with ⟨hlog, hend⟩ | ⟨htake, hcoalescer, hlog⟩ | ⟨kinds, htake, hlog⟩
        · exact Or.inl ⟨Or.inl hlog, hend⟩
        · exact Or.inr (Or.inr (Or.inl ⟨now, panics, rfl, htop, htake, hcoalescer, hlog⟩))
        · exact Or.inr (Or.inr (Or.inr ⟨now, panics, kinds, rfl, htop, htake, hlog⟩))
      · rw [houtcome] at hstep
        cases hstep
        exact ⟨hrest, Or.inl ⟨Or.inl rfl, Or.inl (Option.some_ne_none _)⟩⟩

structure Sound (config : WatchConfig) (worker : Worker) : Prop where
  rest : worker.AtRest
  exact : Exact config worker.log
  summary : worker.outcome = none → ¬ worker.gate.IsStopping →
    Summarizes config worker.coalescer (pendingChanges worker.log)

theorem sound_initial (config : WatchConfig) : Sound config (initial config) := by
  exact ⟨Or.inl rfl, trivial, fun _ _ => summarizes_new config⟩

variable {log : List WorkEvent}

theorem exact_recorded (h : Exact config log) (now : Nat) (kinds : ChangeKinds) :
    Exact config (.recorded now kinds :: log) :=
  ⟨fun _ _ hevent => WorkEvent.noConfusion hevent, h⟩

theorem exact_delivered (h : Exact config log) {due : Nat}
    (hdue : dueAt config (pendingChanges log) = some due) (hle : due ≤ now) :
    Exact config (.delivered now (unionOf (pendingChanges log)) :: log) := by
  refine ⟨fun later kinds hevent => ?_, h⟩
  cases hevent
  exact ⟨rfl, due, hdue, hle⟩

theorem RecordsAtMost.exact (h : RecordsAtMost worker next) (hexact : Exact config worker.log) :
    Exact config next.log := by
  rcases h with hlog | ⟨now, kinds, hlog⟩
  · rw [hlog]
    exact hexact
  · rw [hlog]
    exact exact_recorded hexact now kinds

theorem outcome_of_step (hstep : worker.step turn = some next) : worker.outcome = none := by
  unfold step at hstep
  split at hstep
  · cases hstep
  next h => exact Option.not_isSome_iff_eq_none.mp h

theorem sound_step (hstep : worker.step turn = some next) (h : Sound config worker) :
    Sound config next := by
  have houtcome := outcome_of_step hstep
  obtain ⟨hrest, hcases⟩ := step_cases h.rest hstep
  rcases hcases with ⟨hlog, hend⟩ | ⟨bytes, buffer, now, _, hgate, _, _, _, _, hcoalescer, hlog⟩ |
    ⟨now, panics, _, hgate, _, hcoalescer, hlog⟩ | ⟨now, panics, _, _, hgate, htake, hlog⟩
  · refine ⟨hrest, hlog.exact h.exact, fun hnone hnot => ?_⟩
    rcases hend with hsome | hstopping
    · exact absurd hnone hsome
    · exact absurd hstopping hnot
  · have hsummary := h.summary houtcome hgate
    refine ⟨hrest, ?_, fun _ _ => ?_⟩
    · rw [hlog]
      exact exact_recorded h.exact now _
    · rw [hlog, pendingChanges, hcoalescer]
      exact hsummary.record now (parseChangeKinds_not_isEmpty buffer bytes)
  · have hsummary := h.summary houtcome hgate
    refine ⟨hrest, hlog ▸ h.exact, fun _ _ => ?_⟩
    rw [hlog, hcoalescer]
    exact hsummary
  · have hsummary := h.summary houtcome hgate
    obtain ⟨hnext, rfl, _, hdue, hle⟩ := hsummary.taken htake
    refine ⟨hrest, ?_, fun _ _ => ?_⟩
    · rw [hlog]
      exact exact_delivered h.exact hdue hle
    · rw [hlog, pendingChanges, hnext]
      exact summarizes_new config

theorem sound_run {turns : List Turn} {final : Worker}
    (hrun : runSteps step (initial config) turns = some final) : Sound config final :=
  runSteps_invariant (fun _ _ _ hstep h => sound_step hstep h) hrun (sound_initial config)

theorem step_completion {bytes : Nat} (houtcome : worker.outcome = none)
    (hturn : turn.outcome = .completion (.ok bytes) buffer now (.ok ()))
    (hgate : ¬ worker.gate.IsStopping) (htop : turn.stopAt .top = false)
    (hwaited : turn.stopAt .waited = false) (hrecorded : turn.stopAt .recorded = false) :
    worker.step turn = some
      ({ worker with waits := worker.waits ++ [waitTimeout worker.coalescer turn.asked] }.record now
        (parseChangeKinds buffer bytes)) := by
  have hreach : ∀ (point : StopPoint) (other : Worker), turn.stopAt point = false →
      other.reach turn point = other := fun point other hstop => by
    unfold reach
    rw [hstop]
    exact if_neg Bool.false_ne_true
  unfold step
  rw [houtcome, hturn, hreach .top worker htop]
  dsimp only [Option.isSome]
  rw [if_neg Bool.false_ne_true, if_neg hgate]
  unfold complete
  rw [hreach .waited _ hwaited]
  dsimp only
  rw [if_neg hgate, hreach .recorded _ hrecorded]
  have hstill : ¬ ({ worker with waits := worker.waits ++
      [waitTimeout worker.coalescer turn.asked] }.record now
        (parseChangeKinds buffer bytes) : Worker).gate.IsStopping := hgate
  rw [if_neg hstill, houtcome]

theorem prompt_iff (hstep : worker.step turn = some next) (h : Sound config worker) :
    Prompt config turn next ↔ InTime config worker turn := by
  have houtcome := outcome_of_step hstep
  constructor
  · intro hprompt
    unfold InTime
    split
    next now hturn =>
      intro hgate htop hwaited hrecorded
      have hnext := step_completion houtcome hturn hgate htop hwaited hrecorded
      cases Option.some.inj (hstep.symm.trans hnext)
      have hreading : turn.reading = some now := by
        unfold Turn.reading
        rw [hturn]
      refine hprompt houtcome hgate now hreading _ ?_
      have hfirst := (h.summary houtcome hgate).first_eq
      simp only [record, pendingChanges, firstChange_concat, hfirst]
    next => trivial
  · intro hintime hnone hnot reading hreading first hfirst
    obtain ⟨_, hcases⟩ := step_cases h.rest hstep
    rcases hcases with ⟨_, hend⟩ |
      ⟨_, _, now, hturn, hgate, _, htop, hwaited, hrecorded, _, hlog⟩ |
      ⟨now, panics, hturn, hgate, htake, _, hlog⟩ | ⟨now, panics, _, _, _, _, hlog⟩
    · rcases hend with hsome | hstopping
      · exact absurd hnone hsome
      · exact absurd hstopping hnot
    · unfold Turn.reading at hreading
      unfold InTime at hintime
      rw [hturn] at hreading hintime
      cases hreading
      have hlimit := hintime hgate htop hwaited hrecorded
      rw [hlog, pendingChanges, firstChange_concat,
        ← (h.summary houtcome hgate).first_eq] at hfirst
      cases hfirst
      exact hlimit
    · unfold Turn.reading at hreading
      rw [hturn] at hreading
      cases hreading
      rw [hlog] at hfirst
      exact (h.summary houtcome hgate).not_taken htake hfirst
    · rw [hlog, pendingChanges] at hfirst
      cases hfirst

/-- The changes of a run are coalesced as promised: what is delivered is exact and not early, and no
turn that the worker goes on after leaves a change waiting past the latency. -/
def Coalesces (config : WatchConfig) (turns : List Turn) : Prop :=
  ∀ first rest, turns = first ++ rest → ∀ worker,
    runSteps step (initial config) first = some worker →
      Exact config worker.log ∧
        ∀ turn later, rest = turn :: later → ∀ next, worker.step turn = some next →
          Prompt config turn next

theorem coalesces_iff {turns : List Turn} {final : Worker}
    (hrun : runSteps step (initial config) turns = some final) :
    Coalesces config turns ↔ EveryStep step (InTime config) (initial config) turns := by
  rw [everyStep_iff_split]
  constructor
  · intro h first turn rest hsplit worker hfirst
    rw [hsplit] at hrun
    obtain ⟨_, hmiddle, hlater⟩ := runSteps_append.mp hrun
    cases Option.some.inj (hfirst.symm.trans hmiddle)
    obtain ⟨next, hstep, _⟩ := runSteps_cons.mp hlater
    have hprompt := (h first (turn :: rest) hsplit worker hfirst).2 turn rest rfl next hstep
    exact (prompt_iff hstep (sound_run hfirst)).mp hprompt
  · intro h first rest hsplit worker hfirst
    have hsound := sound_run hfirst
    refine ⟨hsound.exact, fun turn later hrest next hstep => ?_⟩
    rw [hrest] at hsplit
    exact (prompt_iff hstep hsound).mpr (h first turn later hsplit worker hfirst)

def burstConfig : WatchConfig := ⟨1, 2, by decide, by decide⟩

/-- A read completes with one created file, and the worker goes on. -/
def created (now : Nat) : Turn :=
  ⟨fun _ => false, now, .completion (.ok 12) [0, 0, 0, 0, 1, 0, 0, 0, 0, 0, 0, 0] now (.ok ()), .ok ()⟩

theorem step_created {worker : Worker} (now : Nat) (houtcome : worker.outcome = none)
    (hgate : worker.gate = .callbackIdle) :
    ∃ next kinds, worker.step (created now) = some next ∧ ¬ kinds.isEmpty ∧ next.outcome = none ∧
      next.gate = .callbackIdle ∧ next.coalescer = worker.coalescer.record now kinds ∧
      next.log = .recorded now kinds :: worker.log := by
  have hnot : ¬ worker.gate.IsStopping := by
    rw [hgate]
    decide
  exact ⟨_, _, step_completion houtcome rfl hnot rfl rfl rfl,
    parseChangeKinds_not_isEmpty _ _, houtcome, hgate, rfl, rfl⟩

theorem coalesces_iff_shortBurst : Coalesces burstConfig [created 0, created 1] := by
  have hstart : (initial burstConfig).outcome = none := rfl
  obtain ⟨first, _, hfirst, hkinds, houtcome, hgate, hcoalescer, _⟩ := step_created 0 hstart rfl
  obtain ⟨second, _, hsecond, _⟩ := step_created 1 houtcome hgate
  have hrun : runSteps step (initial burstConfig) [created 0, created 1] = some second :=
    runSteps_cons.mpr ⟨first, hfirst, runSteps_cons.mpr ⟨second, hsecond, rfl⟩⟩
  refine (coalesces_iff hrun).mpr ⟨fun _ _ _ _ => by decide, fun next hnext => ?_⟩
  cases Option.some.inj (hfirst.symm.trans hnext)
  refine ⟨fun _ _ _ _ => ?_, fun _ _ => trivial⟩
  rw [hcoalescer]
  unfold Coalescer.record
  rw [if_neg hkinds]
  change 1 < addOrMax 0 2
  decide

/-- Two reads, the second when the first change is as old as the latency allows: it is not delivered. -/
theorem not_coalesces_longBurst : ¬ Coalesces burstConfig [created 0, created 2] := by
  intro h
  have hstart : (initial burstConfig).outcome = none := rfl
  obtain ⟨first, _, hfirst, _, houtcome, hgate, _, hlog⟩ := step_created 0 hstart rfl
  obtain ⟨second, _, hsecond, _, hlater, hidle, _, hnext⟩ := step_created 2 houtcome hgate
  have hrun : runSteps step (initial burstConfig) [created 0] = some first :=
    runSteps_cons.mpr ⟨first, hfirst, rfl⟩
  have hprompt := (h [created 0] [created 2] rfl first hrun).2 (created 2) [] rfl second hsecond
  have hlimit := hprompt hlater (by rw [hidle]; decide) 2 rfl 0 (by rw [hnext, hlog]; rfl)
  exact absurd hlimit (by decide)

end Worker

end Nexus.AddonWatch
