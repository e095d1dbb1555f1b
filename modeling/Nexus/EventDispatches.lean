import Mathlib.Data.List.Nodup
import Nexus.EventBus

namespace Nexus.Events

open StepRuns

/-! Whom a dispatch invokes, told by what happened to the subscriptions. -/

/-- The subscriptions of an identifier, in the order of their registration. -/
def registeredIn (identifier : String) : List BusEvent → List Subscription
  | [] => []
  | .subscribed other subscription :: log =>
    if other = identifier then registeredIn identifier log ++ [subscription]
    else registeredIn identifier log
  | .removed gone :: log =>
    (registeredIn identifier log).filter fun subscription => subscription ∉ gone
  | .closed _ :: log => registeredIn identifier log

variable {subscription : Subscription}

theorem subscribed_of_registeredIn {identifier : String} {log : List BusEvent}
    (h : subscription ∈ registeredIn identifier log) :
    .subscribed identifier subscription ∈ log := by
  induction log with
  | nil => cases h
  | cons event _ ih =>
    cases event with
    | subscribed =>
      unfold registeredIn at h
      split at h
      next hsame =>
        rcases List.mem_append.mp h with hold | hnew
        · exact List.mem_cons_of_mem _ (ih hold)
        · rw [List.mem_singleton.mp hnew, hsame]
          exact List.mem_cons_self
      next => exact List.mem_cons_of_mem _ (ih h)
    | removed => exact List.mem_cons_of_mem _ (ih (List.mem_filter.mp h).1)
    | closed => exact List.mem_cons_of_mem _ (ih h)

structure Marked (markers : Nat) (log : List BusEvent) : Prop where
  below : ∀ identifier subscription, .subscribed identifier subscription ∈ log →
    subscription.marker < markers
  unique : ∀ identifier subscription other added, .subscribed identifier subscription ∈ log →
    .subscribed other added ∈ log → subscription.marker = added.marker →
    identifier = other ∧ subscription = added
  nodup : ∀ earlier, earlier <:+ log → ∀ identifier,
    ((registeredIn identifier earlier).map Subscription.marker).Nodup

variable {markers : Nat}

theorem Marked.mono {more : Nat} {log : List BusEvent} (h : Marked markers log)
    (hle : markers ≤ more) : Marked more log :=
  ⟨fun identifier subscription hmem => Nat.lt_of_lt_of_le (h.below identifier subscription hmem) hle,
    h.unique, h.nodup⟩

theorem Marked.quiet {log : List BusEvent} {event : BusEvent} (h : Marked markers log)
    (hevent : ∀ identifier subscription, event ≠ .subscribed identifier subscription)
    (hless : ∀ identifier, (registeredIn identifier (event :: log)).Sublist
      (registeredIn identifier log)) : Marked markers (event :: log) where
  below identifier subscription hmem := h.below identifier subscription
    ((List.mem_cons.mp hmem).resolve_left fun heq => hevent _ _ heq.symm)
  unique identifier subscription other added hmem hadded := h.unique identifier subscription other
    added ((List.mem_cons.mp hmem).resolve_left fun heq => hevent _ _ heq.symm)
      ((List.mem_cons.mp hadded).resolve_left fun heq => hevent _ _ heq.symm)
  nodup earlier hearlier identifier := by
    rcases List.suffix_cons_iff.mp hearlier with rfl | hold
    · exact (h.nodup log List.suffix_rfl identifier).sublist ((hless identifier).map _)
    · exact h.nodup earlier hold identifier

theorem Marked.subscribe {log : List BusEvent} (h : Marked markers log) (identifier : String)
    (hmarker : subscription.marker = markers) :
    Marked (markers + 1) (.subscribed identifier subscription :: log) where
  below other added hmem := by
    rcases List.mem_cons.mp hmem with heq | hold
    · cases heq
      exact hmarker ▸ Nat.lt_succ_self _
    · exact Nat.lt_succ_of_lt (h.below other added hold)
  unique first added second other hadded hother hsame := by
    rcases List.mem_cons.mp hadded with heq | hold
    · rcases List.mem_cons.mp hother with hother | hother
      · cases heq
        cases hother
        exact ⟨rfl, rfl⟩
      · cases heq
        have hlt := h.below second other hother
        omega
    · rcases List.mem_cons.mp hother with hother | hother
      · cases hother
        have hlt := h.below first added hold
        omega
      · exact h.unique first added second other hold hother hsame
  nodup earlier hearlier other := by
    rcases List.suffix_cons_iff.mp hearlier with rfl | hold
    · unfold registeredIn
      split
      next =>
        rw [List.map_append, List.map_singleton]
        refine List.nodup_append.mpr ⟨h.nodup log List.suffix_rfl other, List.nodup_singleton _, ?_⟩
        intro marker hold new hnew heq
        obtain ⟨added, hadded, rfl⟩ := List.mem_map.mp hold
        have hlt := h.below other added (subscribed_of_registeredIn hadded)
        have hfresh := List.mem_singleton.mp hnew
        omega
      next => exact h.nodup log List.suffix_rfl other
    · exact h.nodup earlier hold other

/-- The registry is what its history says, and closed admissions are those that were closed. -/
structure Recorded (bus : EventBus) : Prop where
  marked : Marked bus.markers bus.log
  registry : ∀ identifier, bus.registered identifier = registeredIn identifier bus.log
  closed : ∀ marker, (bus.admissions marker).accepting = false ↔ .closed marker ∈ bus.log

namespace Recorded

variable {bus next : EventBus}

theorem frame (h : Recorded bus) (hmarkers : next.markers = bus.markers)
    (hregistry : next.registry.subscriptions = bus.registry.subscriptions)
    (hlog : next.log = bus.log)
    (hadmissions : ∀ marker, (next.admissions marker).accepting =
      (bus.admissions marker).accepting) : Recorded next where
  marked := by rw [hmarkers, hlog]; exact h.marked
  registry identifier := by
    unfold EventBus.registered
    rw [hregistry, hlog]
    exact h.registry identifier
  closed marker := by
    rw [hadmissions, hlog]
    exact h.closed marker

theorem subscribe (h : Recorded bus) (identifier : String) (owner : OwnerToken)
    (callbackId : Nat) : Recorded (bus.subscribe identifier owner callbackId) := by
  unfold EventBus.subscribe
  dsimp only
  split
  next => exact ⟨h.marked.mono (Nat.le_succ _), h.registry, h.closed⟩
  next =>
    refine ⟨h.marked.subscribe identifier rfl, fun other => ?_, fun marker => ?_⟩
    · unfold EventBus.registered registeredIn
      dsimp only
      rw [SortedMap.get?_put]
      by_cases hsame : other = identifier
      · rw [if_pos hsame, if_pos hsame.symm, Option.getD_some, hsame]
        exact congrArg (· ++ [(⟨owner, callbackId, bus.markers⟩ : Subscription)])
          (h.registry identifier)
      · rw [if_neg hsame, if_neg (Ne.symm hsame)]
        exact h.registry other
    · rw [h.closed marker]
      exact ⟨List.mem_cons_of_mem _, fun hmem => (List.mem_cons.mp hmem).resolve_left nofun⟩

theorem remove (h : Recorded bus) {gone : List Subscription} (hmarkers : next.markers = bus.markers)
    (hlog : next.log = .removed gone :: bus.log) (hadmissions : next.admissions = bus.admissions)
    (hregistry : ∀ identifier, next.registered identifier =
      (bus.registered identifier).filter fun subscription => subscription ∉ gone) :
    Recorded next where
  marked := by
    rw [hmarkers, hlog]
    exact h.marked.quiet nofun fun identifier => List.filter_sublist
  registry identifier := by
    rw [hregistry, hlog, h.registry identifier]
    rfl
  closed marker := by
    rw [hadmissions, hlog, h.closed marker]
    exact ⟨List.mem_cons_of_mem _, fun hmem => (List.mem_cons.mp hmem).resolve_left nofun⟩

theorem same_identifier (h : Recorded bus) {first second : String} {subscription : Subscription}
    (hfirst : subscription ∈ bus.registered first) (hsecond : subscription ∈ bus.registered second) :
    first = second := by
  rw [h.registry] at hfirst hsecond
  exact (h.marked.unique _ _ _ _ (subscribed_of_registeredIn hfirst)
    (subscribed_of_registeredIn hsecond) rfl).1

theorem retireMatching (h : Recorded bus) (thread : Nat) (identifier : String)
    (gone : Subscription → Bool) : Recorded (bus.retireMatching thread identifier gone) := by
  refine h.remove rfl rfl rfl fun other => ?_
  have hget : (bus.retireMatching thread identifier gone).registered other =
      if other = identifier then
        (bus.registered identifier).filter fun subscription => !gone subscription
      else bus.registered other := by
    unfold EventBus.registered EventBus.retireMatching
    dsimp only
    split
    next hempty =>
      rw [SortedMap.get?_erase]
      split
      next => exact hempty.symm
      next => rfl
    next =>
      rw [SortedMap.get?_put]
      split <;> rfl
  rw [hget]
  split
  next hsame =>
    subst hsame
    refine List.filter_congr fun subscription hmem => ?_
    rw [Bool.eq_iff_iff]
    simp [hmem]
  next hother =>
    refine (List.filter_eq_self.mpr fun subscription hmem => ?_).symm
    rw [decide_eq_true_iff]
    exact fun hgone => hother (h.same_identifier hmem (List.mem_filter.mp hgone).1)

theorem removeOwner (h : Recorded bus) (thread : Nat) (owner : OwnerToken) :
    Recorded (bus.removeOwner thread owner) := by
  refine h.remove rfl rfl rfl fun identifier => ?_
  have hget : (bus.removeOwner thread owner).registered identifier =
      (bus.registered identifier).filter fun subscription => subscription.owner ≠ owner := by
    unfold EventBus.registered EventBus.removeOwner
    dsimp only
    rw [SortedMap.get?_filter, SortedMap.get?_mapValues]
    rcases bus.registry.subscriptions.get? identifier with _ | subscriptions
    · rfl
    · rw [Option.map_some, Option.filter_some]
      split
      next => rfl
      next hempty =>
        rw [decide_eq_true_eq, not_not] at hempty
        exact hempty.symm
  rw [hget]
  refine List.filter_congr fun subscription hmem => ?_
  rw [decide_eq_decide]
  refine not_congr ⟨fun howner => ?_, fun hgone => ?_⟩
  · unfold EventBus.registered at hmem
    rcases hlist : bus.registry.subscriptions.get? identifier with _ | subscriptions
    · rw [hlist] at hmem
      cases hmem
    · rw [hlist, Option.getD_some] at hmem
      refine List.mem_flatMap.mpr ⟨subscriptions, ?_, List.mem_filter.mpr ⟨hmem, ?_⟩⟩
      · exact SortedMap.mem_values_iff.mpr ⟨identifier, hlist⟩
      · exact decide_eq_true howner
  · obtain ⟨subscriptions, _, hfiltered⟩ := List.mem_flatMap.mp hgone
    exact of_decide_eq_true (List.mem_filter.mp hfiltered).2

theorem move (h : Recorded bus) (hmove : Move bus next) : Recorded next := by
  cases hmove with
  | subscribed identifier owner callbackId => exact h.subscribe identifier owner callbackId
  | matched thread identifier gone => exact h.retireMatching thread identifier gone
  | removed thread owner => exact h.removeOwner thread owner
  | raised | unlocked | waited | drained =>
    exact h.frame rfl rfl rfl fun _ => rfl
  | @turned =>
    unfold EventBus.turn
    split
    next => exact h.frame rfl rfl rfl fun _ => rfl
    next =>
      dsimp only
      split
      next =>
        refine h.frame rfl rfl rfl fun marker => ?_
        change ((bus.setAdmission _ _).admissions marker).accepting = _
        rw [EventBus.admissions_setAdmission]
        split
        next heq => rw [heq]; rfl
        next => rfl
      next => exact h.frame rfl rfl rfl fun _ => rfl
  | @returned =>
    refine h.frame rfl rfl rfl fun marker => ?_
    change ((bus.setAdmission _ _).admissions marker).accepting = _
    rw [EventBus.admissions_setAdmission]
    split
    next heq => rw [heq]; rfl
    next => rfl
  | @staged =>
    refine ⟨h.marked.quiet nofun fun _ => List.Sublist.refl _, h.registry, fun marker => ?_⟩
    change ((bus.setAdmission _ _).admissions marker).accepting = false ↔ _
    rw [EventBus.admissions_setAdmission]
    split
    next heq => exact ⟨fun _ => heq ▸ List.mem_cons_self, fun _ => rfl⟩
    next hne =>
      rw [h.closed marker]
      refine ⟨List.mem_cons_of_mem _, fun hmem => (List.mem_cons.mp hmem).resolve_left fun heq => ?_⟩
      cases heq
      exact hne rfl
  | @reaped =>
    unfold EventBus.reapQuiescent
    split
    · exact h.frame rfl rfl rfl fun _ => rfl
    · exact h.frame rfl rfl rfl fun _ => rfl
  | @finished _ ending =>
    cases ending with
    | dispatch | exact => exact h.frame rfl rfl rfl fun _ => rfl
  | @retired =>
    unfold EventBus.ownerRetirement
    dsimp only
    split
    · exact h.frame rfl rfl rfl fun _ => rfl
    · exact h.frame rfl rfl rfl fun _ => rfl

end Recorded

theorem Move.log_suffix {bus next : EventBus} (hmove : Move bus next) : bus.log <:+ next.log := by
  cases hmove with
  | subscribed =>
    unfold EventBus.subscribe
    dsimp only
    split
    · exact List.suffix_rfl
    · exact List.suffix_cons _ _
  | matched | removed | staged =>
    exact List.suffix_cons _ _
  | @turned =>
    unfold EventBus.turn
    split
    · exact List.suffix_rfl
    · dsimp only
      split <;> exact List.suffix_rfl
  | reaped =>
    unfold EventBus.reapQuiescent
    split <;> exact List.suffix_rfl
  | @finished _ ending => cases ending <;> exact List.suffix_rfl
  | retired =>
    unfold EventBus.ownerRetirement
    dsimp only
    split <;> exact List.suffix_rfl
  | _ => exact List.suffix_rfl

namespace Dispatch

def logs (dispatch : Dispatch) : List (List BusEvent) :=
  dispatch.turns.map Turn.log ++ (dispatch.running.map Prod.snd).toList

/-- A dispatch that is on its way goes through its snapshot, and its turns see what was closed. -/
structure Follows (log : List BusEvent) (dispatch : Dispatch) : Prop where
  snapshot : dispatch.turns.map Turn.subscription ++ (dispatch.running.map Prod.fst).toList ++
    dispatch.rest =
      (registeredIn dispatch.identifier dispatch.log).filter (EventBus.Targets dispatch.target)
  admitted : ∀ turn ∈ dispatch.turns,
    (turn.outcome = .skipped ↔ .closed turn.subscription.marker ∈ turn.log)
  entered : ∀ subscription before, dispatch.running = some (subscription, before) →
    .closed subscription.marker ∉ before
  report : dispatch.report =
    ⟨dispatch.turns.countP (fun turn => turn.outcome ≠ .skipped) +
      (dispatch.running.map Prod.fst).toList.length,
      dispatch.turns.countP fun turn => turn.outcome = .panicked⟩
  began : dispatch.log <:+ log
  within : ∀ before ∈ dispatch.logs, dispatch.log <:+ before ∧ before <:+ log
  ordered : dispatch.logs.Pairwise (· <:+ ·)

variable {log more : List BusEvent} {dispatch : Dispatch}

theorem Follows.mono (h : Follows log dispatch) (hmore : log <:+ more) : Follows more dispatch :=
  { h with
    began := h.began.trans hmore
    within := fun before hbefore => (h.within before hbefore).imp_right fun hlog => hlog.trans hmore }

theorem Follows.within_concat (h : Follows log dispatch) :
    ∀ before ∈ dispatch.logs ++ [log], dispatch.log <:+ before ∧ before <:+ log := by
  intro before hbefore
  rcases List.mem_append.mp hbefore with hold | hnew
  · exact h.within before hold
  · rw [List.mem_singleton.mp hnew]
    exact ⟨h.began, List.suffix_rfl⟩

theorem Follows.ordered_concat (h : Follows log dispatch) :
    (dispatch.logs ++ [log]).Pairwise (· <:+ ·) := by
  refine List.pairwise_append.mpr ⟨h.ordered, List.pairwise_singleton _ _, ?_⟩
  intro before hbefore last hlast
  exact List.mem_singleton.mp hlast ▸ (h.within before hbefore).2

theorem follows_start (identifier : String) (target : Option Nat) (log : List BusEvent) :
    Follows log {
      identifier
      target
      rest := (registeredIn identifier log).filter (EventBus.Targets target)
      owners := []
      report := ⟨0, 0⟩
      running := none
      log
      turns := [] } where
  snapshot := rfl
  admitted := nofun
  entered := nofun
  report := rfl
  began := List.suffix_rfl
  within := nofun
  ordered := .nil

variable {rest : List Subscription} {owners : List OwnerToken}

theorem Follows.skip (h : Follows log dispatch) {subscription : Subscription}
    (hrest : dispatch.rest = subscription :: rest) (hidle : dispatch.running = none)
    (hclosed : .closed subscription.marker ∈ log) :
    Follows log { dispatch with
      rest
      owners
      turns := dispatch.turns ++ [⟨subscription, log, .skipped⟩] } := by
  have hlogs : logs { dispatch with
      rest
      owners
      turns := dispatch.turns ++ [⟨subscription, log, .skipped⟩] } = dispatch.logs ++ [log] := by
    unfold logs
    rw [hidle]
    simp
  constructor
  · have hsnapshot := h.snapshot
    rw [hidle, hrest] at hsnapshot
    rw [← hsnapshot]
    simp [hidle]
  · intro turn hturn
    rcases List.mem_append.mp hturn with hold | hnew
    · exact h.admitted turn hold
    · rw [List.mem_singleton.mp hnew]
      exact ⟨fun _ => hclosed, fun _ => rfl⟩
  · exact h.entered
  · have hreport := h.report
    rw [hidle] at hreport
    dsimp only
    rw [hreport, List.countP_append, List.countP_append, hidle]
    simp
  · exact h.began
  · rw [hlogs]
    exact h.within_concat
  · rw [hlogs]
    exact h.ordered_concat

theorem Follows.enter (h : Follows log dispatch) {subscription : Subscription}
    (hrest : dispatch.rest = subscription :: rest) (hidle : dispatch.running = none)
    (hopen : .closed subscription.marker ∉ log) :
    Follows log { dispatch with
      rest
      owners
      report := { dispatch.report with invoked := dispatch.report.invoked + 1 }
      running := some (subscription, log) } := by
  have hlogs : logs { dispatch with
      rest
      owners
      report := { dispatch.report with invoked := dispatch.report.invoked + 1 }
      running := some (subscription, log) } = dispatch.logs ++ [log] := by
    unfold logs
    rw [hidle]
    simp
  constructor
  · have hsnapshot := h.snapshot
    rw [hidle, hrest] at hsnapshot
    rw [← hsnapshot]
    simp
  · exact h.admitted
  · intro other before hrunning
    cases hrunning
    exact hopen
  · have hreport := h.report
    rw [hidle] at hreport
    dsimp only
    rw [hreport]
    rfl
  · exact h.began
  · rw [hlogs]
    exact h.within_concat
  · rw [hlogs]
    exact h.ordered_concat

theorem Follows.done (h : Follows log dispatch) {subscription : Subscription}
    {before : List BusEvent} (hrunning : dispatch.running = some (subscription, before))
    (panicked : Bool) : Follows log { dispatch with
      report := if panicked then { dispatch.report with panicked := dispatch.report.panicked + 1 }
        else dispatch.report
      running := none
      turns := dispatch.turns ++
        [⟨subscription, before, if panicked then .panicked else .returned⟩] } := by
  have hopen := h.entered subscription before hrunning
  have hlogs : logs { dispatch with
      report := if panicked then { dispatch.report with panicked := dispatch.report.panicked + 1 }
        else dispatch.report
      running := none
      turns := dispatch.turns ++
        [⟨subscription, before, if panicked then .panicked else .returned⟩] } = dispatch.logs := by
    unfold logs
    rw [hrunning]
    simp
  have houtcome : (if panicked then TurnOutcome.panicked else .returned) ≠ .skipped := by
    cases panicked <;> decide
  constructor
  · have hsnapshot := h.snapshot
    rw [hrunning] at hsnapshot
    rw [← hsnapshot]
    simp
  · intro turn hturn
    rcases List.mem_append.mp hturn with hold | hnew
    · exact h.admitted turn hold
    · rw [List.mem_singleton.mp hnew]
      exact ⟨fun hskipped => absurd hskipped houtcome, fun hclosed => absurd hclosed hopen⟩
  · exact nofun
  · have hreport := h.report
    rw [hrunning] at hreport
    dsimp only
    rw [hreport, List.countP_append, List.countP_append]
    cases panicked <;> simp
  · exact h.began
  · rw [hlogs]
    exact h.within
  · rw [hlogs]
    exact h.ordered

/-- What a dispatch that returned has done: every subscription of its snapshot had its turn, once and
in the order of registration, and was invoked exactly if its admission was not closed by then. -/
structure Exact (log : List BusEvent) (dispatch : Dispatch) : Prop where
  turns : dispatch.turns.map Turn.subscription =
    (registeredIn dispatch.identifier dispatch.log).filter (EventBus.Targets dispatch.target)
  once : (dispatch.turns.map fun turn => turn.subscription.marker).Nodup
  old : ∀ turn ∈ dispatch.turns,
    .subscribed dispatch.identifier turn.subscription ∈ dispatch.log
  admitted : ∀ turn ∈ dispatch.turns,
    (turn.outcome = .skipped ↔ .closed turn.subscription.marker ∈ turn.log)
  report : dispatch.report =
    ⟨dispatch.turns.countP fun turn => turn.outcome ≠ .skipped,
      dispatch.turns.countP fun turn => turn.outcome = .panicked⟩
  began : dispatch.log <:+ log
  within : ∀ turn ∈ dispatch.turns, dispatch.log <:+ turn.log ∧ turn.log <:+ log
  ordered : (dispatch.turns.map Turn.log).Pairwise (· <:+ ·)

theorem Exact.mono (h : Exact log dispatch) (hmore : log <:+ more) : Exact more dispatch :=
  { h with
    began := h.began.trans hmore
    within := fun turn hturn => (h.within turn hturn).imp_right fun hlog => hlog.trans hmore }

theorem Follows.exact (h : Follows log dispatch) {markers : Nat} (hmarked : Marked markers log)
    (hrest : dispatch.rest = []) (hidle : dispatch.running = none) : Exact log dispatch := by
  have hturns : dispatch.turns.map Turn.subscription =
      (registeredIn dispatch.identifier dispatch.log).filter
        (EventBus.Targets dispatch.target) := by
    have hsnapshot := h.snapshot
    rw [hidle, hrest] at hsnapshot
    simpa using hsnapshot
  have hlogs : dispatch.logs = dispatch.turns.map Turn.log := by
    unfold logs
    rw [hidle]
    exact List.append_nil _
  refine ⟨hturns, ?_, fun turn hturn => ?_, h.admitted, ?_, h.began, fun turn hturn => ?_, ?_⟩
  · have hnodup := hmarked.nodup dispatch.log h.began dispatch.identifier
    have hmap : (dispatch.turns.map fun turn => turn.subscription.marker) =
        (dispatch.turns.map Turn.subscription).map Subscription.marker := by
      rw [List.map_map]
      rfl
    rw [hmap, hturns]
    exact hnodup.sublist (List.filter_sublist.map _)
  · have hmem : turn.subscription ∈ dispatch.turns.map Turn.subscription :=
      List.mem_map_of_mem hturn
    rw [hturns] at hmem
    exact subscribed_of_registeredIn (List.mem_filter.mp hmem).1
  · have hreport := h.report
    rw [hidle] at hreport
    exact hreport
  · exact h.within turn.log (hlogs ▸ List.mem_map_of_mem hturn)
  · exact hlogs ▸ h.ordered

end Dispatch

def Call.Follows (log : List BusEvent) : Call → Prop
  | .dispatching dispatch => dispatch.Follows log
  | .reaping _ (.dispatch dispatch) => dispatch.Exact log
  | _ => True

theorem Call.Follows.mono {call : Call} {log more : List BusEvent} (h : call.Follows log)
    (hmore : log <:+ more) : call.Follows more := by
  cases call with
  | dispatching => exact Dispatch.Follows.mono h hmore
  | reaping _ ending =>
    cases ending with
    | dispatch => exact Dispatch.Exact.mono h hmore
    | exact => trivial
  | _ => trivial

/-- Every call of every thread is on its way, and every dispatch that returned was exact. -/
structure Dispatched (bus : EventBus) : Prop where
  recorded : Recorded bus
  calls : ∀ thread, ∀ call ∈ bus.calls thread, call.Follows bus.log
  finished : ∀ dispatch ∈ bus.finished, dispatch.Exact bus.log

namespace Dispatched

variable {bus next : EventBus} {thread : Nat} {call : Call} {outer : List Call}

theorem replaced (h : Dispatched bus) (hrecorded : Recorded next)
    (hcalls : bus.calls thread = call :: outer) (first : List Call)
    (hnext : ∀ other, next.calls other = if other = thread then first ++ outer else bus.calls other)
    (hlog : bus.log <:+ next.log) (hfirst : ∀ call ∈ first, call.Follows next.log)
    (hfinished : ∀ dispatch ∈ next.finished, dispatch ∈ bus.finished ∨ dispatch.Exact next.log) :
    Dispatched next where
  recorded := hrecorded
  calls other added hadded := by
    rw [hnext] at hadded
    split at hadded
    next =>
      rcases List.mem_append.mp hadded with hnew | hold
      · exact hfirst added hnew
      · refine (h.calls thread added ?_).mono hlog
        rw [hcalls]
        exact List.mem_cons_of_mem _ hold
    next => exact (h.calls other added hadded).mono hlog
  finished dispatch hdispatch := by
    rcases hfinished dispatch hdispatch with hold | hexact
    · exact (h.finished dispatch hold).mono hlog
    · exact hexact

theorem pushed (h : Dispatched bus) (hrecorded : Recorded next)
    (hnext : next.calls = (bus.push thread call).calls) (hlog : bus.log <:+ next.log)
    (hcall : call.Follows next.log) (hfinished : next.finished = bus.finished) :
    Dispatched next where
  recorded := hrecorded
  calls other added hadded := by
    rw [hnext] at hadded
    unfold EventBus.push at hadded
    rw [EventBus.calls_setCalls] at hadded
    split at hadded
    next =>
      rcases List.mem_cons.mp hadded with rfl | hold
      · exact hcall
      · exact (h.calls thread added hold).mono hlog
    next => exact (h.calls other added hadded).mono hlog
  finished dispatch hdispatch :=
    (h.finished dispatch (hfinished ▸ hdispatch)).mono hlog

theorem turn (h : Dispatched bus) {dispatch : Dispatch}
    (hcalls : bus.calls thread = .dispatching dispatch :: outer) (hidle : dispatch.running = none) :
    Dispatched (bus.turn thread dispatch outer) := by
  have hrecorded := h.recorded.move (.turned hcalls hidle)
  have hlog := Move.log_suffix (.turned hcalls hidle)
  have hfollows : dispatch.Follows bus.log :=
    h.calls thread (.dispatching dispatch) (by rw [hcalls]; exact List.mem_cons_self)
  unfold EventBus.turn at hrecorded hlog ⊢
  rcases hrest : dispatch.rest with _ | ⟨subscription, rest⟩
  · rw [hrest] at hrecorded hlog
    refine h.replaced hrecorded hcalls [.reaping dispatch.owners (.dispatch dispatch)]
      (fun other => EventBus.calls_setCalls ..) hlog ?_ fun _ => Or.inl
    intro call hcall
    rw [List.mem_singleton.mp hcall]
    exact hfollows.exact h.recorded.marked hrest hidle
  · rw [hrest] at hrecorded hlog
    dsimp only at hrecorded hlog ⊢
    have hclosed := h.recorded.closed subscription.marker
    by_cases haccepting : (bus.admissions subscription.marker).accepting = true
    · rw [if_pos haccepting] at hrecorded hlog ⊢
      refine h.replaced hrecorded hcalls [_] (fun other => EventBus.calls_setCalls ..) hlog ?_
        fun _ => Or.inl
      intro call hcall
      rw [List.mem_singleton.mp hcall]
      refine hfollows.enter hrest hidle fun hmem => ?_
      exact absurd (haccepting.symm.trans (hclosed.mpr hmem)) Bool.noConfusion
    · rw [if_neg haccepting] at hrecorded hlog ⊢
      refine h.replaced hrecorded hcalls [_] (fun other => EventBus.calls_setCalls ..) hlog ?_
        fun _ => Or.inl
      intro call hcall
      rw [List.mem_singleton.mp hcall]
      exact hfollows.skip hrest hidle (hclosed.mp (Bool.eq_false_iff.mpr haccepting))

theorem move (h : Dispatched bus) (hmove : Move bus next) : Dispatched next := by
  have hrecorded := h.recorded.move hmove
  have hlog := Move.log_suffix hmove
  cases hmove with
  | subscribed =>
    refine ⟨hrecorded, fun thread call hcall => ?_, fun dispatch hdispatch => ?_⟩
    · refine (h.calls thread call ?_).mono hlog
      unfold EventBus.subscribe at hcall
      dsimp only at hcall
      split at hcall <;> exact hcall
    · refine (h.finished dispatch ?_).mono hlog
      unfold EventBus.subscribe at hdispatch
      dsimp only at hdispatch
      split at hdispatch <;> exact hdispatch
  | matched | removed =>
    exact h.pushed hrecorded rfl hlog trivial rfl
  | raised _ identifier target =>
    refine h.pushed hrecorded rfl hlog ?_ rfl
    have hstart := Dispatch.follows_start identifier target bus.log
    rw [← h.recorded.registry identifier] at hstart
    exact hstart
  | turned hcalls hidle => exact h.turn hcalls hidle
  | @returned thread dispatch _ _ log panicked hcalls hrunning =>
    have hfollows : dispatch.Follows bus.log :=
      h.calls thread (.dispatching dispatch) (by rw [hcalls]; exact List.mem_cons_self)
    refine h.replaced hrecorded hcalls [_] (fun other => EventBus.calls_setCalls ..) hlog ?_
      fun _ => Or.inl
    intro call hcall
    rw [List.mem_singleton.mp hcall]
    exact hfollows.done hrunning panicked
  | staged hcalls | waited hcalls | drained hcalls =>
    refine h.replaced hrecorded hcalls [_] (fun other => EventBus.calls_setCalls ..) hlog ?_
      fun _ => Or.inl
    intro call hcall
    rw [List.mem_singleton.mp hcall]
    trivial
  | unlocked hcalls hkind =>
    refine h.replaced hrecorded hcalls [_] (fun other => EventBus.calls_setCalls ..) hlog ?_
      fun _ => Or.inl
    intro call hcall
    rw [List.mem_singleton.mp hcall]
    rcases hkind with ⟨_, rfl⟩ | ⟨_, _, rfl⟩ <;> trivial
  | @reaped thread owner owners ending outer hcalls =>
    have htop : (Call.reaping (owner :: owners) ending).Follows bus.log :=
      h.calls thread _ (by rw [hcalls]; exact List.mem_cons_self)
    have hsame : ∀ other, ((bus.reapQuiescent owner).setCalls thread
        (.reaping owners ending :: outer)).calls other =
        if other = thread then .reaping owners ending :: outer else bus.calls other := by
      intro other
      unfold EventBus.reapQuiescent
      split <;> exact EventBus.calls_setCalls ..
    refine h.replaced hrecorded hcalls [.reaping owners ending] hsame hlog ?_ ?_
    · intro call hcall
      rw [List.mem_singleton.mp hcall]
      refine Call.Follows.mono ?_ hlog
      cases ending <;> exact htop
    · intro dispatch hdispatch
      unfold EventBus.reapQuiescent at hdispatch
      split at hdispatch <;> exact Or.inl hdispatch
  | @finished thread ending _ hcalls =>
    have htop : (Call.reaping [] ending).Follows bus.log :=
      h.calls thread _ (by rw [hcalls]; exact List.mem_cons_self)
    cases ending with
    | dispatch =>
      refine h.replaced hrecorded hcalls [] (fun other => EventBus.calls_setCalls ..) hlog nofun ?_
      intro other hother
      rcases List.mem_cons.mp hother with rfl | hold
      · exact Or.inr htop
      · exact Or.inl hold
    | exact =>
      exact h.replaced hrecorded hcalls [] (fun other => EventBus.calls_setCalls ..) hlog nofun
        fun _ => Or.inl
  | @retired thread owner _ outer hcalls =>
    have hsame : ∀ other, ((bus.ownerRetirement owner).setCalls thread outer).calls other =
        if other = thread then outer else bus.calls other := by
      intro other
      unfold EventBus.ownerRetirement
      dsimp only
      split <;> exact EventBus.calls_setCalls ..
    refine h.replaced hrecorded hcalls [] hsame hlog nofun ?_
    intro dispatch hdispatch
    unfold EventBus.ownerRetirement at hdispatch
    dsimp only at hdispatch
    split at hdispatch <;> exact Or.inl hdispatch

end Dispatched

theorem dispatched_new : Dispatched .new where
  recorded := ⟨⟨nofun, nofun, fun earlier hearlier identifier => by
      rw [List.suffix_nil.mp hearlier]
      exact .nil⟩, fun _ => rfl, fun _ => ⟨nofun, nofun⟩⟩
  calls := nofun
  finished := nofun

theorem dispatched_run {actions : List BusAction} {bus : EventBus}
    (hrun : runSteps EventBus.step .new actions = some bus) : Dispatched bus :=
  runSteps_invariant (fun _ _ _ hstep h => h.move (EventBus.move_of_step hstep)) hrun dispatched_new

/-- In every run the registry is what its history says, and every dispatch that returned was exact. -/
theorem dispatches_exact {actions : List BusAction} {bus : EventBus}
    (hrun : runSteps EventBus.step .new actions = some bus) :
    (∀ identifier, bus.registered identifier = registeredIn identifier bus.log) ∧
      ∀ dispatch ∈ bus.finished, dispatch.Exact bus.log := by
  have h := dispatched_run hrun
  exact ⟨h.recorded.registry, h.finished⟩

/-- The first handler removes the second and panics. -/
def removingRun : List BusAction :=
  [.subscribe 0 "tick" ⟨1, 1⟩ 10, .subscribe 0 "tick" ⟨2, 1⟩ 20, .raise 0 "tick", .proceed 0,
    .unsubscribe 0 "tick" 20, .proceed 0, .proceed 0, .proceed 0, .proceed 0, .proceed 0, .proceed 0,
    .handlerReturns 0 true, .proceed 0, .proceed 0, .proceed 0, .proceed 0, .proceed 0]

theorem removingRun_exact : ∃ bus, runSteps EventBus.step .new removingRun = some bus ∧
    bus.finished.map Dispatch.report = [⟨1, 1⟩] ∧
    ∀ dispatch ∈ bus.finished, dispatch.Exact bus.log := by
  have hfacts : (runSteps EventBus.step .new removingRun).map
      (fun bus => bus.finished.map Dispatch.report) = some [⟨1, 1⟩] := by decide +kernel
  obtain ⟨bus, hrun, hreports⟩ := Option.map_eq_some_iff.mp hfacts
  exact ⟨bus, hrun, hreports, (dispatches_exact hrun).2⟩

end Nexus.Events
