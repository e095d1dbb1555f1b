import Mathlib.Data.List.Nodup
import Nexus.RawWndProc

namespace Nexus.RawWndProc

open StepRuns

/-! Whom a route enters, told by what happened to the entries. -/

def registeredIn : List RawEvent → List Entry
  | [] => []
  | .registered entry :: log => registeredIn log ++ [entry]
  | .removed gone :: log => (registeredIn log).filter fun entry => entry ∉ gone
  | .disabled _ :: log => registeredIn log

/-- Tokens grow with every registration, and no entry comes back. -/
structure Tokened (last : Nat) (log : List RawEvent) : Prop where
  below : ∀ entry ∈ registeredIn log, entry.token ≤ last
  gone : ∀ gone, .removed gone ∈ log → ∀ entry ∈ gone, entry.token ≤ last
  ordered : ∀ earlier, earlier <:+ log →
    ((registeredIn earlier).map Entry.token).Pairwise (· < ·)
  away : ∀ earlier, earlier <:+ log → ∀ gone, .removed gone ∈ earlier →
    ∀ entry ∈ gone, entry ∉ registeredIn earlier

namespace Tokened

variable {last : Nat} {log : List RawEvent}

theorem register (h : Tokened last log) {entry : Entry} (htoken : entry.token = last + 1) :
    Tokened (last + 1) (.registered entry :: log) where
  below other hother := by
    rcases List.mem_append.mp hother with hold | hnew
    · exact Nat.le_succ_of_le (h.below other hold)
    · rw [List.mem_singleton.mp hnew, htoken]
  gone gone hgone other hother :=
    Nat.le_succ_of_le (h.gone gone ((List.mem_cons.mp hgone).resolve_left nofun) other hother)
  ordered earlier hearlier := by
    rcases List.suffix_cons_iff.mp hearlier with rfl | hold
    · change ((registeredIn log ++ [entry]).map Entry.token).Pairwise _
      rw [List.map_append, List.map_singleton]
      refine List.pairwise_append.mpr ⟨h.ordered log List.suffix_rfl,
        List.pairwise_singleton _ _, ?_⟩
      intro token htokens new hnew
      obtain ⟨other, hother, rfl⟩ := List.mem_map.mp htokens
      have hle := h.below other hother
      have hfresh := List.mem_singleton.mp hnew
      omega
    · exact h.ordered earlier hold
  away earlier hearlier gone hgone other hother hmem := by
    rcases List.suffix_cons_iff.mp hearlier with rfl | hold
    · have hremoved := (List.mem_cons.mp hgone).resolve_left nofun
      rcases List.mem_append.mp hmem with hmem | hnew
      · exact h.away log List.suffix_rfl gone hremoved other hother hmem
      · have hle := h.gone gone hremoved other hother
        rw [List.mem_singleton.mp hnew] at hle
        omega
    · exact h.away earlier hold gone hgone other hother hmem

theorem remove (h : Tokened last log) {gone : List Entry}
    (hgone : ∀ entry ∈ gone, entry ∈ registeredIn log) :
    Tokened last (.removed gone :: log) where
  below entry hentry := h.below entry (List.mem_filter.mp hentry).1
  gone other hother entry hentry := by
    rcases List.mem_cons.mp hother with heq | hold
    · cases heq
      exact h.below entry (hgone entry hentry)
    · exact h.gone other hold entry hentry
  ordered earlier hearlier := by
    rcases List.suffix_cons_iff.mp hearlier with rfl | hold
    · exact (h.ordered log List.suffix_rfl).sublist (List.filter_sublist.map _)
    · exact h.ordered earlier hold
  away earlier hearlier other hother entry hentry hmem := by
    rcases List.suffix_cons_iff.mp hearlier with rfl | hold
    · obtain ⟨hold, hkept⟩ := List.mem_filter.mp hmem
      rcases List.mem_cons.mp hother with heq | hremoved
      · cases heq
        exact of_decide_eq_true hkept hentry
      · exact h.away log List.suffix_rfl other hremoved entry hentry hold
    · exact h.away earlier hold other hother entry hentry hmem

theorem disable (h : Tokened last log) (token : Nat) : Tokened last (.disabled token :: log) where
  below := h.below
  gone gone hgone := h.gone gone ((List.mem_cons.mp hgone).resolve_left nofun)
  ordered earlier hearlier := by
    rcases List.suffix_cons_iff.mp hearlier with rfl | hold
    · exact h.ordered log List.suffix_rfl
    · exact h.ordered earlier hold
  away earlier hearlier gone hgone := by
    rcases List.suffix_cons_iff.mp hearlier with rfl | hold
    · exact h.away log List.suffix_rfl gone ((List.mem_cons.mp hgone).resolve_left nofun)
    · exact h.away earlier hold gone hgone

end Tokened

/-- The registry is what its history says, and the disabled entries are those it disabled. -/
structure Recorded (registry : RawWndProcRegistry) : Prop where
  tokened : Tokened registry.nextToken registry.log
  entries : registry.entries.toList =
    (registeredIn registry.log).map fun entry => (entry.token, entry)
  disabled : ∀ token, (registry.flags token).disabled = true ↔ .disabled token ∈ registry.log

namespace Recorded

variable {registry next : RawWndProcRegistry}

theorem values (h : Recorded registry) : registry.entries.values = registeredIn registry.log := by
  unfold SortedMap.values
  rw [h.entries, List.map_map]
  exact List.map_id _

theorem get?_iff (h : Recorded registry) {token : Nat} {entry : Entry} :
    registry.entries.get? token = some entry ↔
      entry ∈ registeredIn registry.log ∧ entry.token = token := by
  rw [← SortedMap.mem_toList_iff, h.entries, List.mem_map]
  constructor
  · rintro ⟨other, hother, heq⟩
    cases heq
    exact ⟨hother, rfl⟩
  · rintro ⟨hentry, rfl⟩
    exact ⟨entry, hentry, rfl⟩

theorem token_inj (h : Recorded registry) {first second : Entry}
    (hfirst : first ∈ registeredIn registry.log) (hsecond : second ∈ registeredIn registry.log)
    (heq : first.token = second.token) : first = second := by
  have hget := h.get?_iff.mpr ⟨hfirst, heq⟩
  rw [h.get?_iff.mpr ⟨hsecond, rfl⟩] at hget
  exact (Option.some.inj hget).symm

theorem remove (h : Recorded registry) {gone : List Entry} {entries : SortedMap Nat Entry}
    (hgone : ∀ entry ∈ gone, entry ∈ registeredIn registry.log)
    (hentries : entries.toList = registry.entries.toList.filter fun item => item.2 ∉ gone) :
    Recorded (registry.remove gone entries) where
  tokened := h.tokened.remove hgone
  entries := by
    change entries.toList = ((registeredIn registry.log).filter fun entry => entry ∉ gone).map _
    rw [hentries, h.entries, List.filter_map]
    rfl
  disabled token := by
    refine (h.disabled token).trans ?_
    exact ⟨List.mem_cons_of_mem _, fun hmem => (List.mem_cons.mp hmem).resolve_left nofun⟩

theorem deregister (h : Recorded registry) (token : Nat) :
    Recorded (registry.deregister token) := by
  have hgone : ∀ entry, entry ∈ (registry.entries.get? token).toList ↔
      entry ∈ registeredIn registry.log ∧ entry.token = token := fun entry => by
    rw [Option.mem_toList]
    exact h.get?_iff
  refine h.remove (fun entry hentry => ((hgone entry).mp hentry).1) ?_
  refine List.filter_congr fun item hitem => ?_
  rw [h.entries] at hitem
  obtain ⟨entry, hentry, rfl⟩ := List.mem_map.mp hitem
  rw [decide_eq_decide, hgone]
  exact ⟨fun hne hmem => hne hmem.2, fun hkept heq => hkept ⟨hentry, heq⟩⟩

theorem removeMatching (h : Recorded registry) (gone : Entry → Bool) :
    Recorded (registry.removeMatching gone) := by
  have hremoved : ∀ entry, entry ∈ registry.entries.values.filter gone →
      entry ∈ registeredIn registry.log := fun entry hentry => by
    rw [← h.values]
    exact (List.mem_filter.mp hentry).1
  refine h.remove hremoved ?_
  rw [SortedMap.toList_foldl_erase]
  refine List.filter_congr fun item hitem => ?_
  rw [h.entries] at hitem
  obtain ⟨entry, hentry, rfl⟩ := List.mem_map.mp hitem
  rw [decide_eq_decide]
  refine not_congr ⟨fun hmem => ?_, List.mem_map_of_mem⟩
  obtain ⟨other, hother, heq⟩ := List.mem_map.mp hmem
  exact h.token_inj (hremoved other hother) hentry heq ▸ hother

theorem register (h : Recorded registry) (owner : OwnerGeneration) (callbackId : Option Nat) :
    Recorded (registry.register owner callbackId) where
  tokened := h.tokened.register rfl
  entries := by
    unfold RawWndProcRegistry.register
    dsimp only
    refine (SortedMap.place_above _ fun token htoken => ?_).trans ?_
    · rw [h.entries, List.map_map] at htoken
      obtain ⟨entry, hentry, rfl⟩ := List.mem_map.mp htoken
      exact Nat.lt_succ_of_le (h.tokened.below entry hentry)
    · rw [h.entries]
      change _ = (registeredIn registry.log ++ [_]).map _
      rw [List.map_append, List.map_singleton]
  disabled token := by
    refine (h.disabled token).trans ?_
    exact ⟨List.mem_cons_of_mem _, fun hmem => (List.mem_cons.mp hmem).resolve_left nofun⟩

theorem frame (h : Recorded registry) (htoken : next.nextToken = registry.nextToken)
    (hentries : next.entries = registry.entries) (hflags : next.flags = registry.flags)
    (hlog : next.log = registry.log) : Recorded next where
  tokened := by rw [htoken, hlog]; exact h.tokened
  entries := by rw [hentries, hlog]; exact h.entries
  disabled := by rw [hflags, hlog]; exact h.disabled

theorem turn (h : Recorded registry) (thread : Nat) (route : Route) (outer : List Route) :
    Recorded (registry.turn thread route outer) := by
  unfold RawWndProcRegistry.turn
  split
  next => exact h.frame rfl rfl rfl rfl
  next =>
    split
    · exact h.frame rfl rfl rfl rfl
    · exact h.frame rfl rfl rfl rfl

theorem returned (h : Recorded registry) (thread : Nat) (route : Route) (entry : Entry)
    (log : List RawEvent) (result : RawRoute) (outer : List Route) :
    Recorded (registry.returned thread route entry log result outer) := by
  cases result with
  | «continue» | consume => exact h.frame rfl rfl rfl rfl

theorem panicked (h : Recorded registry) (thread : Nat) (route : Route) (entry : Entry)
    (log : List RawEvent) (outer : List Route) :
    Recorded (registry.panicked thread route entry log outer) := by
  have hflags : ∀ token, (Function.update registry.flags entry.token
      ((registry.flags entry.token).recordPanic entry.maximumPanics) token).disabled = true ↔
      token = entry.token ∧
        ((registry.flags entry.token).recordPanic entry.maximumPanics).disabled = true ∨
      .disabled token ∈ registry.log := by
    intro token
    by_cases htoken : token = entry.token
    · subst htoken
      rw [Function.update_self, ← h.disabled entry.token]
      refine ⟨fun hdisabled => Or.inl ⟨rfl, hdisabled⟩, fun hor => ?_⟩
      rcases hor with ⟨_, hdisabled⟩ | hbefore
      · exact hdisabled
      · unfold EntryFlags.recordPanic
        rw [hbefore]
        rfl
    · rw [Function.update_of_ne htoken, h.disabled token]
      exact ⟨Or.inr, fun hor => hor.resolve_left fun hand => htoken hand.1⟩
  unfold RawWndProcRegistry.panicked
  dsimp only
  by_cases hdisabled :
      ((registry.flags entry.token).recordPanic entry.maximumPanics).disabled = true
  · refine ⟨?_, ?_, fun token => ?_⟩
    · rw [if_pos hdisabled]
      exact h.tokened.disable entry.token
    · rw [if_pos hdisabled]
      exact h.entries
    · rw [hflags, if_pos hdisabled, List.mem_cons]
      refine or_congr_left ⟨fun hand => congrArg RawEvent.disabled hand.1, fun heq => ?_⟩
      cases heq
      exact ⟨rfl, hdisabled⟩
  · refine ⟨?_, ?_, fun token => ?_⟩
    · rw [if_neg hdisabled]
      exact h.tokened
    · rw [if_neg hdisabled]
      exact h.entries
    · rw [hflags, if_neg hdisabled]
      exact ⟨fun hor => hor.resolve_left fun hand => hdisabled hand.2, Or.inr⟩

end Recorded

namespace Route

def logs (route : Route) : List (List RawEvent) :=
  route.turns.map Turn.log ++ (route.running.map Prod.snd).toList

/-- A route on its way goes through its snapshot and has met no consumer. -/
structure Follows (log : List RawEvent) (route : Route) : Prop where
  snapshot : route.turns.map Turn.entry ++ (route.running.map Prod.fst).toList ++ route.rest =
    registeredIn route.log
  enabled : ∀ turn ∈ route.turns,
    (turn.outcome = .disabled ↔ .disabled turn.entry.token ∈ turn.log)
  entered : ∀ entry before, route.running = some (entry, before) →
    .disabled entry.token ∉ before
  unconsumed : ∀ turn ∈ route.turns, turn.outcome ≠ .consumed
  report : route.report = ⟨.continue,
    route.turns.countP (fun turn => turn.outcome ≠ .disabled) +
      (route.running.map Prod.fst).toList.length,
    route.turns.countP fun turn => turn.outcome = .panicked,
    route.turns.countP fun turn => turn.outcome = .disabled⟩
  began : route.log <:+ log
  within : ∀ before ∈ route.logs, route.log <:+ before ∧ before <:+ log
  ordered : route.logs.Pairwise (· <:+ ·)

variable {log more : List RawEvent} {route : Route}

theorem Follows.mono (h : Follows log route) (hmore : log <:+ more) : Follows more route :=
  { h with
    began := h.began.trans hmore
    within := fun before hbefore =>
      (h.within before hbefore).imp_right fun hlog => hlog.trans hmore }

theorem follows_start (log : List RawEvent) :
    Follows log {
      rest := registeredIn log
      report := ⟨.continue, 0, 0, 0⟩
      running := none
      log
      turns := [] } where
  snapshot := rfl
  enabled := nofun
  entered := nofun
  unconsumed := nofun
  report := rfl
  began := List.suffix_rfl
  within := nofun
  ordered := .nil

theorem Follows.extend (h : Follows log route) {next : Route}
    (hlogs : next.logs = route.logs ++ [log]) (hlog : next.log = route.log) :
    (∀ before ∈ next.logs, next.log <:+ before ∧ before <:+ log) ∧
      next.logs.Pairwise (· <:+ ·) := by
  rw [hlog, hlogs]
  refine ⟨fun before hbefore => ?_, List.pairwise_append.mpr
    ⟨h.ordered, List.pairwise_singleton _ _, fun before hbefore last hlast => ?_⟩⟩
  · rcases List.mem_append.mp hbefore with hold | hnew
    · exact h.within before hold
    · rw [List.mem_singleton.mp hnew]
      exact ⟨h.began, List.suffix_rfl⟩
  · exact List.mem_singleton.mp hlast ▸ (h.within before hbefore).2

variable {entry : Entry} {rest : List Entry}

theorem Follows.skip (h : Follows log route) (hrest : route.rest = entry :: rest)
    (hidle : route.running = none) (hdisabled : .disabled entry.token ∈ log) :
    Follows log { route with
      rest
      report := { route.report with disabled := route.report.disabled + 1 }
      turns := route.turns ++ [⟨entry, log, .disabled⟩] } := by
  have hlogs : logs { route with
      rest
      report := { route.report with disabled := route.report.disabled + 1 }
      turns := route.turns ++ [⟨entry, log, .disabled⟩] } = route.logs ++ [log] := by
    unfold logs
    rw [hidle]
    simp
  obtain ⟨hwithin, hordered⟩ := h.extend hlogs rfl
  refine ⟨?_, fun turn hturn => ?_, h.entered, fun turn hturn => ?_, ?_, h.began, hwithin, hordered⟩
  · have hsnapshot := h.snapshot
    rw [hidle, hrest] at hsnapshot
    rw [← hsnapshot]
    simp [hidle]
  · rcases List.mem_append.mp hturn with hold | hnew
    · exact h.enabled turn hold
    · rw [List.mem_singleton.mp hnew]
      exact ⟨fun _ => hdisabled, fun _ => rfl⟩
  · rcases List.mem_append.mp hturn with hold | hnew
    · exact h.unconsumed turn hold
    · rw [List.mem_singleton.mp hnew]
      exact nofun
  · have hreport := h.report
    rw [hidle] at hreport
    dsimp only
    rw [hreport, List.countP_append, List.countP_append, List.countP_append, hidle]
    simp

theorem Follows.enter (h : Follows log route) (hrest : route.rest = entry :: rest)
    (hidle : route.running = none) (henabled : .disabled entry.token ∉ log) :
    Follows log { route with
      rest
      report := { route.report with invoked := route.report.invoked + 1 }
      running := some (entry, log) } := by
  have hlogs : logs { route with
      rest
      report := { route.report with invoked := route.report.invoked + 1 }
      running := some (entry, log) } = route.logs ++ [log] := by
    unfold logs
    rw [hidle]
    simp
  obtain ⟨hwithin, hordered⟩ := h.extend hlogs rfl
  refine ⟨?_, h.enabled, fun other before hrunning => ?_, h.unconsumed, ?_, h.began, hwithin,
    hordered⟩
  · have hsnapshot := h.snapshot
    rw [hidle, hrest] at hsnapshot
    rw [← hsnapshot]
    simp
  · cases hrunning
    exact henabled
  · have hreport := h.report
    rw [hidle] at hreport
    dsimp only
    rw [hreport]
    rfl

variable {before : List RawEvent}

theorem Follows.done (h : Follows log route) (hrunning : route.running = some (entry, before))
    (outcome : TurnOutcome) (houtcome : outcome ≠ .disabled) (hconsumed : outcome ≠ .consumed) :
    Follows log { route with
      report := { route.report with
        panics := route.report.panics + if outcome = .panicked then 1 else 0 }
      running := none
      turns := route.turns ++ [⟨entry, before, outcome⟩] } := by
  have hlogs : logs { route with
      report := { route.report with
        panics := route.report.panics + if outcome = .panicked then 1 else 0 }
      running := none
      turns := route.turns ++ [⟨entry, before, outcome⟩] } = route.logs := by
    unfold logs
    rw [hrunning]
    simp
  refine ⟨?_, fun turn hturn => ?_, nofun, fun turn hturn => ?_, ?_, h.began, ?_, ?_⟩
  · have hsnapshot := h.snapshot
    rw [hrunning] at hsnapshot
    rw [← hsnapshot]
    simp
  · rcases List.mem_append.mp hturn with hold | hnew
    · exact h.enabled turn hold
    · rw [List.mem_singleton.mp hnew]
      exact ⟨fun heq => absurd heq houtcome,
        fun hdisabled => absurd hdisabled (h.entered entry before hrunning)⟩
  · rcases List.mem_append.mp hturn with hold | hnew
    · exact h.unconsumed turn hold
    · rw [List.mem_singleton.mp hnew]
      exact hconsumed
  · have hreport := h.report
    rw [hrunning] at hreport
    dsimp only
    rw [hreport, List.countP_append, List.countP_append, List.countP_append]
    simp [houtcome, List.countP_singleton]
  · rw [hlogs]
    exact h.within
  · rw [hlogs]
    exact h.ordered

/-- What a route that returned has done: the entries of its snapshot had their turns in the order of
registration, each once, up to the first consumer; none of them had been removed before the route
began. -/
structure Exact (log : List RawEvent) (route : Route) : Prop where
  inOrder : route.turns.map Turn.entry <+: registeredIn route.log
  whole : route.report.route = .continue → route.turns.map Turn.entry = registeredIn route.log
  once : (route.turns.map fun turn => turn.entry.token).Nodup
  stops : ∀ earlier turn later, route.turns = earlier ++ turn :: later →
    turn.outcome = .consumed → later = []
  consumed : route.report.route = .consume ↔ ∃ turn ∈ route.turns, turn.outcome = .consumed
  enabled : ∀ turn ∈ route.turns,
    (turn.outcome = .disabled ↔ .disabled turn.entry.token ∈ turn.log)
  kept : ∀ turn ∈ route.turns, ∀ gone, .removed gone ∈ route.log → turn.entry ∉ gone
  counts : route.report = ⟨route.report.route,
    route.turns.countP fun turn => turn.outcome ≠ .disabled,
    route.turns.countP fun turn => turn.outcome = .panicked,
    route.turns.countP fun turn => turn.outcome = .disabled⟩
  began : route.log <:+ log
  within : ∀ turn ∈ route.turns, route.log <:+ turn.log ∧ turn.log <:+ log
  ordered : (route.turns.map Turn.log).Pairwise (· <:+ ·)

theorem Exact.mono (h : Exact log route) (hmore : log <:+ more) : Exact more route :=
  { h with
    began := h.began.trans hmore
    within := fun turn hturn => (h.within turn hturn).imp_right fun hlog => hlog.trans hmore }

theorem once_kept {last : Nat} (htokened : Tokened last log) (hbegan : route.log <:+ log)
    (hinOrder : route.turns.map Turn.entry <+: registeredIn route.log) :
    (route.turns.map fun turn => turn.entry.token).Nodup ∧
      ∀ turn ∈ route.turns, ∀ gone, .removed gone ∈ route.log → turn.entry ∉ gone := by
  refine ⟨?_, fun turn hturn gone hgone hmem => ?_⟩
  · have hordered := (htokened.ordered route.log hbegan).sublist (hinOrder.sublist.map Entry.token)
    rw [List.map_map] at hordered
    exact hordered.imp fun hlt => Nat.ne_of_lt hlt
  · exact htokened.away route.log hbegan gone hgone turn.entry hmem
      (hinOrder.subset (List.mem_map_of_mem hturn))

theorem Follows.exact (h : Follows log route) {last : Nat} (htokened : Tokened last log)
    (hrest : route.rest = []) (hidle : route.running = none) : Exact log route := by
  have hturns : route.turns.map Turn.entry = registeredIn route.log := by
    have hsnapshot := h.snapshot
    rw [hidle, hrest] at hsnapshot
    simpa using hsnapshot
  have hlogs : route.logs = route.turns.map Turn.log := by
    unfold logs
    rw [hidle]
    exact List.append_nil _
  have hreport := h.report
  rw [hidle] at hreport
  obtain ⟨honce, hkept⟩ := once_kept htokened h.began ⟨[], (List.append_nil _).trans hturns⟩
  exact {
    inOrder := ⟨[], (List.append_nil _).trans hturns⟩
    whole := fun _ => hturns
    once := honce
    stops := fun earlier turn later hsplit hconsumed =>
      absurd hconsumed (h.unconsumed turn (by rw [hsplit]; simp))
    consumed := by
      rw [hreport]
      exact ⟨nofun, fun ⟨turn, hturn, hconsumed⟩ => absurd hconsumed (h.unconsumed turn hturn)⟩
    enabled := h.enabled
    kept := hkept
    counts := by rw [hreport]; rfl
    began := h.began
    within := fun turn hturn => h.within turn.log (hlogs ▸ List.mem_map_of_mem hturn)
    ordered := hlogs ▸ h.ordered }

theorem Follows.consume (h : Follows log route) {last : Nat} (htokened : Tokened last log)
    (hrunning : route.running = some (entry, before)) :
    Exact log { route with
      report := { route.report with route := .consume }
      running := none
      turns := route.turns ++ [⟨entry, before, .consumed⟩] } := by
  have hsnapshot : (route.turns ++ [(⟨entry, before, .consumed⟩ : Turn)]).map Turn.entry ++
      route.rest = registeredIn route.log := by
    rw [← h.snapshot, hrunning]
    simp
  have hlogs : (route.turns ++ [(⟨entry, before, .consumed⟩ : Turn)]).map Turn.log =
      route.logs := by
    unfold logs
    rw [hrunning]
    simp
  have hreport := h.report
  rw [hrunning] at hreport
  obtain ⟨honce, hkept⟩ := @once_kept log { route with
    turns := route.turns ++ [⟨entry, before, .consumed⟩] } last htokened h.began ⟨_, hsnapshot⟩
  exact {
    inOrder := ⟨_, hsnapshot⟩
    whole := nofun
    once := honce
    stops := fun earlier turn later hsplit hconsumed => by
      rcases List.eq_nil_or_concat later with hnil | ⟨_, _, rfl⟩
      · exact hnil
      · rw [List.concat_eq_append, ← List.cons_append, ← List.append_assoc] at hsplit
        have hold : turn ∈ route.turns := by
          rw [(List.append_inj' hsplit rfl).1]
          simp
        exact absurd hconsumed (h.unconsumed turn hold)
    consumed := ⟨fun _ => ⟨_, List.mem_append_right _ List.mem_cons_self, rfl⟩, fun _ => rfl⟩
    enabled := fun turn hturn => by
      rcases List.mem_append.mp hturn with hold | hnew
      · exact h.enabled turn hold
      · rw [List.mem_singleton.mp hnew]
        exact ⟨nofun, fun hdisabled => absurd hdisabled (h.entered entry before hrunning)⟩
    kept := hkept
    counts := by
      dsimp only
      rw [hreport, List.countP_append, List.countP_append, List.countP_append]
      simp
    began := h.began
    within := fun turn hturn => h.within turn.log (hlogs ▸ List.mem_map_of_mem hturn)
    ordered := hlogs ▸ h.ordered }

end Route

/-- Every route of every thread is on its way, and every route that returned was exact. -/
structure Routed (registry : RawWndProcRegistry) : Prop where
  recorded : Recorded registry
  routes : ∀ thread, ∀ route ∈ registry.routes thread, route.Follows registry.log
  finished : ∀ route ∈ registry.finished, route.Exact registry.log

namespace Routed

open RawWndProcRegistry

variable {registry next : RawWndProcRegistry}

theorem quiet (h : Routed registry) (hrecorded : Recorded next)
    (hroutes : next.routes = registry.routes) (hfinished : next.finished = registry.finished)
    (hlog : registry.log <:+ next.log) : Routed next where
  recorded := hrecorded
  routes thread route hroute := by
    rw [hroutes] at hroute
    exact (h.routes thread route hroute).mono hlog
  finished route hroute := by
    rw [hfinished] at hroute
    exact (h.finished route hroute).mono hlog

variable {thread : Nat}

theorem replaced (h : Routed registry) (hrecorded : Recorded next) (first outer : List Route)
    (houter : ∀ route ∈ outer, route ∈ registry.routes thread)
    (hroutes : next.routes = Function.update registry.routes thread (first ++ outer))
    (hlog : registry.log <:+ next.log) (hfirst : ∀ route ∈ first, route.Follows next.log)
    (hfinished : ∀ route ∈ next.finished, route ∈ registry.finished ∨ route.Exact next.log) :
    Routed next where
  recorded := hrecorded
  routes other route hroute := by
    rw [hroutes, Function.update_apply] at hroute
    split at hroute
    next =>
      rcases List.mem_append.mp hroute with hnew | hold
      · exact hfirst route hnew
      · exact (h.routes thread route (houter route hold)).mono hlog
    next => exact (h.routes other route hroute).mono hlog
  finished route hroute := by
    rcases hfinished route hroute with hold | hexact
    · exact (h.finished route hold).mono hlog
    · exact hexact

variable {route : Route} {outer : List Route}

theorem innermost (h : Routed registry) (hroutes : registry.routes thread = route :: outer) :
    route.Follows registry.log :=
  h.routes thread route (by rw [hroutes]; exact List.mem_cons_self)

theorem outer_mem (hroutes : registry.routes thread = route :: outer) :
    ∀ other ∈ outer, other ∈ registry.routes thread := fun other hother => by
  rw [hroutes]
  exact List.mem_cons_of_mem _ hother

theorem advanced (h : Routed registry) (hroutes : registry.routes thread = route :: outer)
    (hrecorded : Recorded next) {after : Route}
    (hset : next.routes = Function.update registry.routes thread (after :: outer))
    (hlog : registry.log <:+ next.log) (hfinished : next.finished = registry.finished)
    (hafter : after.Follows next.log) : Routed next := by
  refine h.replaced hrecorded [after] outer (outer_mem hroutes) hset hlog (fun other hother => ?_)
    fun other hother => Or.inl (hfinished ▸ hother)
  rw [List.mem_singleton.mp hother]
  exact hafter

theorem ended (h : Routed registry) (hroutes : registry.routes thread = route :: outer)
    (hrecorded : Recorded next) {final : Route}
    (hset : next.routes = Function.update registry.routes thread outer)
    (hlog : registry.log <:+ next.log) (hfinished : next.finished = final :: registry.finished)
    (hexact : final.Exact next.log) : Routed next := by
  refine h.replaced hrecorded [] outer (outer_mem hroutes) hset hlog nofun fun other hother => ?_
  rcases List.mem_cons.mp (hfinished ▸ hother) with rfl | hold
  · exact Or.inr hexact
  · exact Or.inl hold

theorem turn (h : Routed registry) (hroutes : registry.routes thread = route :: outer)
    (hidle : route.running = none) : Routed (registry.turn thread route outer) := by
  have hrecorded := h.recorded.turn thread route outer
  have hfollows := h.innermost hroutes
  unfold RawWndProcRegistry.turn at hrecorded ⊢
  rcases hrest : route.rest with _ | ⟨entry, rest⟩
  · rw [hrest] at hrecorded
    exact h.ended hroutes hrecorded rfl List.suffix_rfl rfl
      (hfollows.exact h.recorded.tokened hrest hidle)
  · rw [hrest] at hrecorded
    dsimp only at hrecorded ⊢
    have hdisabled := h.recorded.disabled entry.token
    by_cases hflag : (registry.flags entry.token).disabled = true
    · rw [if_pos hflag] at hrecorded ⊢
      exact h.advanced hroutes hrecorded rfl List.suffix_rfl rfl
        (hfollows.skip hrest hidle (hdisabled.mp hflag))
    · rw [if_neg hflag] at hrecorded ⊢
      exact h.advanced hroutes hrecorded rfl List.suffix_rfl rfl
        (hfollows.enter hrest hidle fun hmem => hflag (hdisabled.mpr hmem))

variable {entry : Entry} {log : List RawEvent}

theorem returned (h : Routed registry) (hroutes : registry.routes thread = route :: outer)
    (hrunning : route.running = some (entry, log)) (result : RawRoute) :
    Routed (registry.returned thread route entry log result outer) := by
  have hrecorded := h.recorded.returned thread route entry log result outer
  have hfollows := h.innermost hroutes
  cases result with
  | «continue» =>
    exact h.advanced hroutes hrecorded rfl List.suffix_rfl rfl
      (hfollows.done hrunning .continued nofun nofun)
  | consume =>
    exact h.ended hroutes hrecorded rfl List.suffix_rfl rfl
      (hfollows.consume h.recorded.tokened hrunning)

theorem panicked (h : Routed registry) (hroutes : registry.routes thread = route :: outer)
    (hrunning : route.running = some (entry, log)) :
    Routed (registry.panicked thread route entry log outer) := by
  have hrecorded := h.recorded.panicked thread route entry log outer
  have hlog : registry.log <:+ (registry.panicked thread route entry log outer).log := by
    unfold RawWndProcRegistry.panicked
    dsimp only
    split
    · exact List.suffix_cons _ _
    · exact List.suffix_rfl
  exact h.advanced hroutes hrecorded rfl hlog rfl
    (((h.innermost hroutes).done hrunning .panicked nofun nofun).mono hlog)

theorem of_call {operation : RawWndProcRegistry → RawWndProcRegistry}
    (hcall : registry.call thread operation = some next)
    (hoperation : Routed (operation registry)) : Routed next := by
  unfold RawWndProcRegistry.call at hcall
  split at hcall
  · exact Option.some.inj hcall ▸ hoperation
  · cases hcall

theorem of_fromCallback
    {operation : Route → Entry → List RawEvent → List Route → RawWndProcRegistry}
    (hcall : registry.fromCallback thread operation = some next)
    (hoperation : ∀ route entry log outer, registry.routes thread = route :: outer →
      route.running = some (entry, log) → Routed (operation route entry log outer)) :
    Routed next := by
  unfold RawWndProcRegistry.fromCallback at hcall
  split at hcall
  next => cases hcall
  next route outer hroutes =>
    obtain ⟨⟨entry, log⟩, hrunning, rfl⟩ := Option.map_eq_some_iff.mp hcall
    exact hoperation route entry log outer hroutes hrunning

theorem step (h : Routed registry) {action : RawAction}
    (hstep : registry.step action = some next) : Routed next := by
  cases action with
  | register _ owner =>
    exact of_call hstep
      (h.quiet (h.recorded.register owner none) rfl rfl (List.suffix_cons _ _))
  | registerIdentified _ owner callbackId =>
    exact of_call hstep
      (h.quiet (h.recorded.register owner (some callbackId)) rfl rfl (List.suffix_cons _ _))
  | deregister _ token =>
    exact of_call hstep (h.quiet (h.recorded.deregister token) rfl rfl (List.suffix_cons _ _))
  | deregisterCallback | cleanupOwnerGeneration =>
    exact of_call hstep (h.quiet (h.recorded.removeMatching _) rfl rfl (List.suffix_cons _ _))
  | route thread =>
    refine of_call hstep (h.replaced (h.recorded.frame rfl rfl rfl rfl) [_]
      (registry.routes thread) (fun _ => id) rfl List.suffix_rfl ?_ fun _ => Or.inl)
    intro route hroute
    rw [List.mem_singleton.mp hroute, h.recorded.values]
    exact Route.follows_start registry.log
  | proceed thread =>
    simp only [RawWndProcRegistry.step] at hstep
    split at hstep
    next => cases hstep
    next hroutes =>
      split at hstep
      next hidle =>
        exact Option.some.inj hstep ▸ h.turn hroutes (Option.isNone_iff_eq_none.mp hidle)
      next => cases hstep
  | returns thread result =>
    change registry.fromCallback thread (fun route entry log outer =>
      registry.returned thread route entry log result outer) = some next at hstep
    exact of_fromCallback hstep fun route entry log outer hroutes hrunning =>
      h.returned hroutes hrunning result
  | panics thread =>
    change registry.fromCallback thread (fun route entry log outer =>
      registry.panicked thread route entry log outer) = some next at hstep
    exact of_fromCallback hstep fun route entry log outer hroutes hrunning =>
      h.panicked hroutes hrunning

theorem start (maximumPanics : Nat) : Routed (new maximumPanics) where
  recorded := ⟨⟨nofun, nofun, fun earlier hearlier => by
      rw [List.suffix_nil.mp hearlier]
      exact .nil, fun earlier hearlier => by
      rw [List.suffix_nil.mp hearlier]
      exact nofun⟩, rfl, fun token => ⟨nofun, nofun⟩⟩
  routes := nofun
  finished := nofun

end Routed

/-- Whatever the callbacks do and however the calls of the threads interleave, a route gives the
entries registered at its start their turns in the order of registration, each once, skips those
disabled by then, and ends with the first consumer. No entry is entered by a route that began after
the call that removed it. -/
theorem routes_exact (maximumPanics : Nat) {actions : List RawAction}
    {registry : RawWndProcRegistry}
    (hrun : runSteps RawWndProcRegistry.step (.new maximumPanics) actions = some registry) :
    ∀ route ∈ registry.finished, route.Exact registry.log :=
  (runSteps_invariant (P := Routed) (fun _ _ _ hstep h => h.step hstep) hrun
    (Routed.start maximumPanics)).finished

/-- The first callback of a message deregisters the second, which the route then enters. -/
def deregisteringRun : List RawAction :=
  [.register 0 ⟨1, 1⟩, .register 0 ⟨1, 1⟩, .route 0, .proceed 0, .deregister 0 2,
    .returns 0 .continue, .proceed 0, .returns 0 .consume]

def deregistering : Entry := ⟨1, ⟨1, 1⟩, none, 3⟩

def deregistered : Entry := ⟨2, ⟨1, 1⟩, none, 3⟩

theorem deregisteringRun_finished :
    (runSteps RawWndProcRegistry.step (.new 3) deregisteringRun).map
      RawWndProcRegistry.finished = some [{
        rest := []
        report := ⟨.consume, 2, 0, 0⟩
        running := none
        log := [.registered deregistered, .registered deregistering]
        turns := [
          ⟨deregistering, [.registered deregistered, .registered deregistering], .continued⟩,
          ⟨deregistered, [.removed [deregistered], .registered deregistered,
            .registered deregistering], .consumed⟩] }] := rfl

theorem deregisteringRun_exact :
    ∃ registry, runSteps RawWndProcRegistry.step (.new 3) deregisteringRun = some registry ∧
      ∃ route, registry.finished = [route] ∧ route.Exact registry.log := by
  obtain ⟨registry, hrun, hfinished⟩ := Option.map_eq_some_iff.mp deregisteringRun_finished
  exact ⟨registry, hrun, _, hfinished,
    routes_exact 3 hrun _ (by rw [hfinished]; exact List.mem_cons_self)⟩

/-- The snapshot is not consulted again, so a removal in the course of a route comes too late. -/
theorem removed_callback_entered :
    ¬ ∀ (maximumPanics : Nat) (actions : List RawAction) (registry : RawWndProcRegistry),
      runSteps RawWndProcRegistry.step (.new maximumPanics) actions = some registry →
        ∀ route ∈ registry.finished, ∀ turn ∈ route.turns, turn.outcome ≠ .disabled →
          ∀ gone, .removed gone ∈ turn.log → turn.entry ∉ gone := by
  intro hnever
  obtain ⟨registry, hrun, hfinished⟩ := Option.map_eq_some_iff.mp deregisteringRun_finished
  refine hnever 3 deregisteringRun registry hrun _ (by rw [hfinished]; exact List.mem_cons_self)
    ⟨deregistered, [.removed [deregistered], .registered deregistered, .registered deregistering],
      .consumed⟩
    (List.mem_cons_of_mem _ List.mem_cons_self) nofun [deregistered] List.mem_cons_self ?_
  exact List.mem_cons_self

end Nexus.RawWndProc
