import Nexus.HeldBindings

namespace Nexus

namespace ManagedWorld

def twoSided (registration : RegisteredCallback) : Bool := registration.callback ≠ .onlyAsync

/-- The transitions that a down-and-release publication received from routing, in order. -/
def received (marker : Nat) (transitions : List Transition) : List Bool :=
  (transitions.filter fun transition => transition.registration.marker = marker ∧
    twoSided transition.registration ∧ transition.received).map Transition.release

def Alternates (releases : List Bool) : Prop :=
  ∀ number release, releases[number]? = some release → release = decide (number % 2 = 1)

theorem Alternates.append {releases : List Bool} (h : Alternates releases) {release : Bool}
    (hr : release = decide (releases.length % 2 = 1)) : Alternates (releases ++ [release]) := by
  intro number found hfound
  rcases Nat.lt_trichotomy number releases.length with hlt | heq | hgt
  · rw [List.getElem?_append_left hlt] at hfound
    exact h number found hfound
  · subst heq
    rw [List.getElem?_append_right (Nat.le_refl _), Nat.sub_self] at hfound
    rw [← Option.some.inj hfound]
    exact hr
  · have hlen : (releases ++ [release]).length ≤ number := by
      rw [List.length_append]
      exact hgt
    rw [List.getElem?_eq_none hlen] at hfound
    cases hfound

theorem received_append (marker : Nat) (transitions : List Transition) (transition : Transition) :
    received marker (transitions ++ [transition]) = received marker transitions ++
      if transition.registration.marker = marker ∧ twoSided transition.registration = true ∧
        transition.received = true then [transition.release] else [] := by
  unfold received
  rw [List.filter_append, List.map_append]
  congr 1
  by_cases h : transition.registration.marker = marker ∧
      twoSided transition.registration = true ∧ transition.received = true
  · rw [if_pos h]
    simp [h.1, h.2.1, h.2.2]
  · rw [if_neg h]
    simp only [List.filter_cons, List.filter_nil, decide_eq_true_eq]
    rw [if_neg h]
    rfl

/-- The received transitions alternate, and an enabled publication has an open press exactly when
its identifier is expected to be released. -/
structure Paired (expected : String → Prop) (world : ManagedWorld) : Prop where
  fresh : ∀ identifier registration,
    callbackOf world.toManagedInputBinds identifier = some registration →
    registration.marker < world.markers
  past : ∀ transition ∈ world.transitions, transition.registration.marker < world.markers
  apart : ∀ first second registration other,
    callbackOf world.toManagedInputBinds first = some registration →
    callbackOf world.toManagedInputBinds second = some other →
    registration.marker = other.marker → first = second
  alternates : ∀ marker, Alternates (received marker world.transitions)
  paired : ∀ identifier registration,
    callbackOf world.toManagedInputBinds identifier = some registration →
    twoSided registration = true → (world.gates registration.marker).disabled = false →
    ((received registration.marker world.transitions).length % 2 = 1 ↔ expected identifier)

theorem Paired.frame {expected expected' : String → Prop} {world next : ManagedWorld}
    (h : Paired expected world) (ht : next.transitions = world.transitions)
    (hg : ∀ marker, (world.gates marker).disabled = true → (next.gates marker).disabled = true)
    (hm : world.markers ≤ next.markers)
    (hr : ∀ identifier registration,
      callbackOf next.toManagedInputBinds identifier = some registration →
      callbackOf world.toManagedInputBinds identifier = some registration ∧
        (expected' identifier ↔ expected identifier)) : Paired expected' next := by
  refine ⟨?_, ?_, ?_, ?_, ?_⟩
  · intro identifier registration hreg
    have hlt := h.fresh identifier registration (hr identifier registration hreg).1
    omega
  · intro transition hmem
    rw [ht] at hmem
    have hlt := h.past transition hmem
    omega
  · intro first second registration other hfirst hsecond
    exact h.apart first second registration other (hr first registration hfirst).1
      (hr second other hsecond).1
  · rw [ht]
    exact h.alternates
  · intro identifier registration hreg hkind henabled
    obtain ⟨hold, hexpected⟩ := hr identifier registration hreg
    have hwas : (world.gates registration.marker).disabled = false := by
      rcases hd : (world.gates registration.marker).disabled
      · rfl
      · rw [hg _ hd] at henabled
        cases henabled
    rw [ht, hexpected]
    exact h.paired identifier registration hold hkind hwas

theorem Paired.congr {expected expected' : String → Prop} {world : ManagedWorld}
    (h : Paired expected world) (he : ∀ identifier, expected' identifier ↔ expected identifier) :
    Paired expected' world :=
  h.frame rfl (fun _ hd => hd) (Nat.le_refl _) fun identifier _ hreg => ⟨hreg, he identifier⟩

section Gates

variable (platform : ManagedPlatform)

theorem recordPanics_disabled (markers : List Nat) (marker : Nat) :
    ∀ gates : Nat → PanicGate, (gates marker).disabled = true →
      (recordPanics platform markers gates marker).disabled = true := by
  induction markers with
  | nil => exact fun _ h => h
  | cons first _ ih =>
    intro gates h
    refine ih _ ?_
    beta_reduce
    by_cases heq : marker = first
    · subst heq
      rw [Function.update_self]
      simp only [PanicGate.record, h, Bool.true_or]
    · rw [Function.update_of_ne heq]
      exact h

/-- What a callback is handed: nothing when it is disabled, otherwise one transition, which a
down-only callback may be spared. -/
theorem invokeCallback_spec
    (hexecutor : ∀ number, (platform.invocation number).executor = .returned ())
    (release : Bool) (registration : RegisteredCallback) (world : ManagedWorld) :
    (invokeCallback platform release registration world).2.markers = world.markers ∧
    (∀ marker, (world.gates marker).disabled = true →
      ((invokeCallback platform release registration world).2.gates marker).disabled = true) ∧
    (((invokeCallback platform release registration world).2.transitions = world.transitions ∧
        ((world.gates registration.marker).disabled = true ∨ twoSided registration = false)) ∨
      ((invokeCallback platform release registration world).2.transitions =
          world.transitions ++ [⟨registration, release, true⟩] ∧
        (world.gates registration.marker).disabled = false)) := by
  have hasync : ∀ flag, (dispatchAsync platform registration flag world).2.markers = world.markers ∧
      (∀ marker, (world.gates marker).disabled = true →
        ((dispatchAsync platform registration flag world).2.gates marker).disabled = true) ∧
      (dispatchAsync platform registration flag world).2.transitions =
        world.transitions ++ [⟨registration, flag, true⟩] := by
    intro flag
    unfold dispatchAsync
    rw [hexecutor]
    exact ⟨rfl, fun marker hd => recordPanics_disabled platform _ marker _ hd, rfl⟩
  unfold invokeCallback
  by_cases hd : (world.gates registration.marker).disabled = true
  · rw [if_pos hd]
    exact ⟨rfl, fun _ h => h, Or.inl ⟨rfl, Or.inl hd⟩⟩
  · rw [if_neg hd]
    have henabled : (world.gates registration.marker).disabled = false := by simpa using hd
    split
    next hkind =>
      have hone : twoSided registration = false := by simp [twoSided, hkind]
      split
      · exact ⟨rfl, fun _ h => h, Or.inl ⟨rfl, Or.inr hone⟩⟩
      next hpress =>
        obtain ⟨hm, hg, ht⟩ := hasync false
        have hpress : release = false := by simpa using hpress
        refine ⟨hm, hg, Or.inr ⟨?_, henabled⟩⟩
        rw [ht, hpress]
    next =>
      obtain ⟨hm, hg, ht⟩ := hasync release
      exact ⟨hm, hg, Or.inr ⟨ht, henabled⟩⟩
    next =>
      unfold dispatchNow
      split
      · exact ⟨rfl, fun marker h => recordPanics_disabled platform _ marker _ h,
          Or.inr ⟨rfl, henabled⟩⟩
      · exact ⟨rfl, fun marker h => recordPanics_disabled platform _ marker _ h,
          Or.inr ⟨rfl, henabled⟩⟩

end Gates

section Invoke

variable {platform : ManagedPlatform}
  (hexecutor : ∀ number, (platform.invocation number).executor = .returned ())

include hexecutor

theorem Paired.invoke {expected : String → Prop} {world : ManagedWorld} (h : Paired expected world)
    {identifier : String} {registration : RegisteredCallback}
    (hreg : callbackOf world.toManagedInputBinds identifier = some registration) {release : Bool}
    (hexpected : expected identifier ↔ release = true) :
    Paired (fun other => if other = identifier then release = false else expected other)
      (invokeCallback platform release registration world).2 := by
  obtain ⟨hm, hg, ht⟩ := invokeCallback_spec platform hexecutor release registration world
  have hstate := invokeCallback_state platform release registration world
  generalize (invokeCallback platform release registration world).2 = next at hm hg ht hstate ⊢
  have hwas : ∀ marker, (next.gates marker).disabled = false →
      (world.gates marker).disabled = false := by
    intro marker henabled
    rcases hd : (world.gates marker).disabled
    · rfl
    · rw [hg marker hd] at henabled
      cases henabled
  have hfresh : ∀ name found, callbackOf next.toManagedInputBinds name = some found →
      found.marker < next.markers := by
    intro name found hfound
    rw [hstate] at hfound
    rw [hm]
    exact h.fresh name found hfound
  have hapart : ∀ first second found other,
      callbackOf next.toManagedInputBinds first = some found →
      callbackOf next.toManagedInputBinds second = some other →
      found.marker = other.marker → first = second := by
    rw [hstate]
    exact h.apart
  rcases ht with ⟨ht, hspared⟩ | ⟨ht, henabled⟩
  · refine ⟨hfresh, ?_, hapart, ?_, ?_⟩
    · rw [ht, hm]
      exact h.past
    · rw [ht]
      exact h.alternates
    · intro name found hfound hkind hgate
      rw [hstate] at hfound
      have hgate := hwas _ hgate
      by_cases hname : name = identifier
      · subst hname
        rw [hreg] at hfound
        obtain rfl := Option.some.inj hfound
        rcases hspared with hdisabled | hone
        · rw [hdisabled] at hgate
          cases hgate
        · rw [hone] at hkind
          cases hkind
      · simp only [if_neg hname]
        rw [ht]
        exact h.paired name found hfound hkind hgate
  · refine ⟨hfresh, ?_, hapart, ?_, ?_⟩
    · intro transition hmem
      rw [ht] at hmem
      rw [hm]
      rcases List.mem_append.mp hmem with hmem | hmem
      · exact h.past transition hmem
      · rw [List.mem_singleton.mp hmem]
        exact h.fresh identifier registration hreg
    · intro marker
      rw [ht, received_append]
      split
      next hown =>
        obtain ⟨rfl, hkind, _⟩ := hown
        have hopen := (h.paired identifier registration hreg hkind henabled).trans hexpected
        refine (h.alternates registration.marker).append ?_
        cases release with
        | true => exact (decide_eq_true (hopen.mpr rfl)).symm
        | false =>
          refine (decide_eq_false fun hodd => ?_).symm
          exact absurd (hopen.mp hodd) (by decide)
      next =>
        rw [List.append_nil]
        exact h.alternates marker
    · intro name found hfound hkind hgate
      rw [hstate] at hfound
      have hgate := hwas _ hgate
      have hbefore := h.paired name found hfound hkind hgate
      rw [ht, received_append]
      by_cases hname : name = identifier
      · subst hname
        rw [hreg] at hfound
        obtain rfl := Option.some.inj hfound
        rw [if_pos ⟨rfl, hkind, rfl⟩, List.length_append]
        have hopen := hbefore.trans hexpected
        simp only [if_true, List.length_singleton]
        cases release with
        | true =>
          have hodd := hopen.mpr rfl
          refine iff_of_false ?_ (by decide)
          omega
        | false =>
          have heven : ¬(received registration.marker world.transitions).length % 2 = 1 :=
            fun hodd => absurd (hopen.mp hodd) (by decide)
          refine iff_of_true ?_ rfl
          omega
      · have hne : registration.marker ≠ found.marker := fun heq =>
          hname (h.apart name identifier found registration hfound hreg heq.symm)
        rw [if_neg fun hown => hne hown.1, List.append_nil]
        simp only [if_neg hname]
        exact hbefore

theorem Paired.invokeReleases (identifiers : List String) :
    ∀ {expected : String → Prop} {world : ManagedWorld} (result : RouteOutcome),
      identifiers.Nodup → Paired expected world →
      (∀ identifier ∈ identifiers, expected identifier) →
      Paired (fun other => expected other ∧ other ∉ identifiers)
        (invokeReleases platform (identifiers.map (callbackOf world.toManagedInputBinds))
          result world).2 := by
  induction identifiers with
  | nil =>
    intro expected world result _ h _
    exact h.congr fun identifier => by simp
  | cons identifier rest ih =>
    intro expected world result hnodup h hexpected
    obtain ⟨hnot, hrest⟩ := List.nodup_cons.mp hnodup
    have hsecond : ∀ other ∈ rest, other ≠ identifier := by
      rintro other hmem rfl
      exact hnot hmem
    rcases hreg : callbackOf world.toManagedInputBinds identifier with _ | registration
    · have hskip : Paired (fun other => expected other ∧ other ≠ identifier) world := by
        refine h.frame rfl (fun _ hd => hd) (Nat.le_refl _) fun name found hfound => ⟨hfound, ?_⟩
        have hname : name ≠ identifier := by
          rintro rfl
          rw [hreg] at hfound
          cases hfound
        exact and_iff_left hname
      have hdone := ih result hrest hskip fun other hmem =>
        ⟨hexpected other (List.mem_cons_of_mem _ hmem), hsecond other hmem⟩
      simp only [List.map_cons, hreg, ManagedWorld.invokeReleases]
      refine hdone.congr fun other => ?_
      rw [List.mem_cons, not_or, and_assoc]
    · have hone := h.invoke hexecutor hreg
        (iff_of_true (hexpected identifier (List.mem_cons_self ..)) rfl)
      have hstate := invokeCallback_state platform true registration world
      have hdone := ih (result.mergeInvoke
          (invokeCallback platform true registration world).1) hrest hone fun other hmem => by
        simp only [if_neg (hsecond other hmem)]
        exact hexpected other (List.mem_cons_of_mem _ hmem)
      rw [hstate] at hdone
      simp only [List.map_cons, hreg, ManagedWorld.invokeReleases]
      refine hdone.congr fun other => ?_
      by_cases hother : other = identifier
      · simp [hother]
      · simp [hother]

end Invoke

def isHeld (state : ManagedInputBinds) (identifier : String) : Prop :=
  (state.held.get? identifier).isSome = true

theorem paired_new : Paired (isHeld ManagedWorld.new.toManagedInputBinds) .new := by
  refine ⟨?_, ?_, ?_, ?_, ?_⟩
  · intro identifier registration h
    cases h
  · intro transition h
    cases h
  · intro first second registration other h
    cases h
  · intro marker number release h
    cases h
  · intro identifier registration h
    cases h

theorem isHeld_releaseIdentifiers (platform : ManagedPlatform) (identifiers : List String)
    (world : ManagedWorld) (identifier : String) :
    isHeld (releaseIdentifiers platform identifiers world).2.toManagedInputBinds identifier ↔
      isHeld world.toManagedInputBinds identifier ∧ identifier ∉ identifiers := by
  unfold isHeld
  rw [held_releaseIdentifiers]
  by_cases h : identifier ∈ identifiers
  · simp [h]
  · simp [h]

theorem nodup_held_filter (held : SortedMap String InputBind) (p : String × InputBind → Bool) :
    ((held.toList.filter p).map Prod.fst).Nodup := by
  have hsorted := held.sorted.sublist ((List.filter_sublist (p := p)).map Prod.fst)
  exact hsorted.imp fun h => ne_of_lt h

section Run

variable {platform : ManagedPlatform}
  (hexecutor : ∀ number, (platform.invocation number).executor = .returned ())

include hexecutor

theorem Paired.releaseIdentifiers {world : ManagedWorld} {identifiers : List String}
    (h : Paired (isHeld world.toManagedInputBinds) world) (hnodup : identifiers.Nodup)
    (hheld : ∀ identifier ∈ identifiers, isHeld world.toManagedInputBinds identifier) :
    Paired (isHeld (ManagedWorld.releaseIdentifiers platform identifiers world).2.toManagedInputBinds)
      (ManagedWorld.releaseIdentifiers platform identifiers world).2 := by
  have htaken : Paired (isHeld world.toManagedInputBinds) (world.modify fun state => { state with
      held := identifiers.foldl SortedMap.erase state.held }) :=
    h.frame rfl (fun _ hd => hd) (Nat.le_refl _) fun _ _ hreg => ⟨hreg, Iff.rfl⟩
  have hdone := htaken.invokeReleases hexecutor identifiers .default hnodup hheld
  exact hdone.congr fun identifier => isHeld_releaseIdentifiers platform identifiers world identifier

theorem Paired.releaseMatching {world : ManagedWorld} (predicate : InputBind → Bool)
    (h : Paired (isHeld world.toManagedInputBinds) world) :
    Paired (isHeld (ManagedWorld.releaseMatching platform predicate world).2.toManagedInputBinds)
      (ManagedWorld.releaseMatching platform predicate world).2 := by
  refine h.releaseIdentifiers hexecutor (nodup_held_filter _ _) fun identifier hmem => ?_
  obtain ⟨⟨_, _⟩, hitem, rfl⟩ := List.mem_map.mp hmem
  unfold isHeld
  rw [SortedMap.get?_of_mem (List.mem_filter.mp hitem).1]
  rfl

theorem Paired.releaseAll {world : ManagedWorld}
    (h : Paired (isHeld world.toManagedInputBinds) world) :
    Paired (isHeld (ManagedWorld.releaseAll platform world).2.toManagedInputBinds)
      (ManagedWorld.releaseAll platform world).2 := by
  refine h.releaseIdentifiers hexecutor (world.held.sorted.imp fun hlt => ne_of_lt hlt)
    fun identifier hmem => ?_
  obtain ⟨⟨_, _⟩, hitem, rfl⟩ := List.mem_map.mp hmem
  unfold isHeld
  rw [SortedMap.get?_of_mem hitem]
  rfl

theorem Paired.press {world : ManagedWorld} (binding : InputBind)
    (h : Paired (isHeld world.toManagedInputBinds) world) :
    Paired (isHeld (ManagedWorld.press platform binding world).2.toManagedInputBinds)
      (ManagedWorld.press platform binding world).2 := by
  unfold ManagedWorld.press
  split
  next => exact h
  next identifier mapping hselected =>
    split
    next => exact h
    next hfree =>
      have hfree : ¬isHeld world.toManagedInputBinds identifier := hfree
      have hheld : ∀ other, isHeld { world.toManagedInputBinds with
          held := world.held.put identifier binding } other ↔
          if other = identifier then false = false else isHeld world.toManagedInputBinds other := by
        intro other
        unfold isHeld
        rw [SortedMap.get?_put]
        by_cases heq : other = identifier
        · simp [heq]
        · simp [heq]
      have hget : world.registry.get? identifier = some mapping :=
        SortedMap.get?_of_mem (List.mem_of_find?_eq_some hselected)
      have hcallback : callbackOf world.toManagedInputBinds identifier = mapping.callback := by
        unfold callbackOf
        rw [hget]
        rfl
      -- the hold is recorded before the callback runs
      have hrecorded : Paired (isHeld world.toManagedInputBinds) (world.modify fun state =>
          { state with held := state.held.put identifier binding }) :=
        h.frame rfl (fun _ hd => hd) (Nat.le_refl _) fun _ _ hreg => ⟨hreg, Iff.rfl⟩
      rcases hnone : mapping.callback with _ | registration
      · refine h.frame rfl (fun _ hd => hd) (Nat.le_refl _) fun name found hfound => ⟨hfound, ?_⟩
        have hname : name ≠ identifier := by
          rintro rfl
          have hfound : callbackOf world.toManagedInputBinds name = some found := hfound
          rw [hcallback, hnone] at hfound
          cases hfound
        refine (hheld name).trans ?_
        rw [if_neg hname]
      · have hreg : callbackOf world.toManagedInputBinds identifier = some registration := by
          rw [hcallback, hnone]
        have hdone := hrecorded.invoke hexecutor hreg
          (iff_of_false hfree (by decide : ¬false = true))
        refine hdone.congr fun other => ?_
        have hstate := invokeCallback_state platform false registration (world.modify fun state =>
          { state with held := state.held.put identifier binding })
        show isHeld (invokeCallback platform false registration _).2.toManagedInputBinds other ↔ _
        rw [hstate]
        exact hheld other

theorem Paired.route {world : ManagedWorld} (message : InputMessage)
    (h : Paired (isHeld world.toManagedInputBinds) world) :
    Paired (isHeld (ManagedWorld.route platform message world).2.toManagedInputBinds)
      (ManagedWorld.route platform message world).2 := by
  have hcapture : ∀ capture, Paired (isHeld world.toManagedInputBinds)
      (world.modify fun state => { state with capture }) := fun capture =>
    h.frame rfl (fun _ hd => hd) (Nat.le_refl _) fun _ _ hreg => ⟨hreg, Iff.rfl⟩
  unfold ManagedWorld.route
  simp only
  split
  · exact hcapture _
  · split
    · exact Paired.releaseAll hexecutor (hcapture _)
    · split
      · exact Paired.press hexecutor _ (hcapture _)
      · exact hcapture _
    · split
      · exact Paired.press hexecutor _ (hcapture _)
      · exact hcapture _
    · exact Paired.releaseMatching hexecutor _
        (Paired.releaseMatching hexecutor _ (hcapture _))
    · exact Paired.releaseMatching hexecutor _ (hcapture _)
    · exact Paired.releaseMatching hexecutor _ (hcapture _)

end Run

theorem callbackOf_dropHandler (name identifier : String) (state : ManagedInputBinds) :
    callbackOf (dropHandler name state) identifier =
      if identifier = name then none else callbackOf state identifier := by
  unfold callbackOf dropHandler
  rcases hget : state.registry.get? name with _ | _
  · by_cases heq : identifier = name
    · simp [heq, hget]
    · simp [heq]
  · simp only
    rw [SortedMap.get?_put]
    by_cases heq : identifier = name
    · simp [heq]
    · simp [heq]

theorem isHeld_dropHandler {name identifier : String} {state : ManagedInputBinds}
    (h : identifier ≠ name) :
    isHeld (dropHandler name state) identifier ↔ isHeld state identifier := by
  unfold isHeld dropHandler
  rw [SortedMap.get?_erase, if_neg h]

theorem Paired.dropHandler {world : ManagedWorld}
    (h : Paired (isHeld world.toManagedInputBinds) world) (name : String) :
    Paired (isHeld (ManagedWorld.dropHandler name world.toManagedInputBinds))
      (world.modify (ManagedWorld.dropHandler name)) := by
  refine h.frame rfl (fun _ hd => hd) (Nat.le_refl _) fun identifier registration hreg => ?_
  have hreg : callbackOf (ManagedWorld.dropHandler name world.toManagedInputBinds) identifier =
    some registration := hreg
  rw [callbackOf_dropHandler] at hreg
  split at hreg
  next => cases hreg
  next hne => exact ⟨hreg, isHeld_dropHandler hne⟩

theorem Paired.dropHandlerIf {world : ManagedWorld}
    (h : Paired (isHeld world.toManagedInputBinds) world) (name : String)
    (asked : RegisteredCallback → Bool) :
    Paired (isHeld (ManagedWorld.dropHandlerIf name asked world.toManagedInputBinds).2)
      (world.modify fun state => (ManagedWorld.dropHandlerIf name asked state).2) := by
  rcases hasked : (callbackOf world.toManagedInputBinds name).any asked
  · have hsame : (ManagedWorld.dropHandlerIf name asked world.toManagedInputBinds).2 =
        world.toManagedInputBinds := by
      simp [ManagedWorld.dropHandlerIf, hasked]
    simp only [ManagedWorld.modify, hsame]
    exact h
  · have hdrop : (ManagedWorld.dropHandlerIf name asked world.toManagedInputBinds).2 =
        ManagedWorld.dropHandler name world.toManagedInputBinds := by
      simp [ManagedWorld.dropHandlerIf, hasked]
    simp only [ManagedWorld.modify, hdrop]
    exact h.dropHandler name

theorem Paired.dropHandlers (names : List String) :
    ∀ {world : ManagedWorld}, Paired (isHeld world.toManagedInputBinds) world →
      Paired (isHeld (names.foldl (fun state name => ManagedWorld.dropHandler name state)
          world.toManagedInputBinds))
        (world.modify (names.foldl fun state name => ManagedWorld.dropHandler name state)) := by
  induction names with
  | nil => exact fun h => h
  | cons name _ ih =>
    intro world h
    exact @ih (world.modify (ManagedWorld.dropHandler name)) (h.dropHandler name)

theorem callbackOf_applyEntries (identifier : String) (entries : List JsonParsed) :
    ∀ (seen : List String) (state : ManagedInputBinds),
      callbackOf (applyEntries entries seen state) identifier = callbackOf state identifier := by
  induction entries with
  | nil => exact fun _ _ => rfl
  | cons entry _ ih =>
    intro seen state
    simp only [applyEntries]
    rw [ih]
    cases entry with
    | known name =>
      unfold callbackOf applyParsed
      simp only
      rw [SortedMap.get?_put]
      by_cases heq : identifier = name
      · subst heq
        rcases state.registry.get? identifier with _ | _
        · simp [Mapping.default]
        · simp
      · rw [if_neg heq]
    | opaqueValue => rfl

end ManagedWorld

end Nexus
