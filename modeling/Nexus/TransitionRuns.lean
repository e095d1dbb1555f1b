import Nexus.RoutedTransitions

namespace Nexus

namespace ManagedWorld

theorem received_eq_nil {marker : Nat} {transitions : List Transition}
    (h : ∀ transition ∈ transitions, transition.registration.marker < marker) :
    received marker transitions = [] := by
  unfold received
  rw [List.filter_eq_nil_iff.mpr, List.map_nil]
  intro transition hmem hcond
  have hlt := h transition hmem
  have heq : transition.registration.marker = marker := (of_decide_eq_true hcond).1
  omega

variable {mapping : Mapping}

theorem callbackOf_put {before after : ManagedInputBinds} {identifier : String}
    (h : after.registry = before.registry.put identifier mapping) (other : String) :
    callbackOf after other = if other = identifier then mapping.callback else callbackOf before other := by
  unfold callbackOf
  rw [h, SortedMap.get?_put]
  split <;> rfl

theorem Paired.install {world next : ManagedWorld}
    (h : Paired (isHeld world.toManagedInputBinds) world) (identifier : String)
    {registration : RegisteredCallback} (hmarker : registration.marker = world.markers)
    (hmapping : mapping.callback = some registration)
    (hfree : twoSided registration = true → ¬isHeld world.toManagedInputBinds identifier)
    (hregistry : next.registry = world.registry.put identifier mapping)
    (hheld : next.held = world.held) (hmarkers : next.markers = world.markers + 1)
    (hgates : next.gates = world.gates) (ht : next.transitions = world.transitions) :
    Paired (isHeld next.toManagedInputBinds) next := by
  have hcallback : ∀ name found, callbackOf next.toManagedInputBinds name = some found →
      (name = identifier ∧ found = registration) ∨
        (name ≠ identifier ∧ callbackOf world.toManagedInputBinds name = some found) := by
    intro name found hfound
    rw [callbackOf_put hregistry] at hfound
    split at hfound
    next heq =>
      rw [hmapping] at hfound
      exact Or.inl ⟨heq, (Option.some.inj hfound).symm⟩
    next hne => exact Or.inr ⟨hne, hfound⟩
  have hsame : ∀ name, isHeld next.toManagedInputBinds name ↔
      isHeld world.toManagedInputBinds name := by
    intro name
    unfold isHeld
    rw [hheld]
  refine ⟨?_, ?_, ?_, ?_, ?_⟩
  · intro name found hfound
    rcases hcallback name found hfound with ⟨_, rfl⟩ | ⟨_, hold⟩
    · omega
    · have hlt := h.fresh name found hold
      omega
  · intro transition hmem
    rw [ht] at hmem
    have hlt := h.past transition hmem
    omega
  · intro first second found other hfirst hsecond heq
    rcases hcallback first found hfirst with ⟨h₁, rfl⟩ | ⟨_, hold₁⟩
    · rcases hcallback second other hsecond with ⟨h₂, rfl⟩ | ⟨_, hold₂⟩
      · rw [h₁, h₂]
      · have hlt := h.fresh second other hold₂
        omega
    · rcases hcallback second other hsecond with ⟨_, rfl⟩ | ⟨_, hold₂⟩
      · have hlt := h.fresh first found hold₁
        omega
      · exact h.apart first second found other hold₁ hold₂ heq
  · rw [ht]
    exact h.alternates
  · intro name found hfound hkind hgate
    rw [hgates] at hgate
    rw [ht, hsame]
    rcases hcallback name found hfound with ⟨rfl, rfl⟩ | ⟨_, hold⟩
    · rw [hmarker, received_eq_nil h.past]
      exact iff_of_false (by decide) (hfree hkind)
    · exact h.paired name found hold hkind hgate

end ManagedWorld

namespace ManagedOp

open ManagedWorld

/-- No down-and-release callback is registered under a held identifier, unless the call is refused
because the handler belongs to another owner. -/
def KeepsHeld (world : ManagedWorld) (op : ManagedOp) : Prop :=
  ∀ identifier owner callback binding, op = .register identifier owner callback binding →
    callback ≠ .onlyAsync → isHeld world.toManagedInputBinds identifier →
    ∃ registration, callbackOf world.toManagedInputBinds identifier = some registration ∧
      registration.owner ≠ owner

variable {world : ManagedWorld} {identifier : String}

theorem paired_register (h : Paired (isHeld world.toManagedInputBinds) world)
    {owner : OwnerGeneration} {callback : Callback} {binding : InputBind}
    (hkeeps : KeepsHeld world (.register identifier owner callback binding)) :
    Paired (isHeld (ManagedWorld.register identifier owner callback binding
        world).2.toManagedInputBinds)
      (ManagedWorld.register identifier owner callback binding world).2 := by
  have hkind : ∀ marker, twoSided ⟨owner, callback, marker⟩ = true → callback ≠ .onlyAsync := by
    intro marker hk
    simpa [twoSided] using hk
  unfold ManagedWorld.register
  split
  next => exact h
  next =>
    simp only
    split
    next existing hget =>
      have hget : world.registry.get? identifier = some existing := hget
      split
      next => exact h.frame rfl (fun _ hd => hd) (Nat.le_succ _) fun _ _ hreg => ⟨hreg, Iff.rfl⟩
      next howner =>
        refine h.install identifier rfl rfl (fun hk hheld => ?_) rfl rfl rfl rfl rfl
        obtain ⟨registration, hreg, hne⟩ := hkeeps identifier owner callback binding rfl
          (hkind _ hk) hheld
        unfold callbackOf at hreg
        rw [hget] at hreg
        have hcallback : existing.callback = some registration := hreg
        rw [hcallback] at howner
        exact howner (by simpa using hne)
    next hmissing =>
      have hmissing : world.registry.get? identifier = none := hmissing
      refine h.install identifier rfl rfl (fun hk hheld => ?_) rfl rfl rfl rfl rfl
      obtain ⟨registration, hreg, _⟩ := hkeeps identifier owner callback binding rfl
        (hkind _ hk) hheld
      unfold callbackOf at hreg
      rw [hmissing] at hreg
      cases hreg

theorem paired_state {next : ManagedWorld} (h : Paired (isHeld world.toManagedInputBinds) world)
    (hheld : next.held = world.held)
    (hcallback : ∀ identifier, callbackOf next.toManagedInputBinds identifier =
      callbackOf world.toManagedInputBinds identifier) (hmarkers : next.markers = world.markers)
    (hgates : next.gates = world.gates) (ht : next.transitions = world.transitions) :
    Paired (isHeld next.toManagedInputBinds) next := by
  refine h.frame ht ?_ (Nat.le_of_eq hmarkers.symm) fun identifier registration hreg => ?_
  · intro marker hd
    rw [hgates]
    exact hd
  · rw [hcallback] at hreg
    refine ⟨hreg, ?_⟩
    unfold isHeld
    rw [hheld]

theorem callbackOf_put_same {before after : ManagedInputBinds} {mapping : Mapping}
    (h : after.registry = before.registry.put identifier mapping)
    (hcallback : mapping.callback = callbackOf before identifier) (other : String) :
    callbackOf after other = callbackOf before other := by
  rw [callbackOf_put h]
  split
  next heq => rw [hcallback, heq]
  next => rfl

theorem callbackOf_default (state : ManagedInputBinds) (identifier : String) :
    ((state.registry.get? identifier).getD .default).callback = callbackOf state identifier := by
  unfold callbackOf
  rcases state.registry.get? identifier with _ | _
  · rfl
  · rfl

variable {platform : ManagedPlatform}

theorem paired_step (hexecutor : ∀ number, (platform.invocation number).executor = .returned ())
    (h : Paired (isHeld world.toManagedInputBinds) world) {op : ManagedOp}
    (hkeeps : op.KeepsHeld world) :
    Paired (isHeld (op.step platform world).toManagedInputBinds) (op.step platform world) := by
  cases op with
  | register => exact paired_register h hkeeps
  | registerDefault =>
    simp only [step]
    split
    next hok =>
      obtain ⟨_, _, hok⟩ := except_bind_ok hok
      split at hok
      next =>
        cases hok
        exact h
      next hmissing =>
        cases hok
        refine paired_state h rfl (callbackOf_put_same rfl ?_) rfl rfl rfl
        unfold callbackOf
        rw [hmissing]
        rfl
    next => exact h
  | set =>
    simp only [step]
    split
    next hok =>
      obtain ⟨_, _, hok⟩ := except_bind_ok hok
      split at hok
      next => cases hok
      next =>
        cases hok
        exact paired_state h rfl (callbackOf_put_same rfl (callbackOf_default _ _)) rfl rfl rfl
    next => exact h
  | setPassthrough identifier passthrough =>
    rcases hget : world.registry.get? identifier with _ | mapping
    · have hsame : (ManagedWorld.setPassthrough identifier passthrough
          world.toManagedInputBinds).2 = world.toManagedInputBinds := by
        simp [ManagedWorld.setPassthrough, hget]
      have hstate : ((setPassthrough identifier passthrough).step platform world) = world := by
        simp only [step, ManagedWorld.modify, hsame]
      rw [hstate]
      exact h
    · have hstep : (setPassthrough identifier passthrough).step platform world =
          world.modify fun state => { state with
            registry := state.registry.put identifier { mapping with passthrough } } := by
        simp [step, ManagedWorld.modify, ManagedWorld.setPassthrough, hget]
      have hsame : { mapping with passthrough }.callback =
          callbackOf world.toManagedInputBinds identifier := by
        unfold callbackOf
        rw [hget]
        rfl
      rw [hstep]
      exact paired_state h rfl (callbackOf_put_same rfl hsame) rfl rfl rfl
  | deregister identifier => exact h.dropHandler identifier
  | deregisterForOwner identifier | removeRegistration identifier =>
    exact h.dropHandlerIf identifier _
  | cleanupOwnerGeneration => exact Paired.dropHandlers _ h
  | delete identifier =>
    refine h.frame rfl (fun _ hd => hd) (Nat.le_refl _) fun name registration hreg => ?_
    have herase := SortedMap.get?_erase world.registry identifier name
    have hreg : ((world.registry.erase identifier).get? name).bind Mapping.callback =
      some registration := hreg
    rw [herase] at hreg
    by_cases heq : name = identifier
    · rw [if_pos heq] at hreg
      cases hreg
    · rw [if_neg heq] at hreg
      refine ⟨hreg, ?_⟩
      have hheld := SortedMap.get?_erase world.held identifier name
      rw [if_neg heq] at hheld
      show ((world.held.erase identifier).get? name).isSome = true ↔ _
      rw [hheld]
      rfl
  | startCapture | stopCapture => exact paired_state h rfl (fun _ => rfl) rfl rfl rfl
  | invoke _ release =>
    simp only [step, ManagedWorld.invoke]
    split
    next registration _ =>
      obtain ⟨hm, hg, _⟩ := invokeCallback_spec platform hexecutor release registration world
      have hstate := invokeCallback_state platform release registration world
      refine h.frame rfl hg (Nat.le_of_eq hm.symm) fun name found hfound => ?_
      simp only at hfound ⊢
      rw [hstate] at hfound ⊢
      exact ⟨hfound, Iff.rfl⟩
    next => exact h
  | route message => exact h.route hexecutor message
  | releaseAll => exact h.releaseAll hexecutor
  | loadJson source =>
    have hload := step_load platform world source
    refine h.frame ?_ ?_ ?_ fun name registration hreg => ?_
    · simp only [step]
      split <;> rfl
    · simp only [step]
      split <;> exact fun _ hd => hd
    · simp only [step]
      split <;> exact Nat.le_refl _
    · rw [hload] at hreg ⊢
      split at hreg
      next entries _ =>
        rw [callbackOf_applyEntries] at hreg
        refine ⟨hreg, ?_⟩
        unfold isHeld
        rw [(applyEntries_held entries [] _).1]
      next => exact ⟨hreg, Iff.rfl⟩
  | jobsPanicked markers =>
    exact h.frame rfl (fun marker hd => recordPanics_disabled platform markers marker _ hd)
      (Nat.le_refl _) fun _ _ hreg => ⟨hreg, Iff.rfl⟩

theorem paired_run (hexecutor : ∀ number, (platform.invocation number).executor = .returned ())
    {ops : List ManagedOp}
    (hkeeps : ∀ before op after, ops = before ++ op :: after → op.KeepsHeld (run platform before)) :
    Paired (isHeld (run platform ops).toManagedInputBinds) (run platform ops) := by
  induction ops using List.reverseRecOn with
  | nil => exact paired_new
  | append_singleton ops op ih =>
    rw [run_append]
    refine paired_step hexecutor (ih fun before other after heq => ?_) (hkeeps ops op [] rfl)
    exact hkeeps before other (after ++ [op]) (by rw [heq, List.append_assoc]; rfl)

/-- While no down-and-release callback is registered under a held identifier and the executor
takes its jobs, each publication receives presses and releases in turn. In every run the held
bindings have their modifiers down and no release since their press, and a message that releases
one ends the hold. -/
theorem routed_transitions_pair_up (platform : ManagedPlatform) (ops : List ManagedOp)
    (hexecutor : ∀ number, (platform.invocation number).executor = .returned ())
    (hkeeps : ∀ before op after, ops = before ++ op :: after →
      op.KeepsHeld (run platform before)) :
    (∀ marker, Alternates (received marker (run platform ops).transitions)) ∧
    (∀ identifier binding, (run platform ops).held.get? identifier = some binding →
      (∀ modifier, binding.requires modifier = true →
        (run platform ops).capture.modifiers.get modifier = true) ∧
      (∃ before message after, ops = before ++ .route message :: after ∧
        Presses binding message = true ∧
        ∀ later, ManagedOp.route later ∈ after → Releases binding later = false) ∧
      ∀ message, Releases binding message = true →
        (run platform (ops ++ [.route message])).held.get? identifier = none) := by
  refine ⟨(paired_run hexecutor hkeeps).alternates, fun identifier binding h => ?_⟩
  obtain ⟨hdown, hsince⟩ := held_down platform ops identifier binding h
  refine ⟨hdown, hsince, fun message hreleases => ?_⟩
  rcases hget : (run platform (ops ++ [.route message])).held.get? identifier with _ | found
  · exact hget
  · rw [run_append] at hget
    obtain ⟨_, hheld⟩ := route_held platform message (run platform ops)
    rcases hheld identifier found hget with ⟨hold, hkept⟩ | ⟨hpresses, _⟩
    · rw [h] at hold
      obtain rfl := Option.some.inj hold
      rw [hreleases] at hkept
      cases hkept
    · -- no message both releases one binding and presses another
      cases message with
      | activateApp | keyUp | mouseUp => cases hpresses
      | keyDown | mouseDown => cases hreleases

def plainKey : InputBind := ⟨false, false, false, .keyboard, 30⟩

def calmPlatform : ManagedPlatform :=
  ⟨3, fun _ => ⟨.returned (), .returned true, []⟩, ⟨fun _ => none, fun _ => "", id⟩⟩

theorem routed_transitions_pair_up_first_press :
    (∀ marker, Alternates (received marker (run calmPlatform
      [.register "a" ⟨1, 1⟩ .releaseAsync plainKey, .route (.keyDown none 30 false)]).transitions)) ∧
    (∀ identifier binding, (run calmPlatform
      [.register "a" ⟨1, 1⟩ .releaseAsync plainKey,
        .route (.keyDown none 30 false)]).held.get? identifier = some binding →
      (∀ modifier, binding.requires modifier = true →
        (run calmPlatform [.register "a" ⟨1, 1⟩ .releaseAsync plainKey,
          .route (.keyDown none 30 false)]).capture.modifiers.get modifier = true) ∧
      (∃ before message after, [.register "a" ⟨1, 1⟩ .releaseAsync plainKey,
          .route (.keyDown none 30 false)] = before ++ .route message :: after ∧
        Presses binding message = true ∧
        ∀ later, ManagedOp.route later ∈ after → Releases binding later = false) ∧
      ∀ message, Releases binding message = true →
        (run calmPlatform ([.register "a" ⟨1, 1⟩ .releaseAsync plainKey,
          .route (.keyDown none 30 false)] ++ [.route message])).held.get? identifier = none) := by
  refine routed_transitions_pair_up calmPlatform _ (fun _ => rfl) ?_
  intro before op after heq identifier owner callback binding hop _ hheld
  have hstart : before = [] := by
    rcases before with _ | ⟨_, _ | ⟨_, _⟩⟩
    · rfl
    · rw [hop] at heq
      cases heq
    · simp at heq
  rw [hstart] at hheld
  cases hheld

/-- A callback registered while its key is down receives the release first. -/
theorem release_without_press :
    ¬Alternates (received 1 (run calmPlatform [.register "a" ⟨1, 1⟩ .releaseAsync plainKey,
      .route (.keyDown none 30 false), .register "a" ⟨1, 1⟩ .releaseAsync plainKey,
      .route (.keyUp none 30)]).transitions) := by
  intro h
  have hfirst := h 0 true (by decide +kernel)
  cases hfirst

end ManagedOp

end Nexus
