import Nexus.CallerResolver

namespace Nexus.Caller

open StepRuns

variable {resolver : AddressOwnerResolver} {log : List Answer}

section Asking

variable {α β : Type} {answer : Answer} {value : α}

theorem ask_of_panic (h : resolver.panics log.length = true) :
    ask resolver answer value log = (.error (), .panicked :: log) := if_pos h

theorem ask_of_quiet (h : resolver.panics log.length = false) :
    ask resolver answer value log = (.ok value, answer :: log) := by
  unfold ask
  rw [if_neg]
  simp [h]

/-- A call that ends normally has met no panic. -/
def Clean (x : Fallible (List Answer) Unit α) : Prop :=
  ∀ log value after, Answer.panicked ∉ log → x log = (.ok value, after) → .panicked ∉ after

theorem clean_pure (value : α) : Clean (pure value) := by
  intro log found after hlog h
  cases h
  exact hlog

theorem clean_fail : Clean (Fallible.fail () : Fallible (List Answer) Unit α) := by
  intro log value after hlog h
  cases (Prod.mk.inj h).1

theorem clean_bind {x : Fallible (List Answer) Unit α} {f : α → Fallible (List Answer) Unit β}
    (hx : Clean x) (hf : ∀ value, Clean (f value)) : Clean (x >>= f) := by
  intro log value after hlog h
  rw [Fallible.bind_apply] at h
  rcases hresult : x log with ⟨_ | found, middle⟩
  · rw [hresult] at h
    cases (Prod.mk.inj h).1
  · rw [hresult] at h
    exact hf found middle value after (hx log found middle hlog hresult) h

theorem clean_ask (hanswer : answer ≠ .panicked) (value : α) :
    Clean (ask resolver answer value) := by
  intro log found after hlog h
  cases hpanic : resolver.panics log.length with
  | true =>
    rw [ask_of_panic hpanic] at h
    cases (Prod.mk.inj h).1
  | false =>
    rw [ask_of_quiet hpanic] at h
    rw [← (Prod.mk.inj h).2, List.mem_cons, not_or]
    exact ⟨hanswer.symm, hlog⟩

end Asking

inductive Validated (resolver : AddressOwnerResolver) (address : Nat) (log : List Answer) :
    Except Unit (Option OwnerToken) × List Answer → Prop
  | lookupPanicked : resolver.panics log.length = true →
      Validated resolver address log (.error (), .panicked :: log)
  | unmapped : resolver.panics log.length = false → resolver.owners address = none →
      Validated resolver address log (.ok none, .mapped address none :: log)
  | currentPanicked {owner : OwnerToken} : resolver.panics log.length = false →
      resolver.owners address = some owner → resolver.panics (log.length + 1) = true →
      Validated resolver address log (.error (), .panicked :: .mapped address (some owner) :: log)
  | answered {owner : OwnerToken} : resolver.panics log.length = false →
      resolver.owners address = some owner → resolver.panics (log.length + 1) = false →
      Validated resolver address log
        (.ok (if resolver.current owner then some owner else none),
          .current owner (resolver.current owner) :: .mapped address (some owner) :: log)

theorem validatedAddress_cases (resolver : AddressOwnerResolver) (address : Nat)
    (log : List Answer) :
    Validated resolver address log (validatedAddress resolver address log) := by
  unfold validatedAddress ownerForAddress
  cases hlookup : resolver.panics log.length with
  | true =>
    rw [Fallible.bind_of_error (ask_of_panic hlookup)]
    exact .lookupPanicked hlookup
  | false =>
    rw [Fallible.bind_of_ok (ask_of_quiet hlookup)]
    rcases howner : resolver.owners address with _ | owner
    · exact .unmapped hlookup howner
    · dsimp only
      unfold ownerIsCurrent
      cases hcurrent : resolver.panics (log.length + 1) with
      | true =>
        rw [Fallible.bind_of_error (ask_of_panic hcurrent)]
        exact .currentPanicked hlookup howner hcurrent
      | false =>
        rw [Fallible.bind_of_ok (ask_of_quiet hcurrent)]
        have hanswered := Validated.answered hlookup howner hcurrent
        cases hvalue : resolver.current owner with
        | true | false =>
          rw [hvalue] at hanswered
          exact hanswered

theorem clean_validatedAddress (resolver : AddressOwnerResolver) (address : Nat) :
    Clean (validatedAddress resolver address) := by
  refine clean_bind (clean_ask (by simp) _) fun found => ?_
  rcases found with _ | _
  · exact clean_pure _
  · refine clean_bind (clean_ask (by simp) _) fun isCurrent => ?_
    cases isCurrent <;> exact clean_pure _

theorem clean_resolveFrames (resolver : AddressOwnerResolver) (frames : List Nat) :
    Clean (resolveFrames resolver frames) := by
  induction frames with
  | nil => exact clean_pure _
  | cons frame _ ih =>
    unfold resolveFrames
    split
    · exact ih
    · refine clean_bind (clean_validatedAddress resolver frame) fun found => ?_
      rcases found with _ | _
      · exact ih
      · exact clean_pure _

def questionsOf (resolver : AddressOwnerResolver) (frame : Nat) : Nat :=
  if frame = 0 then 0 else if (resolver.owners frame).isSome then 2 else 1

def questions (resolver : AddressOwnerResolver) : List Nat → Nat
  | [] => 0
  | frame :: frames => questionsOf resolver frame + questions resolver frames

def Passed (resolver : AddressOwnerResolver) (frame : Nat) : Prop :=
  frame = 0 ∨ ∀ owner, resolver.owners frame = some owner → resolver.current owner = false

/-- The resolver answers every question from the first number to before the second. -/
def Quiet (resolver : AddressOwnerResolver) (first last : Nat) : Prop :=
  ∀ number, first ≤ number → number < last → resolver.panics number = false

/-- Some frame is mapped to the current owner, no frame before it is mapped to a current one, and the
questions up to that frame are answered, of which `asked` is the number of the first. -/
def Reaches (resolver : AddressOwnerResolver) (asked : Nat) (frames : List Nat)
    (owner : OwnerToken) : Prop :=
  ∃ before frame after, frames = before ++ frame :: after ∧ frame ≠ 0 ∧
    resolver.owners frame = some owner ∧ resolver.current owner = true ∧
    (∀ passed ∈ before, Passed resolver passed) ∧
    Quiet resolver asked (asked + questions resolver (before ++ [frame]))

theorem quiet_add {first count more : Nat} :
    Quiet resolver first (first + (count + more)) ↔
      Quiet resolver first (first + count) ∧
        Quiet resolver (first + count) (first + count + more) := by
  constructor
  · intro h
    exact ⟨fun number hfirst hlast => h number hfirst (by omega),
      fun number hfirst hlast => h number (by omega) (by omega)⟩
  · rintro ⟨hbefore, hafter⟩ number hfirst hlast
    by_cases hnumber : number < first + count
    · exact hbefore number hfirst hnumber
    · exact hafter number (by omega) (by omega)

variable {frame asked : Nat} {frames : List Nat}

theorem reaches_passed {owner : OwnerToken} (hpassed : Passed resolver frame) :
    Reaches resolver asked (frame :: frames) owner ↔
      Quiet resolver asked (asked + questionsOf resolver frame) ∧
        Reaches resolver (asked + questionsOf resolver frame) frames owner := by
  constructor
  · rintro ⟨before, found, after, heq, hfound, howner, hcurrent, hbefore, hquiet⟩
    cases before with
    | nil =>
      obtain ⟨rfl, rfl⟩ := List.cons.inj heq
      rcases hpassed with hzero | hstale
      · exact absurd hzero hfound
      · rw [hstale owner howner] at hcurrent
        cases hcurrent
    | cons _ before =>
      obtain ⟨rfl, rfl⟩ := List.cons.inj heq
      obtain ⟨hfirst, hrest⟩ := quiet_add.mp hquiet
      refine ⟨hfirst, before, found, after, rfl, hfound, howner, hcurrent, ?_, hrest⟩
      exact fun passed hmem => hbefore passed (List.mem_cons_of_mem _ hmem)
  · rintro ⟨hfirst, before, found, after, rfl, hfound, howner, hcurrent, hbefore, hquiet⟩
    refine ⟨frame :: before, found, after, rfl, hfound, howner, hcurrent, ?_, ?_⟩
    · intro passed hmem
      rcases List.mem_cons.mp hmem with rfl | hmem
      · exact hpassed
      · exact hbefore passed hmem
    · exact quiet_add.mpr ⟨hfirst, hquiet⟩

theorem reaches_current {owner found : OwnerToken} (hframe : frame ≠ 0)
    (hfound : resolver.owners frame = some found) (hcurrent : resolver.current found = true) :
    Reaches resolver asked (frame :: frames) owner ↔
      owner = found ∧ Quiet resolver asked (asked + 2) := by
  have hquestions : questionsOf resolver frame = 2 := by
    simp [questionsOf, hframe, hfound]
  constructor
  · rintro ⟨before, last, after, heq, hlast, howner, _, hbefore, hquiet⟩
    cases before with
    | nil =>
      obtain ⟨rfl, rfl⟩ := List.cons.inj heq
      rw [hfound] at howner
      refine ⟨(Option.some.inj howner).symm, ?_⟩
      simpa [questions, hquestions] using hquiet
    | cons =>
      obtain ⟨rfl, rfl⟩ := List.cons.inj heq
      rcases hbefore frame List.mem_cons_self with hzero | hstale
      · exact absurd hzero hframe
      · rw [hstale found hfound] at hcurrent
        cases hcurrent
  · rintro ⟨rfl, hquiet⟩
    refine ⟨[], frame, frames, rfl, hframe, hfound, hcurrent, nofun, ?_⟩
    simpa [questions, hquestions] using hquiet

theorem resolveFrames_iff (frames : List Nat) (log : List Answer) (owner : OwnerToken) :
    (resolveFrames resolver frames log).1 = .ok (some owner) ↔
      Reaches resolver log.length frames owner := by
  induction frames generalizing log with
  | nil =>
    constructor
    · intro h
      cases h
    · rintro ⟨before, frame, after, heq, _⟩
      cases before <;> cases heq
  | cons frame _ ih =>
    unfold resolveFrames
    by_cases hframe : frame = 0
    · rw [if_pos hframe, ih, reaches_passed (Or.inl hframe)]
      have hnone : questionsOf resolver frame = 0 := if_pos hframe
      rw [hnone, Nat.add_zero]
      exact ⟨fun h => ⟨fun number hfirst hlast => by omega, h⟩, And.right⟩
    · rw [if_neg hframe]
      have hvalidated := validatedAddress_cases resolver frame log
      generalize hresult : validatedAddress resolver frame log = result at hvalidated
      cases hvalidated with
      | lookupPanicked hpanic =>
        rw [Fallible.bind_of_error hresult]
        refine ⟨fun h => (by cases h), ?_⟩
        rintro ⟨before, found, after, heq, hfound, howner, _, _, hquiet⟩
        have hpositive : 0 < questions resolver (before ++ [found]) := by
          cases before with
          | nil => simp [questions, questionsOf, hfound, howner]
          | cons =>
            obtain ⟨rfl, rfl⟩ := List.cons.inj heq
            have hone : 0 < questionsOf resolver frame := by
              unfold questionsOf
              rw [if_neg hframe]
              split <;> omega
            rw [List.cons_append, questions]
            omega
        rw [hquiet log.length (Nat.le_refl _) (by omega)] at hpanic
        cases hpanic
      | unmapped hlookup howner =>
        have hpassed : Passed resolver frame := Or.inr fun found hfound => by
          rw [howner] at hfound
          cases hfound
        have hone : questionsOf resolver frame = 1 := by simp [questionsOf, hframe, howner]
        rw [Fallible.bind_of_ok hresult, reaches_passed hpassed, hone]
        refine (ih _).trans ⟨fun h => ⟨fun number hfirst hlast => ?_, h⟩, And.right⟩
        have hnumber : number = log.length := by omega
        rw [hnumber]
        exact hlookup
      | @currentPanicked found _ howner hpanic =>
        rw [Fallible.bind_of_error hresult]
        refine ⟨fun h => (by cases h), fun hreaches => ?_⟩
        have htwo : questionsOf resolver frame = 2 := by simp [questionsOf, hframe, howner]
        have hquiet : Quiet resolver log.length (log.length + 2) := by
          cases hcurrent : resolver.current found with
          | true => exact ((reaches_current hframe howner hcurrent).mp hreaches).2
          | false =>
            have hpassed : Passed resolver frame := Or.inr fun other hother => by
              rw [howner] at hother
              rw [← Option.some.inj hother]
              exact hcurrent
            have hfirst := ((reaches_passed hpassed).mp hreaches).1
            rwa [htwo] at hfirst
        rw [hquiet (log.length + 1) (by omega) (by omega)] at hpanic
        cases hpanic
      | @answered found hlookup howner hsecond =>
        have htwo : questionsOf resolver frame = 2 := by simp [questionsOf, hframe, howner]
        have hquiet : Quiet resolver log.length (log.length + 2) := by
          intro number hfirst hlast
          by_cases hnumber : number = log.length
          · rw [hnumber]
            exact hlookup
          · have hnext : number = log.length + 1 := by omega
            rw [hnext]
            exact hsecond
        rw [Fallible.bind_of_ok hresult]
        cases hcurrent : resolver.current found with
        | true =>
          rw [reaches_current hframe howner hcurrent]
          refine ⟨fun h => ⟨?_, hquiet⟩, ?_⟩
          · cases h
            rfl
          · rintro ⟨rfl, _⟩
            rfl
        | false =>
          have hpassed : Passed resolver frame := Or.inr fun other hother => by
            rw [howner] at hother
            rw [← Option.some.inj hother]
            exact hcurrent
          rw [reaches_passed hpassed, htwo]
          exact (ih _).trans ⟨fun h => ⟨hquiet, h⟩, And.right⟩

def innermostMapped (resolver : AddressOwnerResolver) (frames : List Nat) : Option OwnerToken :=
  frames.findSome? fun frame => if frame = 0 then none else resolver.owners frame

theorem reaches_innermostMapped {owner : OwnerToken} (h : Reaches resolver asked frames owner) :
    ∃ mapped, innermostMapped resolver frames = some mapped ∧
      (resolver.current mapped = true → mapped = owner) := by
  obtain ⟨before, _, _, rfl, hframe, howner, _, hbefore, -⟩ := h
  induction before with
  | nil =>
    refine ⟨owner, ?_, fun _ => rfl⟩
    simp [innermostMapped, hframe, howner]
  | cons first _ ih =>
    obtain ⟨mapped, hmapped, hcurrent⟩ :=
      ih fun passed hmem => hbefore passed (List.mem_cons_of_mem _ hmem)
    rcases hfirst : (if first = 0 then none else resolver.owners first) with _ | found
    · refine ⟨mapped, ?_, hcurrent⟩
      unfold innermostMapped at hmapped ⊢
      rw [List.cons_append, List.findSome?_cons, hfirst]
      exact hmapped
    · refine ⟨found, ?_, fun hfound => ?_⟩
      · unfold innermostMapped
        rw [List.cons_append, List.findSome?_cons, hfirst]
      · split at hfirst
        · cases hfirst
        next hnonzero =>
          rcases hbefore first List.mem_cons_self with hzero | hstale
          · exact absurd hzero hnonzero
          · rw [hstale found hfirst] at hfound
            cases hfound

theorem resolveFrames_confirmed {log after : List Answer} {owner : OwnerToken}
    (h : resolveFrames resolver frames log = (.ok (some owner), after)) :
    .current owner true ∈ after := by
  induction frames generalizing log with
  | nil => cases h
  | cons frame _ ih =>
    unfold resolveFrames at h
    split at h
    · exact ih h
    have hvalidated := validatedAddress_cases resolver frame log
    generalize hresult : validatedAddress resolver frame log = result at hvalidated
    cases hvalidated with
    | lookupPanicked | currentPanicked =>
      rw [Fallible.bind_of_error hresult] at h
      cases h
    | unmapped =>
      rw [Fallible.bind_of_ok hresult] at h
      exact ih h
    | @answered found =>
      rw [Fallible.bind_of_ok hresult] at h
      cases hcurrent : resolver.current found with
      | true =>
        rw [hcurrent] at h
        cases h
        exact List.mem_cons_self
      | false =>
        rw [hcurrent] at h
        exact ih h

def ScopeEvent.live? (log : List ScopeEvent) : ScopeEvent → Option ScopeFrame
  | .entered frame => if .dropped frame.id ∈ log then none else some frame
  | .dropped _ => none

def innermostLive (log : List ScopeEvent) : Option OwnerToken :=
  (log.findSome? (ScopeEvent.live? log)).map ScopeFrame.owner

/-- The stack holds the scopes that were entered and not dropped, in the order of entry. -/
structure Stacked (world : ScopeWorld) : Prop where
  live : world.stack.frames.reverse = world.log.filterMap (ScopeEvent.live? world.log)
  distinct : world.stack.frames.Pairwise fun frame other => frame.id ≠ other.id
  numbered : ∀ frame ∈ world.stack.frames, frame.id < world.stack.nextId
  issued : ∀ id ∈ world.guards, id < world.stack.nextId
  dropped : ∀ id, .dropped id ∈ world.log → id < world.stack.nextId

theorem eraseP_eq_filter {frames : List ScopeFrame}
    (h : frames.Pairwise fun frame other => frame.id ≠ other.id) (id : Nat) :
    frames.eraseP (fun frame => frame.id = id) = frames.filter fun frame => frame.id ≠ id := by
  induction frames with
  | nil => rfl
  | cons frame frames ih =>
    obtain ⟨hframe, hframes⟩ := List.pairwise_cons.mp h
    by_cases hid : frame.id = id
    · have hkept : frames.filter (fun other => other.id ≠ id) = frames := by
        refine List.filter_eq_self.mpr fun other hother => ?_
        have hne := hframe other hother
        simp only [ne_eq, decide_not, Bool.not_eq_eq_eq_not, Bool.not_true, decide_eq_false_iff_not]
        omega
      rw [List.eraseP_cons_of_pos (by simpa using hid), List.filter_cons_of_neg (by simpa using hid),
        hkept]
    · rw [List.eraseP_cons_of_neg (by simpa using hid), List.filter_cons_of_pos (by simpa using hid),
        ih hframes]

theorem Stacked.entered {world : ScopeWorld} (h : Stacked world) (owner : OwnerToken)
    (admitted : Bool) : Stacked (world.enterOwnerScope owner admitted) := by
  unfold ScopeWorld.enterOwnerScope ScopeStack.push
  cases admitted with
  | false => exact h
  | true =>
    by_cases hlast : world.stack.nextId + 1 = 2 ^ 64
    · rw [if_pos rfl, if_pos hlast]
      exact h
    · rw [if_pos rfl, if_neg hlast]
      dsimp only
      have hfresh : .dropped world.stack.nextId ∉ world.log := fun hmem =>
        Nat.lt_irrefl _ (h.dropped _ hmem)
      constructor
      · have hsame : ScopeEvent.live? (.entered ⟨world.stack.nextId, owner⟩ :: world.log) =
            ScopeEvent.live? world.log := by
          funext event
          cases event with
          | entered => simp [ScopeEvent.live?]
          | dropped => rfl
        rw [List.reverse_append, hsame, List.filterMap_cons, h.live]
        simp [ScopeEvent.live?, hfresh]
      · refine List.pairwise_append.mpr ⟨h.distinct, List.pairwise_singleton _ _, ?_⟩
        intro frame hframe other hother
        rw [List.mem_singleton.mp hother]
        have hlt := h.numbered frame hframe
        dsimp only
        omega
      · intro frame hframe
        rcases List.mem_append.mp hframe with hold | hnew
        · exact Nat.lt_succ_of_lt (h.numbered frame hold)
        · rw [List.mem_singleton.mp hnew]
          exact Nat.lt_succ_self _
      · intro id hid
        rcases List.mem_cons.mp hid with rfl | hold
        · exact Nat.lt_succ_self _
        · exact Nat.lt_succ_of_lt (h.issued id hold)
      · intro id hid
        rcases List.mem_cons.mp hid with hid | hold
        · cases hid
        · exact Nat.lt_succ_of_lt (h.dropped id hold)

theorem Stacked.drop {world : ScopeWorld} (h : Stacked world) {id : Nat} (hid : id ∈ world.guards) :
    Stacked ⟨world.stack.removeOwnerScope id, world.guards.erase id, .dropped id :: world.log⟩ where
  live := by
    have hdropped : ScopeEvent.live? (.dropped id :: world.log) = fun event =>
        (ScopeEvent.live? world.log event).filter fun frame => frame.id ≠ id := by
      funext event
      cases event with
      | dropped => rfl
      | entered frame =>
        by_cases hframe : frame.id = id
        · subst hframe
          by_cases hlog : .dropped frame.id ∈ world.log <;>
            simp [ScopeEvent.live?, Option.filter, hlog]
        · by_cases hlog : .dropped frame.id ∈ world.log <;>
            simp [ScopeEvent.live?, Option.filter, hframe, hlog]
    unfold ScopeStack.removeOwnerScope
    dsimp only
    rw [eraseP_eq_filter h.distinct, ← List.filter_reverse, h.live, List.filter_filterMap,
      List.filterMap_cons, hdropped]
    rfl
  distinct := h.distinct.sublist List.eraseP_sublist
  numbered frame hframe := h.numbered frame (List.eraseP_sublist.subset hframe)
  issued other hother := h.issued other (List.erase_subset hother)
  dropped other hother := by
    rcases List.mem_cons.mp hother with heq | hold
    · cases heq
      exact h.issued id hid
    · exact h.dropped other hold

theorem stacked_run {actions : List ScopeAction} {world : ScopeWorld}
    (hrun : runSteps ScopeWorld.step ScopeWorld.start actions = some world) : Stacked world := by
  refine runSteps_invariant (P := Stacked) ?_ hrun ⟨rfl, .nil, nofun, nofun, nofun⟩
  intro world action next hstep h
  cases action with
  | enter owner admitted =>
    cases hstep
    exact h.entered owner admitted
  | drop id =>
    have hfound : (if id ∈ world.guards then
        some ⟨world.stack.removeOwnerScope id, world.guards.erase id, .dropped id :: world.log⟩
        else none) = some next := hstep
    by_cases hid : id ∈ world.guards
    · rw [if_pos hid] at hfound
      cases hfound
      exact h.drop hid
    · rw [if_neg hid] at hfound
      cases hfound

theorem Stacked.innermost {world : ScopeWorld} (h : Stacked world) :
    world.stack.innermost = innermostLive world.log := by
  unfold ScopeStack.innermost innermostLive
  rw [← List.head?_reverse, h.live, List.head?_filterMap]

inductive Resolved (resolver : AddressOwnerResolver) (stack : ScopeStack)
    (capture : Option StackCapture) (owner : OwnerToken) : Prop
  | scope : stack.innermost = some owner → resolver.panics 0 = false →
      resolver.current owner = true → Resolved resolver stack capture owner
  | pastScope {stale : OwnerToken} {captured : StackCapture} : stack.innermost = some stale →
      resolver.panics 0 = false → resolver.current stale = false → capture = some captured →
      Reaches resolver 1 captured.frames owner → Resolved resolver stack capture owner
  | frame {captured : StackCapture} : stack.innermost = none → capture = some captured →
      Reaches resolver 0 captured.frames owner → Resolved resolver stack capture owner

section Calls

variable {scopes : Option ScopeStack} {stack : ScopeStack} {capture : Option StackCapture}
  {owner : OwnerToken}

theorem resolveStack_iff :
    (resolveStack resolver capture log).1 = .ok (some owner) ↔
      ∃ captured, capture = some captured ∧ Reaches resolver log.length captured.frames owner := by
  rcases capture with _ | captured
  · refine ⟨fun h => (by cases h), ?_⟩
    rintro ⟨captured, hcaptured, _⟩
    cases hcaptured
  · rw [resolveStack, resolveFrames_iff]
    refine ⟨fun h => ⟨captured, rfl, h⟩, ?_⟩
    rintro ⟨other, hother, h⟩
    cases hother
    exact h

theorem clean_resolveStack (resolver : AddressOwnerResolver) (capture : Option StackCapture) :
    Clean (resolveStack resolver capture) := by
  rcases capture with _ | captured
  · intro log value after hlog h
    cases (Prod.mk.inj h).1
  · exact clean_resolveFrames resolver captured.frames

variable {after : List Answer}

theorem resolveStack_confirmed (h : resolveStack resolver capture log = (.ok (some owner), after)) :
    .current owner true ∈ after := by
  rcases capture with _ | _
  · cases h
  · exact resolveFrames_confirmed h

inductive ActualPath (resolver : AddressOwnerResolver) (stack : ScopeStack)
    (capture : Option StackCapture) : Except Unit (Option OwnerToken) × List Answer → Prop
  | unscoped : stack.innermost = none →
      ActualPath resolver stack capture (resolveStack resolver capture [])
  | panicked {owner : OwnerToken} : stack.innermost = some owner → resolver.panics 0 = true →
      ActualPath resolver stack capture (.error (), [.panicked])
  | current {owner : OwnerToken} : stack.innermost = some owner → resolver.panics 0 = false →
      resolver.current owner = true →
      ActualPath resolver stack capture (.ok (some owner), [.current owner true])
  | stale {owner : OwnerToken} : stack.innermost = some owner → resolver.panics 0 = false →
      resolver.current owner = false →
      ActualPath resolver stack capture (resolveStack resolver capture [.current owner false])

theorem resolveActualInner_cases (resolver : AddressOwnerResolver) (stack : ScopeStack)
    (capture : Option StackCapture) :
    ActualPath resolver stack capture (resolveActualInner resolver (some stack) capture []) := by
  unfold resolveActualInner
  have hscope : currentScopedOwner (some stack) [] = (.ok stack.innermost, []) := rfl
  rw [Fallible.bind_of_ok hscope]
  rcases hinnermost : stack.innermost with _ | owner
  · exact .unscoped hinnermost
  · dsimp only
    unfold ownerIsCurrent
    cases hpanic : resolver.panics 0 with
    | true =>
      rw [Fallible.bind_of_error (ask_of_panic hpanic)]
      exact .panicked hinnermost hpanic
    | false =>
      rw [Fallible.bind_of_ok (ask_of_quiet hpanic)]
      cases hcurrent : resolver.current owner with
      | true => exact .current hinnermost hpanic hcurrent
      | false => exact .stale hinnermost hpanic hcurrent

theorem resolveActualInner_iff :
    (resolveActualInner resolver (some stack) capture []).1 = .ok (some owner) ↔
      Resolved resolver stack capture owner := by
  have hpath := resolveActualInner_cases resolver stack capture
  generalize resolveActualInner resolver (some stack) capture [] = outcome at hpath
  cases hpath with
  | unscoped hnone =>
    rw [resolveStack_iff]
    constructor
    · rintro ⟨captured, hcaptured, hreaches⟩
      exact .frame hnone hcaptured hreaches
    · intro h
      cases h with
      | scope hsome | pastScope hsome =>
        exact absurd (hnone.symm.trans hsome).symm (Option.some_ne_none _)
      | frame _ hcaptured hreaches => exact ⟨_, hcaptured, hreaches⟩
  | panicked hsome hpanic =>
    refine ⟨fun h => (by cases h), fun h => ?_⟩
    cases h with
    | scope _ hquiet | pastScope _ hquiet =>
      exact absurd (hquiet.symm.trans hpanic) Bool.false_ne_true
    | frame hnone => exact absurd (hsome.symm.trans hnone) (Option.some_ne_none _)
  | current hsome hquiet hcurrent =>
    constructor
    · intro h
      cases h
      exact .scope hsome hquiet hcurrent
    · intro h
      cases h with
      | scope hscope =>
        cases hsome.symm.trans hscope
        rfl
      | pastScope hscope _ hstale =>
        cases hsome.symm.trans hscope
        exact absurd (hstale.symm.trans hcurrent) Bool.false_ne_true
      | frame hnone => exact absurd (hsome.symm.trans hnone) (Option.some_ne_none _)
  | stale hsome hquiet hstale =>
    rw [resolveStack_iff]
    constructor
    · rintro ⟨captured, hcaptured, hreaches⟩
      exact .pastScope hsome hquiet hstale hcaptured hreaches
    · intro h
      cases h with
      | scope hscope _ hcurrent =>
        cases hsome.symm.trans hscope
        exact absurd (hstale.symm.trans hcurrent) Bool.false_ne_true
      | pastScope _ _ _ hcaptured hreaches => exact ⟨_, hcaptured, hreaches⟩
      | frame hnone => exact absurd (hsome.symm.trans hnone) (Option.some_ne_none _)

theorem clean_resolveActualInner (resolver : AddressOwnerResolver) (scopes : Option ScopeStack)
    (capture : Option StackCapture) : Clean (resolveActualInner resolver scopes capture) := by
  refine clean_bind ?_ fun found => ?_
  · rcases scopes with _ | _
    · exact clean_fail
    · exact clean_pure _
  · rcases found with _ | _
    · exact clean_resolveStack resolver capture
    · refine clean_bind (clean_ask (by simp) _) fun isCurrent => ?_
      cases isCurrent
      · exact clean_resolveStack resolver capture
      · exact clean_pure _

theorem clean_resolveRegisteredAddressInner (resolver : AddressOwnerResolver)
    (scopes : Option ScopeStack) (capture : Option StackCapture) (address : Nat) :
    Clean (resolveRegisteredAddressInner resolver scopes capture address) := by
  refine clean_bind (clean_resolveActualInner resolver scopes capture) fun actual => ?_
  rcases actual with _ | actual
  · exact clean_pure _
  · refine clean_bind (clean_validatedAddress resolver address) fun registered => ?_
    rcases registered with _ | registered <;> exact clean_pure _

theorem resolveActualInner_confirmed
    (h : resolveActualInner resolver (some stack) capture [] = (.ok (some owner), after)) :
    .current owner true ∈ after := by
  have hpath := resolveActualInner_cases resolver stack capture
  generalize hresult : resolveActualInner resolver (some stack) capture [] = outcome at hpath h
  cases hpath with
  | unscoped | stale => exact resolveStack_confirmed h
  | panicked => cases h
  | current =>
    cases h
    exact List.mem_cons_self

theorem contained_eq_some {result : Except Unit (Option OwnerToken)} :
    contained result = some owner ↔ result = .ok (some owner) := by
  rcases result with _ | _
  · exact ⟨fun h => (by cases h), fun h => (by cases h)⟩
  · exact ⟨fun h => congrArg _ h, fun h => (by cases h; rfl)⟩

theorem resolveActual_iff :
    (resolveActual resolver (some stack) capture).1 = some owner ↔
      Resolved resolver stack capture owner :=
  contained_eq_some.trans resolveActualInner_iff

theorem Clean.contained {x : Fallible (List Answer) Unit (Option OwnerToken)} (hclean : Clean x)
    (h : .panicked ∈ (x []).2) : Caller.contained (x []).1 = none := by
  rcases hresult : x [] with ⟨_ | found, after⟩
  · rfl
  · rw [hresult] at h
    exact absurd h (hclean [] found after nofun hresult)

theorem resolveRegisteredAddress_some {address : Nat}
    (h : (resolveRegisteredAddress resolver scopes capture address).1 = some owner) :
    resolver.owners address = some owner ∧ (resolveActual resolver scopes capture).1 = some owner := by
  have hok := contained_eq_some.mp h
  unfold resolveRegisteredAddressInner at hok
  rcases hactual : resolveActualInner resolver scopes capture [] with ⟨_ | actual, middle⟩
  · rw [Fallible.bind_of_error hactual] at hok
    cases hok
  rw [Fallible.bind_of_ok hactual] at hok
  rcases actual with _ | actual
  · cases hok
  dsimp only at hok
  have hvalidated := validatedAddress_cases resolver address middle
  generalize hresult : validatedAddress resolver address middle = result at hvalidated
  cases hvalidated with
  | lookupPanicked | currentPanicked =>
    rw [Fallible.bind_of_error hresult] at hok
    cases hok
  | unmapped =>
    rw [Fallible.bind_of_ok hresult] at hok
    cases hok
  | @answered registered _ howner =>
    rw [Fallible.bind_of_ok hresult] at hok
    cases hcurrent : resolver.current registered with
    | false =>
      rw [hcurrent] at hok
      cases hok
    | true =>
      rw [hcurrent] at hok
      by_cases hsame : actual = registered
      · rw [if_pos rfl] at hok
        dsimp only at hok
        rw [if_pos hsame] at hok
        cases hok
        refine ⟨hsame ▸ howner, ?_⟩
        unfold resolveActual
        rw [hactual]
        rfl
      · rw [if_pos rfl] at hok
        dsimp only at hok
        rw [if_neg hsame] at hok
        cases hok

end Calls

section Runs

/-- What callers are promised about the calls of a thread: an owner that is not current is never
passed over for one found deeper, and whatever is not confirmed names nobody. -/
structure Attributed (resolver : AddressOwnerResolver) (world : ScopeWorld) (available : Bool)
    (capture : Option StackCapture) : Prop where
  innermost : world.stack.innermost = innermostLive world.log
  staleScope : ∀ owner, innermostLive world.log = some owner → resolver.current owner = false →
    (resolveActual resolver (world.scopes available) capture).1 = none
  staleFrame : innermostLive world.log = none → ∀ captured, capture = some captured →
    ∀ owner, innermostMapped resolver captured.frames = some owner →
      resolver.current owner = false →
      (resolveActual resolver (world.scopes available) capture).1 = none
  confirmed : ∀ owner, (resolveActual resolver (world.scopes available) capture).1 = some owner →
    .current owner true ∈ (resolveActual resolver (world.scopes available) capture).2
  source : ∀ owner, (resolveActual resolver (world.scopes available) capture).1 = some owner →
    innermostLive world.log = some owner ∨ innermostLive world.log = none ∧
      ∃ captured, capture = some captured ∧ innermostMapped resolver captured.frames = some owner
  registered : ∀ address owner,
    (resolveRegisteredAddress resolver (world.scopes available) capture address).1 = some owner →
      resolver.owners address = some owner ∧
        (resolveActual resolver (world.scopes available) capture).1 = some owner
  panics : .panicked ∈ (resolveActual resolver (world.scopes available) capture).2 →
    (resolveActual resolver (world.scopes available) capture).1 = none
  registeredPanics : ∀ address,
    .panicked ∈ (resolveRegisteredAddress resolver (world.scopes available) capture address).2 →
      (resolveRegisteredAddress resolver (world.scopes available) capture address).1 = none

/-- An owner that is not current stands before a current one in the captured frames. -/
inductive CrossesGenerations (resolver : AddressOwnerResolver) (log : List ScopeEvent)
    (captured : StackCapture) : Prop
  | scope {stale deeper : OwnerToken} : innermostLive log = some stale →
      resolver.current stale = false → resolver.panics 0 = false →
      Reaches resolver 1 captured.frames deeper → CrossesGenerations resolver log captured
  | frame {stale deeper : OwnerToken} : innermostLive log = none →
      innermostMapped resolver captured.frames = some stale → resolver.current stale = false →
      Reaches resolver 0 captured.frames deeper → CrossesGenerations resolver log captured

variable {actions : List ScopeAction} {world : ScopeWorld} {available : Bool}
  {capture : Option StackCapture} {owner : OwnerToken}

theorem resolved_of_some
    (h : (resolveActual resolver (world.scopes available) capture).1 = some owner) :
    available = true ∧ Resolved resolver world.stack capture owner := by
  cases available with
  | false => cases h
  | true => exact ⟨rfl, resolveActual_iff.mp h⟩

/-- Attribution keeps its promise exactly where no frame behind a stale owner is current. -/
theorem ScopeWorld.attributed_iff
    (hrun : runSteps ScopeWorld.step ScopeWorld.start actions = some world) :
    Attributed resolver world available capture ↔
      ¬ (available = true ∧ ∃ captured, capture = some captured ∧
        CrossesGenerations resolver world.log captured) := by
  have hstack := stacked_run hrun
  constructor
  · rintro h ⟨rfl, captured, rfl, hcrosses⟩
    cases hcrosses with
    | scope hinnermost hstale hquiet hreaches =>
      have hscope := hstack.innermost.trans hinnermost
      have hresolved := resolveActual_iff.mpr
        (Resolved.pastScope hscope hquiet hstale rfl hreaches)
      have hnone := h.staleScope _ hinnermost hstale
      exact absurd (hresolved.symm.trans hnone) (Option.some_ne_none _)
    | frame hinnermost hmapped hstale hreaches =>
      have hscope := hstack.innermost.trans hinnermost
      have hresolved := resolveActual_iff.mpr (Resolved.frame hscope rfl hreaches)
      have hnone := h.staleFrame hinnermost captured rfl _ hmapped hstale
      exact absurd (hresolved.symm.trans hnone) (Option.some_ne_none _)
  · intro hkept
    constructor
    case innermost => exact hstack.innermost
    case staleScope =>
      intro stale hinnermost hstale
      refine Option.eq_none_iff_forall_ne_some.mpr fun found hfound => ?_
      obtain ⟨havailable, hresolved⟩ := resolved_of_some hfound
      cases hresolved with
      | scope hscope _ hcurrent =>
        cases hinnermost.symm.trans (hstack.innermost.symm.trans hscope)
        exact absurd (hstale.symm.trans hcurrent) Bool.false_ne_true
      | @pastScope _ captured _ hquiet _ hcaptured hreaches =>
        exact hkept ⟨havailable, captured, hcaptured, .scope hinnermost hstale hquiet hreaches⟩
      | frame hnone =>
        exact absurd (hinnermost.symm.trans (hstack.innermost.symm.trans hnone))
          (Option.some_ne_none _)
    case staleFrame =>
      intro hinnermost captured hcaptured stale hmapped hstale
      refine Option.eq_none_iff_forall_ne_some.mpr fun found hfound => ?_
      obtain ⟨havailable, hresolved⟩ := resolved_of_some hfound
      have hnone := hstack.innermost.trans hinnermost
      cases hresolved with
      | scope hscope | pastScope hscope =>
        exact absurd (hscope.symm.trans hnone) (Option.some_ne_none _)
      | frame _ hother hreaches =>
        cases hcaptured.symm.trans hother
        exact hkept ⟨havailable, captured, hcaptured, .frame hinnermost hmapped hstale hreaches⟩
    case confirmed =>
      intro found hfound
      cases available with
      | false => cases hfound
      | true =>
        have hok := contained_eq_some.mp hfound
        exact resolveActualInner_confirmed (Prod.ext hok rfl)
    case source =>
      intro found hfound
      obtain ⟨havailable, hresolved⟩ := resolved_of_some hfound
      cases hresolved with
      | scope hscope => exact Or.inl (hstack.innermost.symm.trans hscope)
      | @pastScope _ captured hscope hquiet hstale hcaptured hreaches =>
        exact absurd ⟨havailable, captured, hcaptured,
          .scope (hstack.innermost.symm.trans hscope) hstale hquiet hreaches⟩ hkept
      | @frame captured hscope hcaptured hreaches =>
        have hinnermost := hstack.innermost.symm.trans hscope
        obtain ⟨mapped, hmapped, hsame⟩ := reaches_innermostMapped hreaches
        cases hcurrent : resolver.current mapped with
        | true =>
          rw [hsame hcurrent] at hmapped
          exact Or.inr ⟨hinnermost, captured, hcaptured, hmapped⟩
        | false =>
          exact absurd ⟨havailable, captured, hcaptured,
            .frame hinnermost hmapped hcurrent hreaches⟩ hkept
    case registered => exact fun address found hfound => resolveRegisteredAddress_some hfound
    case panics => exact fun h => (clean_resolveActualInner _ _ _).contained h
    case registeredPanics =>
      exact fun address h => (clean_resolveRegisteredAddressInner _ _ _ address).contained h

def outerOwner : OwnerToken := ⟨1, 1⟩

def innerOwner : OwnerToken := ⟨2, 1⟩

/-- The code of the outer add-on is mapped at 16, that of the inner one at 32. -/
def twoAddons (innerCurrent : Bool) : AddressOwnerResolver where
  owners address :=
    if address = 16 then some outerOwner else if address = 32 then some innerOwner else none
  current owner := owner = outerOwner || (innerCurrent && owner = innerOwner)
  panics _ := false

def nestedCapture : StackCapture := ⟨[8, 32, 8, 16], 4⟩

theorem outOfOrder_attributed :
    ∃ world, runSteps ScopeWorld.step ScopeWorld.start
        [.enter outerOwner true, .enter innerOwner true, .drop 1] = some world ∧
      Attributed (twoAddons true) world true (some nestedCapture) := by
  have hrun : runSteps ScopeWorld.step ScopeWorld.start
      [.enter outerOwner true, .enter innerOwner true, .drop 1] = some _ := rfl
  refine ⟨_, hrun, (ScopeWorld.attributed_iff hrun).mpr ?_⟩
  rintro ⟨_, captured, _, hcrosses⟩
  cases hcrosses with
  | scope hinnermost hstale =>
    cases hinnermost
    cases hstale
  | frame hinnermost => cases hinnermost

/-- The inner generation is closed while its code is still on the stack: its calls count as calls of
the outer add-on, through the scope as through the frames. -/
theorem closed_generation_names_outer_owner :
    (twoAddons false).current innerOwner = false ∧
      (∃ world, runSteps ScopeWorld.step ScopeWorld.start
          [.enter outerOwner true, .enter innerOwner true] = some world ∧
        innermostLive world.log = some innerOwner ∧
        (resolveActual (twoAddons false) (world.scopes true) (some nestedCapture)).1 =
          some outerOwner) ∧
      innermostMapped (twoAddons false) nestedCapture.frames = some innerOwner ∧
      (resolveActual (twoAddons false) (ScopeWorld.start.scopes true) (some nestedCapture)).1 =
        some outerOwner :=
  ⟨rfl, ⟨_, rfl, rfl, rfl⟩, rfl, rfl⟩

end Runs

end Nexus.Caller
