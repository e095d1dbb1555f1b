import Nexus.SubclassRuns

namespace Nexus.WindowInput

section Stages

variable (answers : MessageAnswers) (during : Meanwhile (SubclassWorld → SubclassWorld))

/-- The stages of a target in order: the raw callbacks, the capture of the overlay, the input binds,
the shutdown and the messages of the game. -/
def targetStages (target : Nat) : List (Stage SubclassWorld WindowMessage) :=
  [fun message world => (routeSafely (answers.beforeUi message) message, during.beforeUi world),
    fun message world =>
      let world := during.enqueued world
      (if (world.targets target).shouldConsume message.message then none else some message,
        during.captured world),
    fun message world => (routeSafely (answers.afterUi message) message, during.afterUi world),
    fun message world => (some message, during.shutDown world),
    fun message world =>
      (some ((answers.redirectGameOnly message).getD message), during.redirected world)]

def stagesBegin (entry : SubclassEntry) (message : WindowMessage) (world : SubclassWorld) :
    Option SubclassWorld :=
  let world := during.found world
  if message.message = WM_NCDESTROY then none
  else if !(world.alive entry.target && (world.targets entry.target).active) then none
  else
    let (unleased, world) := isUnleased answers during entry world
    if unleased then none
    else if world.routes entry.target message.window then some world
    else none

end Stages

variable {answers : MessageAnswers} {during : Meanwhile (SubclassWorld → SubclassWorld)}
  {entry : SubclassEntry} {message : WindowMessage} {world : SubclassWorld}

def Reply.Forwards (answers : MessageAnswers) (entry : SubclassEntry) (message : WindowMessage)
    (reply : Reply) : Prop :=
  reply.calls = [(.predecessor entry.original, message)] ∧ reply.result = answers.predecessor

theorem forwards_callOriginal :
    (callOriginal answers during entry message world).Forwards answers entry message := ⟨rfl, rfl⟩

theorem forwards_passThrough {target : Nat} :
    (passThrough answers during entry target message world).Forwards answers entry message := by
  unfold passThrough
  split <;> exact forwards_callOriginal

theorem route_eq (target : Nat) : route answers during entry target message world =
    match runStages (SubclassWorld.routes target message.window)
      (targetStages answers during target) message world with
    | (.passed forwarded, world) => callOriginal answers during entry forwarded world
    | (.kept, world) => ⟨[], 0, world⟩
    | (.stopped, world) => passThrough answers during entry target message world := by
  unfold route targetStages
  simp only [runStages]
  cases (during.beforeUi world).routes target message.window with
  | false => rfl
  | true =>
    cases routeSafely (answers.beforeUi message) message with
    | none => rfl
    | some routed =>
      generalize during.enqueued (during.beforeUi world) = enqueued
      dsimp only
      cases (during.captured enqueued).routes target message.window with
      | false => rfl
      | true =>
        cases (enqueued.targets target).shouldConsume routed.message with
        | true => rfl
        | false =>
          generalize during.afterUi (during.captured enqueued) = handled
          simp only [Bool.false_eq_true, if_false]
          cases handled.routes target message.window with
          | false => rfl
          | true =>
            cases routeSafely (answers.afterUi routed) routed with
            | none => rfl
            | some =>
              generalize during.shutDown handled = shut
              dsimp only
              cases shut.routes target message.window with
              | false => rfl
              | true => cases (during.redirected shut).routes target message.window <;> rfl

theorem overlayWndProc_begins {start : SubclassWorld}
    (hentry : world.registry message.window = some entry)
    (hstart : stagesBegin answers during entry message world = some start) :
    overlayWndProc answers during message world =
      route answers during entry entry.target message start := by
  unfold stagesBegin at hstart
  unfold overlayWndProc
  rw [hentry]
  dsimp only at hstart ⊢
  split at hstart
  next => cases hstart
  next hkept =>
    rw [if_neg hkept]
    split at hstart
    next => cases hstart
    next hactive =>
      rw [if_neg hactive]
      split at hstart
      next => cases hstart
      next hleased =>
        rw [if_neg hleased]
        split at hstart
        next hroutes =>
          cases hstart
          rw [if_pos hroutes]
        next => cases hstart

theorem forwards_of_not_begins (hentry : world.registry message.window = some entry)
    (hstart : stagesBegin answers during entry message world = none) :
    (overlayWndProc answers during message world).Forwards answers entry message := by
  unfold stagesBegin at hstart
  unfold overlayWndProc
  rw [hentry]
  dsimp only at hstart ⊢
  split
  · exact ⟨rfl, rfl⟩
  next hkept =>
    rw [if_neg hkept] at hstart
    split
    · exact forwards_callOriginal
    next hactive =>
      rw [if_neg hactive] at hstart
      split
      · exact forwards_callOriginal
      next hleased =>
        rw [if_neg hleased] at hstart
        split
        next hroutes =>
          rw [if_pos hroutes] at hstart
          cases hstart
        next => exact forwards_callOriginal

structure Delivers (answers : MessageAnswers) (during : Meanwhile (SubclassWorld → SubclassWorld))
    (entry : SubclassEntry) (message : WindowMessage) (world : SubclassWorld) (reply : Reply) :
    Prop where
  once : (∃ forwarded, reply.Forwards answers entry forwarded) ∨
    reply.calls = [] ∧ reply.result = 0
  /-- A message is withheld only where a stage kept it and the target still routes. -/
  withheld : reply.calls = [] → ∃ start after,
    stagesBegin answers during entry message world = some start ∧
    EndsAt (SubclassWorld.routes entry.target message.window)
      (targetStages answers during entry.target) message start none after ∧
    after.routes entry.target message.window = true
  unrouted : stagesBegin answers during entry message world = none →
    reply.Forwards answers entry message
  /-- Whatever the last stage answered, the message goes on as it came in. -/
  stopped : ∀ {start answer after}, stagesBegin answers during entry message world = some start →
    EndsAt (SubclassWorld.routes entry.target message.window)
      (targetStages answers during entry.target) message start answer after →
    after.routes entry.target message.window = false → reply.Forwards answers entry message
  passed : ∀ {start forwarded after},
    stagesBegin answers during entry message world = some start →
    PassesStages (SubclassWorld.routes entry.target message.window)
      (targetStages answers during entry.target) message start forwarded after →
    reply.Forwards answers entry forwarded

theorem delivers_overlayWndProc (hentry : world.registry message.window = some entry) :
    Delivers answers during entry message world (overlayWndProc answers during message world) := by
  have hstopped : ∀ {start answer after},
      stagesBegin answers during entry message world = some start →
      EndsAt (SubclassWorld.routes entry.target message.window)
        (targetStages answers during entry.target) message start answer after →
      after.routes entry.target message.window = false →
      (overlayWndProc answers during message world).Forwards answers entry message := by
    intro start answer after hstart hends hshut
    rw [overlayWndProc_begins hentry hstart, route_eq, hends.run (.inr hshut), hshut]
    exact forwards_passThrough
  have hpassed : ∀ {start forwarded after},
      stagesBegin answers during entry message world = some start →
      PassesStages (SubclassWorld.routes entry.target message.window)
        (targetStages answers during entry.target) message start forwarded after →
      (overlayWndProc answers during message world).Forwards answers entry forwarded := by
    intro start forwarded after hstart hpasses
    have hrun := hpasses.run []
    rw [List.append_nil] at hrun
    rw [overlayWndProc_begins hentry hstart, route_eq, hrun]
    exact forwards_callOriginal
  have hcalls : ∀ {forwarded},
      (overlayWndProc answers during message world).Forwards answers entry forwarded →
      (overlayWndProc answers during message world).calls ≠ [] := by
    intro forwarded hforwards hnone
    cases hforwards.1.symm.trans hnone
  cases hstart : stagesBegin answers during entry message world with
  | none =>
    have hforwards := forwards_of_not_begins hentry hstart
    exact ⟨.inl ⟨message, hforwards⟩, fun hnone => absurd hnone (hcalls hforwards),
      fun _ => hforwards, hstopped, hpassed⟩
  | some start =>
    have hnotNone : stagesBegin answers during entry message world = none →
        (overlayWndProc answers during message world).Forwards answers entry message := by
      intro hnone
      cases hstart.symm.trans hnone
    rcases stages_end (SubclassWorld.routes entry.target message.window)
      (targetStages answers during entry.target) message start with
      ⟨after, hends, hopen⟩ | ⟨answer, after, hends, hshut⟩ | ⟨forwarded, after, hpasses⟩
    · have hreply : overlayWndProc answers during message world = ⟨[], 0, after⟩ := by
        rw [overlayWndProc_begins hentry hstart, route_eq, hends.run (.inl rfl), hopen]
        rfl
      refine ⟨.inr ?_, fun _ => ⟨start, after, hstart, hends, hopen⟩, hnotNone, hstopped, hpassed⟩
      rw [hreply]
      exact ⟨rfl, rfl⟩
    · have hforwards := hstopped hstart hends hshut
      exact ⟨.inl ⟨message, hforwards⟩, fun hnone => absurd hnone (hcalls hforwards), hnotNone,
        hstopped, hpassed⟩
    · have hforwards := hpassed hstart hpasses
      exact ⟨.inl ⟨forwarded, hforwards⟩, fun hnone => absurd hnone (hcalls hforwards), hnotNone,
        hstopped, hpassed⟩

/-- A message of a window with an entry reaches the saved predecessor once, or a stage keeps it. In
every run the leases of a registered entry are its handles, and the predecessor is written back, and
the entry taken out, only where ours is the procedure of the window or the window is destroyed. -/
theorem overlay_forwards_once :
    (∀ (answers : MessageAnswers) (during : Meanwhile (SubclassWorld → SubclassWorld))
      (message : WindowMessage) (world : SubclassWorld),
      match world.registry message.window with
      | none => overlayWndProc answers during message world =
          ⟨[(.systemDefault, message)], answers.systemDefault, world⟩
      | some entry => Delivers answers during entry message world
          (overlayWndProc answers during message world)) ∧
    ∀ calls : List SubclassCall,
      let world := runCalls calls .new
      (∀ hwnd entry, world.registry hwnd = some entry →
        entry.hwnd = hwnd ∧ world.leases entry = world.handles.count entry) ∧
      (∀ hwnd, world.registry hwnd = registeredIn hwnd world.log ∧
        world.windows hwnd = windowsIn world.log hwnd) ∧
      EachEvent InOrder world.log ∧
      ∀ hwnd entry added earlier, world.log = added ++ earlier →
        registeredIn hwnd earlier = some entry → .restored entry true ∉ added →
        .destroyed entry ∉ added → world.registry hwnd = some entry := by
  refine ⟨fun answers during message world => ?_, fun calls => ?_⟩
  · split
    next hnone =>
      unfold overlayWndProc
      rw [hnone]
    next hentry => exact delivers_overlayWndProc hentry
  · have hsound := runCalls_sound calls
    refine ⟨fun hwnd entry hentry => ⟨hsound.hwnd hentry, hsound.leases hentry⟩,
      fun hwnd => ⟨hsound.registry hwnd, hsound.windows hwnd⟩, hsound.order, ?_⟩
    intro hwnd entry added earlier hlog hregistered hrestored hdestroyed
    have horder := hsound.order
    rw [hlog] at horder
    rw [hsound.registry, hlog]
    exact registeredIn_stays horder hregistered hrestored hdestroyed

def quietAnswers : MessageAnswers :=
  ⟨fun message => some (.continue message), fun message => some (.continue message), some, 0, 1,
    true⟩

def quiet {α : Type} : Meanwhile (List α) := ⟨[], [], [], [], [], [], [], [], [], []⟩

/-- The target becomes inactive between an installation and a message, and the handle outlives the
entry. -/
def staleHandle : List SubclassCall :=
  let windows : BitVec 64 → Option WindowProcedure := fun _ => some (.other 16)
  let ours : BitVec 64 → Option WindowProcedure := fun _ => some .overlay
  [.others windows (fun _ => ⟨true, true, false, false, 5⟩) (fun _ => true),
    .install 5 7 0 ⟨true, 0, 0⟩ [],
    .others ours (fun _ => ⟨false, false, false, false, 5⟩) (fun _ => true),
    .message ⟨5, 0, 0, 0⟩ quietAnswers quiet,
    .drop ⟨0, 5, 7, .other 16, 0⟩]

/-- A window without an entry is left to the system, whose answer need not be zero, and an entry
that was taken out is no longer counted. -/
theorem calls_systemDefault_and_stale_lease :
    (¬∀ (answers : MessageAnswers) (during : Meanwhile (SubclassWorld → SubclassWorld))
      (message : WindowMessage) (world : SubclassWorld),
      (∃ procedure forwarded, (overlayWndProc answers during message world).calls =
        [(.predecessor procedure, forwarded)]) ∨
      (overlayWndProc answers during message world).calls = [] ∧
        (overlayWndProc answers during message world).result = 0) ∧
    ¬∀ (calls : List SubclassCall) (entry : SubclassEntry),
      (runCalls calls .new).leases entry = (runCalls calls .new).handles.count entry := by
  constructor
  · intro h
    rcases h quietAnswers ⟨id, id, id, id, id, id, id, id, id, id⟩ ⟨5, 0, 0, 0⟩ .new with
      ⟨procedure, forwarded, hcalls⟩ | ⟨hcalls, _⟩
    · cases hcalls
    · cases hcalls
  · intro h
    exact absurd (h staleHandle ⟨0, 5, 7, .other 16, 0⟩) (by decide)

end Nexus.WindowInput
