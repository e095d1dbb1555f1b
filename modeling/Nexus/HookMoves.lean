import Nexus.InlineHooks

namespace Nexus.InlineHooks

open Relation

abbrev Detours : Type := Nat → Option Bool

/-- Undefined where the process would be unsafe: a second detour at a target, code written outside
a guard, an enabled detour destroyed. -/
def Detours.step (detours : Detours) : HookEvent → Option Detours
  | .created target _ =>
    if detours target = none then some (Function.update detours target (some false)) else none
  | .toggled target enabled succeeded covered =>
    if detours target = some (!enabled) ∧ target ∈ covered then
      some (if succeeded then Function.update detours target (some enabled) else detours)
    else none
  | .destroyed target =>
    if detours target = some false then some (Function.update detours target none) else none

def replay (events : List HookEvent) : Option Detours :=
  events.foldlM Detours.step fun _ => none

theorem replay_concat {events : List HookEvent} {detours : Detours}
    (h : replay events = some detours) (event : HookEvent) :
    replay (events ++ [event]) = detours.step event := by
  unfold replay at h ⊢
  rw [List.foldlM_append, h, Option.bind_eq_bind, Option.bind_some, List.foldlM_cons]
  simp

def HookEvent.created? : HookEvent → Option OwnerToken
  | .created _ owner => some owner
  | _ => none

def HookEntry.identity (hook : HookEntry) : OwnerToken × Nat := (hook.owner, hook.detour.trampoline)

namespace InlineHookService

def identity? (service : InlineHookService) (target : Nat) : Option (OwnerToken × Nat) :=
  (service.hooks.get? target).map HookEntry.identity

def detours (service : InlineHookService) : Detours := fun target =>
  (service.hooks.get? target).map (·.detour.enabled)

/-- The process was safe all along, and its detours are those of the registry. -/
structure Lawful (service : InlineHookService) : Prop where
  replayed : replay service.events = some service.detours
  closed : service.initialized = false → service.hooks.toList = []

end InlineHookService

inductive Change (allowed : OwnerToken → Prop) : InlineHookService → InlineHookService → Prop
  | toggled {service : InlineHookService} {target : Nat} {hook : HookEntry}
      (enable succeeded : Bool) (covered : List Nat) : service.hooks.get? target = some hook →
      allowed hook.owner → (hook.detour.enabled ≠ enable → target ∈ covered) →
      Change allowed service (service.toggled target hook enable succeeded covered)
  | removed {service : InlineHookService} {target : Nat} {hook : HookEntry} :
      service.hooks.get? target = some hook → allowed hook.owner → hook.detour.enabled = false →
      Change allowed service (service.removed target)

inductive Move (allowed : OwnerToken → Prop) : InlineHookService → InlineHookService → Prop
  | changed {service next : InlineHookService} : Change allowed service next →
      Move allowed service next
  | inserted {service : InlineHookService} {target : Nat} {owner : OwnerToken} (trampoline : Nat) :
      service.initialized = true → service.hooks.get? target = none →
      service.ownerAdmissionRetired owner = false → allowed owner →
      Move allowed service (service.inserted target owner trampoline)
  | opened {service : InlineHookService} : Move allowed service { service with initialized := true }
  | closed {service : InlineHookService} : service.hooks.toList = [] →
      Move allowed service { service with initialized := false }
  | retired {service : InlineHookService} (owner : OwnerToken) :
      Move allowed service (service.retireOwnerAdmission owner)

abbrev Changes (allowed : OwnerToken → Prop) := ReflTransGen (Change allowed)

abbrev Moves (allowed : OwnerToken → Prop) := ReflTransGen (Move allowed)

namespace InlineHookService

variable {service next : InlineHookService} {allowed : OwnerToken → Prop} {target : Nat}
  {hook : HookEntry} {enable succeeded : Bool} {covered : List Nat}

theorem hooks_toggled (other : Nat) :
    (service.toggled target hook enable succeeded covered).hooks.get? other =
      if other = target ∧ succeeded = true then
        some { hook with detour := { hook.detour with enabled := enable } }
      else service.hooks.get? other := by
  unfold toggled
  cases succeeded with
  | false => simp
  | true =>
    dsimp only
    rw [if_pos rfl, SortedMap.get?_put]
    simp

theorem hooks_removed (target other : Nat) :
    (service.removed target).hooks.get? other =
      if other = target then none else service.hooks.get? other := SortedMap.get?_erase ..

theorem hooks_inserted (target : Nat) (owner : OwnerToken) (trampoline other : Nat) :
    (service.inserted target owner trampoline).hooks.get? other =
      if other = target then some ⟨owner, ⟨trampoline, false⟩⟩ else service.hooks.get? other :=
  SortedMap.get?_put ..

theorem identity?_toggled (hget : service.hooks.get? target = some hook) (other : Nat) :
    (service.toggled target hook enable succeeded covered).identity? other =
      service.identity? other := by
  unfold identity?
  rw [hooks_toggled]
  split
  next h =>
    rw [h.1, hget]
    rfl
  next => rfl

theorem detours_toggled :
    (service.toggled target hook enable succeeded covered).detours =
      if succeeded then Function.update service.detours target (some enable)
      else service.detours := by
  funext other
  unfold detours
  rw [hooks_toggled]
  cases succeeded with
  | false => simp
  | true =>
    by_cases hother : other = target
    · simp [hother]
    · simp [hother, Function.update_of_ne]

theorem Lawful.change (h : service.Lawful) (hchange : Change allowed service next) :
    next.Lawful := by
  have hopen : ∀ {target hook}, service.hooks.get? target = some hook →
      service.initialized = true := by
    intro target hook hget
    refine eq_true_of_ne_false fun hclosed => ?_
    have hmem := SortedMap.get?_mem hget
    rw [h.closed hclosed] at hmem
    cases hmem
  cases hchange with
  | @toggled target hook enable succeeded _ hget _ hcovered =>
    refine ⟨?_, fun hclosed => absurd ((hopen hget).symm.trans hclosed) Bool.noConfusion⟩
    rw [detours_toggled]
    unfold InlineHookService.toggled
    dsimp only
    have hpresent : service.detours target = some hook.detour.enabled := by
      unfold detours
      rw [hget]
      rfl
    by_cases hsame : hook.detour.enabled = enable
    · rw [if_pos hsame, List.append_nil, h.replayed, ← hsame]
      cases succeeded with
      | false => rfl
      | true => rw [if_pos rfl, ← hpresent, Function.update_eq_self]
    · have hflip : hook.detour.enabled = !enable := Bool.eq_not_of_ne hsame
      rw [if_neg hsame, replay_concat h.replayed]
      exact if_pos ⟨hpresent.trans (congrArg some hflip), hcovered hsame⟩
  | @removed target _ hget _ hdisabled =>
    refine ⟨?_, fun hclosed => absurd ((hopen hget).symm.trans hclosed) Bool.noConfusion⟩
    have hpresent : service.detours target = some false := by
      unfold detours
      rw [hget, ← hdisabled]
      rfl
    refine (replay_concat h.replayed _).trans ((if_pos hpresent).trans (congrArg some ?_))
    funext other
    unfold detours
    rw [hooks_removed, Function.update_apply]
    split <;> rfl

theorem Lawful.move (h : service.Lawful) (hmove : Move allowed service next) : next.Lawful := by
  cases hmove with
  | changed hchange => exact h.change hchange
  | @inserted target _ _ hopen habsent =>
    refine ⟨?_, fun hclosed => absurd (hopen.symm.trans hclosed) Bool.noConfusion⟩
    have hfree : service.detours target = none := by
      unfold detours
      rw [habsent]
      rfl
    refine (replay_concat h.replayed _).trans ((if_pos hfree).trans (congrArg some ?_))
    funext other
    unfold detours
    rw [hooks_inserted, Function.update_apply]
    split <;> rfl
  | opened => exact ⟨h.replayed, fun hclosed => Bool.noConfusion hclosed⟩
  | closed hempty => exact ⟨h.replayed, fun _ => hempty⟩
  | retired => exact ⟨h.replayed, h.closed⟩

theorem Lawful.moves (h : service.Lawful) (hmoves : Moves allowed service next) :
    next.Lawful := by
  induction hmoves with
  | refl => exact h
  | tail _ hmove ih => exact ih.move hmove

theorem lawful_new : new.Lawful := ⟨rfl, fun _ => rfl⟩

theorem Change.others (hchange : Change allowed service next) (target : Nat) (hook : HookEntry)
    (hother : ¬ allowed hook.owner) :
    next.hooks.get? target = some hook ↔ service.hooks.get? target = some hook := by
  cases hchange with
  | @toggled _ _ _ _ _ hget hallowed =>
    rw [hooks_toggled]
    split
    next h =>
      rw [h.1, hget]
      refine iff_of_false ?_ ?_ <;> rintro ⟨⟩ <;> exact hother hallowed
    next => exact Iff.rfl
  | @removed _ _ hget hallowed =>
    rw [hooks_removed]
    split
    next h =>
      rw [h, hget]
      refine iff_of_false nofun ?_
      rintro ⟨⟩
      exact hother hallowed
    next => exact Iff.rfl

theorem Move.others (hmove : Move allowed service next) (target : Nat) (hook : HookEntry)
    (hother : ¬ allowed hook.owner) :
    next.hooks.get? target = some hook ↔ service.hooks.get? target = some hook := by
  cases hmove with
  | changed hchange => exact Change.others hchange target hook hother
  | @inserted _ _ _ _ habsent _ hallowed =>
    rw [hooks_inserted]
    split
    next h =>
      rw [h, habsent]
      refine iff_of_false ?_ nofun
      rintro ⟨⟩
      exact hother hallowed
    next => exact Iff.rfl
  | opened | closed | retired => exact Iff.rfl

theorem others_of_moves (hmoves : Moves allowed service next) (target : Nat) (hook : HookEntry)
    (hother : ¬ allowed hook.owner) :
    next.hooks.get? target = some hook ↔ service.hooks.get? target = some hook := by
  induction hmoves with
  | refl => exact Iff.rfl
  | tail _ hmove ih => exact (Move.others hmove target hook hother).trans ih

/-- The hooks of `owner` and of the generations before it are no longer admitted. -/
def Retired (service : InlineHookService) (owner : OwnerToken) : Prop :=
  ∃ generation, service.retiredGenerations.get? owner.signature = some generation ∧
    owner.generation ≤ generation

theorem retired_retireOwnerAdmission (service : InlineHookService) (owner : OwnerToken) :
    (service.retireOwnerAdmission owner).Retired owner := by
  unfold Retired retireOwnerAdmission
  dsimp only
  rw [SortedMap.get?_put_self]
  refine ⟨_, rfl, ?_⟩
  split
  · exact Nat.le_max_right ..
  · exact Nat.le_refl _

variable {owner : OwnerToken}

theorem Retired.retire (h : service.Retired owner) (other : OwnerToken) :
    (service.retireOwnerAdmission other).Retired owner := by
  obtain ⟨generation, hget, hle⟩ := h
  unfold Retired retireOwnerAdmission
  dsimp only
  rw [SortedMap.get?_put]
  by_cases hsame : owner.signature = other.signature
  · rw [if_pos hsame, ← hsame, hget]
    exact ⟨_, rfl, Nat.le_trans hle (Nat.le_max_left ..)⟩
  · rw [if_neg hsame]
    exact ⟨generation, hget, hle⟩

theorem Retired.refused {owner other : OwnerToken} (h : service.Retired owner)
    (hsignature : other.signature = owner.signature) (hle : other.generation ≤ owner.generation) :
    service.ownerAdmissionRetired other = true := by
  obtain ⟨generation, hget, hbound⟩ := h
  unfold ownerAdmissionRetired
  rw [hsignature, hget]
  exact decide_eq_true (Nat.le_trans hle hbound)

theorem Change.registry (hchange : Change allowed service next) :
    next.initialized = service.initialized ∧
      next.retiredGenerations = service.retiredGenerations := by
  cases hchange <;> exact ⟨rfl, rfl⟩

theorem Retired.moves (h : service.Retired owner) (hmoves : Moves allowed service next) :
    next.Retired owner := by
  induction hmoves with
  | refl => exact h
  | tail _ hmove ih =>
    cases hmove with
    | changed hchange =>
      obtain ⟨generation, hget, hle⟩ := ih
      exact ⟨generation, (Change.registry hchange).2 ▸ hget, hle⟩
    | inserted | opened | closed => exact ih
    | retired other => exact ih.retire other

/-- Whether `other` is the add-on of `owner`, in its generation or an earlier one. -/
def IsRetiredBy (owner other : OwnerToken) : Prop :=
  other.signature = owner.signature ∧ other.generation ≤ owner.generation

def CreatesNone (owner : OwnerToken) (events : List HookEvent) : Prop :=
  ∀ event ∈ events, ∀ other, event.created? = some other → ¬ IsRetiredBy owner other

theorem Change.events (hchange : Change allowed service next) :
    ∃ events, next.events = service.events ++ events ∧
      ∀ event ∈ events, event.created? = none := by
  cases hchange with
  | @toggled =>
    refine ⟨_, rfl, fun event hevent => ?_⟩
    split at hevent
    · cases hevent
    · rw [List.mem_singleton.mp hevent]
      rfl
  | removed =>
    refine ⟨_, rfl, fun event hevent => ?_⟩
    rw [List.mem_singleton.mp hevent]
    rfl

structure Barred (owner : OwnerToken) (service next : InlineHookService) : Prop where
  events : ∃ events, next.events = service.events ++ events ∧ CreatesNone owner events
  absent : ∀ other, IsRetiredBy owner other →
    (∀ target hook, service.hooks.get? target = some hook → hook.owner ≠ other) →
    ∀ target hook, next.hooks.get? target = some hook → hook.owner ≠ other

theorem Barred.trans {mid : InlineHookService} (h : Barred owner service mid)
    (hrest : Barred owner mid next) : Barred owner service next := by
  obtain ⟨first, hfirst, hnone⟩ := h.events
  obtain ⟨second, hsecond, hrestNone⟩ := hrest.events
  refine ⟨⟨first ++ second, ?_, fun event hevent => ?_⟩, fun other hby hnone =>
    hrest.absent other hby (h.absent other hby hnone)⟩
  · rw [hsecond, hfirst, List.append_assoc]
  · exact (List.mem_append.mp hevent).elim (hnone event) (hrestNone event)

theorem Barred.refl (owner : OwnerToken) (service : InlineHookService) :
    Barred owner service service :=
  ⟨⟨[], (List.append_nil _).symm, nofun⟩, fun _ _ h => h⟩

theorem Retired.barred_move (h : service.Retired owner) (hmove : Move allowed service next) :
    Barred owner service next := by
  cases hmove with
  | changed hchange =>
    obtain ⟨events, hevents, hnone⟩ := Change.events hchange
    refine ⟨⟨events, hevents, fun event hevent other hcreated =>
      absurd ((hnone event hevent).symm.trans hcreated) nofun⟩, fun other _ habsent target hook hget =>
      ?_⟩
    cases hchange with
    | @toggled changed found _ _ _ hfound =>
      rw [hooks_toggled] at hget
      split at hget
      next =>
        cases hget
        exact habsent changed found hfound
      next => exact habsent target hook hget
    | removed =>
      rw [hooks_removed] at hget
      split at hget
      next => cases hget
      next => exact habsent target hook hget
  | @inserted _ created _ _ _ hadmitted =>
    have hlater : ¬ IsRetiredBy owner created := fun hby =>
      absurd (hadmitted.symm.trans (h.refused hby.1 hby.2)) Bool.noConfusion
    refine ⟨⟨_, rfl, fun event hevent other hcreated => ?_⟩, fun other hby habsent place hook hget =>
      ?_⟩
    · rw [List.mem_singleton.mp hevent] at hcreated
      cases hcreated
      exact hlater
    · rw [hooks_inserted] at hget
      split at hget
      next =>
        cases hget
        rintro rfl
        exact hlater hby
      next => exact habsent place hook hget
  | opened | closed | retired => exact ⟨⟨[], (List.append_nil _).symm, nofun⟩, fun _ _ h => h⟩

theorem Retired.barred (h : service.Retired owner) (hmoves : Moves allowed service next) :
    Barred owner service next := by
  induction hmoves with
  | refl => exact .refl owner service
  | tail hmoves hmove ih => exact ih.trans ((h.moves hmoves).barred_move hmove)

end InlineHookService

end Nexus.InlineHooks
