import Nexus.HookMoves

namespace Nexus.InlineHooks

open Relation

namespace InlineHookService

variable {service next mid : InlineHookService} {allowed : OwnerToken → Prop} {target : Nat}

theorem mem_targetsOf {p : HookEntry → Bool} :
    target ∈ service.targetsOf p ↔
      ∃ hook, service.hooks.get? target = some hook ∧ p hook = true := by
  unfold targetsOf
  constructor
  · intro h
    obtain ⟨⟨_, hook⟩, hmem, rfl⟩ := List.mem_map.mp h
    obtain ⟨hmem, hp⟩ := List.mem_filter.mp hmem
    exact ⟨hook, SortedMap.get?_of_mem hmem, hp⟩
  · rintro ⟨hook, hget, hp⟩
    exact List.mem_map.mpr ⟨(target, hook), List.mem_filter.mpr ⟨SortedMap.get?_mem hget, hp⟩, rfl⟩

theorem nodup_targetsOf (p : HookEntry → Bool) : (service.targetsOf p).Nodup :=
  (service.hooks.sorted.imp fun h => Nat.ne_of_lt h).sublist (List.filter_sublist.map Prod.fst)

theorem hooks_eq_nil (h : ∀ target, service.hooks.get? target = none) :
    service.hooks.toList = [] := by
  cases hlist : service.hooks.toList with
  | nil => rfl
  | cons item =>
    have hmem : (item.1, item.2) ∈ service.hooks.toList := hlist ▸ List.mem_cons_self
    exact absurd ((SortedMap.get?_of_mem hmem).symm.trans (h item.1)) nofun

theorem countOwner_eq_zero {owner : OwnerToken} :
    service.countOwner owner = 0 ↔
      ∀ target hook, service.hooks.get? target = some hook → hook.owner ≠ owner := by
  unfold countOwner
  rw [List.countP_eq_zero]
  constructor
  · intro h target hook hget hsame
    exact h hook (SortedMap.mem_values_iff.mpr ⟨target, hget⟩) (decide_eq_true hsame)
  · intro h hook hmem hsame
    obtain ⟨target, hget⟩ := SortedMap.mem_values_iff.mp hmem
    exact h target hook hget (of_decide_eq_true hsame)

variable {hook : HookEntry}

theorem countOwner_of_get? (hget : service.hooks.get? target = some hook) (owner : OwnerToken) :
    service.countOwner owner = (service.hooks.erase target).values.countP (fun hook =>
      decide (hook.owner = owner)) + if hook.owner = owner then 1 else 0 := by
  have hperm : service.hooks.values.Perm (hook :: (service.hooks.erase target).values) :=
    (SortedMap.perm_erase hget).map Prod.snd
  unfold countOwner
  rw [hperm.countP_eq, List.countP_cons]
  simp

theorem countOwner_toggled {enable succeeded : Bool} {covered : List Nat}
    (hget : service.hooks.get? target = some hook) (owner : OwnerToken) :
    (service.toggled target hook enable succeeded covered).countOwner owner =
      service.countOwner owner := by
  cases succeeded with
  | false => rfl
  | true =>
    rw [countOwner_of_get? hget owner]
    unfold countOwner toggled
    dsimp only
    rw [if_pos rfl, (SortedMap.perm_values_put ..).countP_eq, List.countP_cons]
    simp

theorem countOwner_removed_le (hget : service.hooks.get? target = some hook) (owner : OwnerToken) :
    (service.removed target).countOwner owner ≤ service.countOwner owner := by
  rw [countOwner_of_get? hget owner]
  exact Nat.le_add_right ..

theorem countOwner_le_of_changes (hchanges : Changes allowed service next) (owner : OwnerToken) :
    next.countOwner owner ≤ service.countOwner owner := by
  induction hchanges with
  | refl => exact Nat.le_refl _
  | tail _ hchange ih =>
    refine Nat.le_trans ?_ ih
    cases hchange with
    | toggled _ _ _ hget => exact Nat.le_of_eq (countOwner_toggled hget owner)
    | removed hget => exact countOwner_removed_le hget owner

theorem initialized_of_changes (hchanges : Changes allowed service next) :
    next.initialized = service.initialized := by
  induction hchanges with
  | refl => rfl
  | tail _ hchange ih => exact (Change.registry hchange).1.trans ih

theorem moves_of_changes (hchanges : Changes allowed service next) : Moves allowed service next :=
  ReflTransGen.mono (fun _ _ hchange => Move.changed hchange) _ _ hchanges

/-- Exactly the hooks whose detours were not destroyed are still registered. -/
def Accounted (service next : InlineHookService) : Prop :=
  ∃ events, next.events = service.events ++ events ∧ ∀ target, next.identity? target =
    if .destroyed target ∈ events then none else service.identity? target

theorem accounted_of_changes (hchanges : Changes allowed service next) :
    Accounted service next := by
  induction hchanges with
  | refl => exact ⟨[], (List.append_nil _).symm, fun target => by simp⟩
  | tail _ hchange ih =>
    obtain ⟨_, hevents, hidentity⟩ := ih
    cases hchange with
    | @toggled _ _ _ _ _ hget =>
      refine ⟨_, (congrArg (· ++ _) hevents).trans (List.append_assoc ..), fun target => ?_⟩
      rw [identity?_toggled hget, hidentity]
      split <;> simp [*]
    | @removed changed =>
      refine ⟨_, (congrArg (· ++ _) hevents).trans (List.append_assoc ..), fun target => ?_⟩
      have hstep := hidentity target
      unfold identity? at hstep ⊢
      rw [hooks_removed]
      by_cases htarget : target = changed
      · simp [htarget]
      · simp [htarget, hstep]

end InlineHookService

namespace Process

variable {process : Process} {service : InlineHookService} {allowed : OwnerToken → Prop}

open InlineHookService

theorem collectKeys_cases (allocation : Allocation) (targets : List Nat) :
    process.collectKeys allocation targets service = (.ok targets, service) ∨
      ∃ status, process.collectKeys allocation targets service = (.error (.error status), service) := by
  unfold collectKeys
  split
  · exact Or.inl rfl
  · exact Or.inr ⟨_, rfl⟩

theorem acquireGuard_cases (targets : List Nat) :
    process.acquireGuard targets service = (.ok targets, service) ∨
      ∃ fault, process.acquireGuard targets service = (.error fault, service) := by
  unfold acquireGuard
  rcases process.acquire with ⟨_ | _⟩ | _
  · exact Or.inr ⟨_, rfl⟩
  · exact Or.inl rfl
  · exact Or.inr ⟨_, rfl⟩

theorem guardFor_cases (targets : List Nat) :
    process.guardFor targets service = (.ok targets, service) ∨
      ∃ fault, process.guardFor targets service = (.error fault, service) := by
  unfold guardFor
  split
  next hempty =>
    rw [hempty]
    exact Or.inl rfl
  next => exact acquireGuard_cases targets

theorem retireEntry_cases (target : Nat) :
    process.retireEntry target service = (.ok (), service.removed target) ∨
      process.retireEntry target service = (.error .unwound, service.removed target) := by
  unfold retireEntry
  split
  · exact Or.inl rfl
  · exact Or.inr rfl

theorem toggleDetour_cases (guard : List Nat) (target : Nat) (hook : HookEntry) (enable : Bool) :
    process.toggleDetour guard target hook enable service =
        (.ok (), service.toggled target hook enable true guard) ∨
      ∃ fault, process.toggleDetour guard target hook enable service =
        (.error fault, service.toggled target hook enable false guard) := by
  unfold toggleDetour
  split
  · exact Or.inl rfl
  · exact Or.inr ⟨_, rfl⟩
  · exact Or.inr ⟨_, rfl⟩

structure Toggles (allowed : OwnerToken → Prop) (enable : Bool) (targets : List Nat)
    (service : InlineHookService) (result : Except (Fault MinHookStatus) Unit × InlineHookService) :
    Prop where
  changes : Changes allowed service result.2
  identity : ∀ target, result.2.identity? target = service.identity? target
  count : ∀ owner, result.2.countOwner owner = service.countOwner owner
  stays : ∀ target, (∀ hook, service.hooks.get? target = some hook → hook.detour.enabled = enable) →
    ∀ hook, result.2.hooks.get? target = some hook → hook.detour.enabled = enable
  done : result.1 = .ok () → ∀ target ∈ targets, ∀ hook,
    result.2.hooks.get? target = some hook → hook.detour.enabled = enable

variable {targets : List Nat}

theorem Toggles.none {enable : Bool} {fault : Fault MinHookStatus} :
    Toggles allowed enable targets service (.error fault, service) :=
  ⟨.refl, fun _ => rfl, fun _ => rfl, fun _ h => h, nofun⟩

theorem toggleEach_spec (guard : List Nat) (enable : Bool) (targets : List Nat)
    (hguard : ∀ target ∈ targets, ∀ hook, service.hooks.get? target = some hook →
      allowed hook.owner ∧ (hook.detour.enabled ≠ enable → target ∈ guard)) :
    Toggles allowed enable targets service (process.toggleEach guard enable targets service) := by
  induction targets generalizing service with
  | nil => exact ⟨.refl, fun _ => rfl, fun _ => rfl, fun _ h => h, fun _ _ h => nomatch h⟩
  | cons target targets ih =>
    unfold toggleEach
    rw [Fallible.bind_apply, Fallible.read_apply]
    dsimp only
    rcases hget : service.hooks.get? target with _ | hook
    · exact Toggles.none
    · obtain ⟨hallowed, hcovered⟩ := hguard target List.mem_cons_self hook hget
      have hchange (succeeded : Bool) : Change allowed service
          (service.toggled target hook enable succeeded guard) :=
        .toggled enable succeeded guard hget hallowed hcovered
      have hstays (succeeded : Bool) (other : Nat)
          (h : ∀ hook, service.hooks.get? other = some hook → hook.detour.enabled = enable)
          (found : HookEntry) (hfound : (service.toggled target hook enable succeeded
            guard).hooks.get? other = some found) : found.detour.enabled = enable := by
        rw [hooks_toggled] at hfound
        split at hfound
        · cases hfound
          rfl
        · exact h found hfound
      dsimp only
      rcases process.toggleDetour_cases guard target hook enable with hok | ⟨_, herror⟩
      · rw [Fallible.bind_of_ok hok]
        have hready : ∀ other ∈ targets, ∀ found,
            (service.toggled target hook enable true guard).hooks.get? other = some found →
              allowed found.owner ∧ (found.detour.enabled ≠ enable → other ∈ guard) := by
          intro other hother found hfound
          rw [hooks_toggled] at hfound
          split at hfound
          · cases hfound
            exact ⟨hallowed, fun hne => absurd rfl hne⟩
          · exact hguard other (List.mem_cons_of_mem _ hother) found hfound
        have hrest := ih hready
        refine ⟨.head (hchange true) hrest.changes, fun other => ?_, fun owner => ?_,
          fun other h => hrest.stays other (hstays true other h), fun hdone other hother => ?_⟩
        · exact (hrest.identity other).trans (identity?_toggled hget other)
        · exact (hrest.count owner).trans (countOwner_toggled hget owner)
        · rcases List.mem_cons.mp hother with rfl | hother
          · refine hrest.stays other fun found hfound => ?_
            rw [hooks_toggled, if_pos ⟨rfl, rfl⟩] at hfound
            cases hfound
            rfl
          · exact hrest.done hdone other hother
      · rw [Fallible.bind_of_error herror]
        exact ⟨.single (hchange false), identity?_toggled hget, countOwner_toggled hget,
          hstays false, nofun⟩

theorem disableForRetirement_spec
    (hallowed : ∀ target ∈ targets, ∀ hook, service.hooks.get? target = some hook →
      allowed hook.owner) :
    Toggles allowed false targets service (process.disableForRetirement targets service) := by
  unfold disableForRetirement
  rw [Fallible.bind_apply, Fallible.read_apply]
  dsimp only
  rcases process.collectKeys_cases .enabled (targets.filter fun target =>
    (service.hooks.get? target).any (·.detour.enabled)) with hok | ⟨status, herror⟩
  · rw [Fallible.bind_of_ok hok]
    generalize henabled : (targets.filter fun target =>
      (service.hooks.get? target).any (·.detour.enabled)) = enabled
    have hcovers : ∀ target ∈ targets, ∀ hook, service.hooks.get? target = some hook →
        hook.detour.enabled ≠ false → target ∈ enabled := by
      intro target hmem hook hget hne
      rw [← henabled]
      refine List.mem_filter.mpr ⟨hmem, ?_⟩
      rw [hget]
      exact eq_true_of_ne_false hne
    have hspec : Toggles allowed false targets service
        (process.toggleEach enabled false targets service) :=
      toggleEach_spec enabled false targets fun target hmem hook hget =>
        ⟨hallowed target hmem hook hget, hcovers target hmem hook hget⟩
    rcases process.guardFor_cases enabled with hok | ⟨_, herror⟩
    · rw [Fallible.bind_of_ok hok]
      exact hspec
    · rw [Fallible.bind_of_error herror]
      exact Toggles.none
  · rw [Fallible.bind_of_error herror]
    exact Toggles.none

structure Retires (allowed : OwnerToken → Prop) (targets : List Nat) (service : InlineHookService)
    (result : Except (Fault MinHookStatus) Nat × InlineHookService) : Prop where
  changes : Changes allowed service result.2
  fewer : ∀ target hook, result.2.hooks.get? target = some hook →
    service.hooks.get? target = some hook
  done : ∀ retired, result.1 = .ok retired → ∀ target ∈ targets,
    result.2.hooks.get? target = none
  unwinds : ∀ fault, result.1 = .error fault → fault = .unwound

theorem retireKeys_spec
    (hready : ∀ target ∈ targets, ∀ hook, service.hooks.get? target = some hook →
      allowed hook.owner ∧ hook.detour.enabled = false) :
    Retires allowed targets service (process.retireKeys targets service) := by
  induction targets generalizing service with
  | nil =>
    refine ⟨.refl, fun _ _ h => h, fun _ _ target hmem => ?_, fun fault hfault => ?_⟩
    · cases hmem
    · cases hfault
  | cons target targets ih =>
    unfold retireKeys
    rw [Fallible.bind_apply, Fallible.read_apply]
    dsimp only
    rcases hget : service.hooks.get? target with _ | hook
    · obtain ⟨hchanges, hfewer, hdone, hunwinds⟩ := ih fun other hother =>
        hready other (List.mem_cons_of_mem _ hother)
      refine ⟨hchanges, hfewer, fun retired hok other hother => ?_, hunwinds⟩
      rcases List.mem_cons.mp hother with rfl | hother
      · refine Option.eq_none_iff_forall_ne_some.mpr fun hook hsome => ?_
        exact absurd (hget.symm.trans (hfewer other hook hsome)) nofun
      · exact hdone retired hok other hother
    · obtain ⟨hallowed, hdisabled⟩ := hready target List.mem_cons_self hook hget
      have hchange : Change allowed service (service.removed target) :=
        .removed hget hallowed hdisabled
      have hfewer : ∀ other found, (service.removed target).hooks.get? other = some found →
          service.hooks.get? other = some found := by
        intro other found hfound
        rw [hooks_removed] at hfound
        split at hfound
        · cases hfound
        · exact hfound
      obtain ⟨hchanges, hless, hdone, hunwinds⟩ := ih fun other hother found hfound =>
        hready other (List.mem_cons_of_mem _ hother) found (hfewer other found hfound)
      dsimp only
      rcases process.retireEntry_cases target with hok | herror
      · rw [Fallible.bind_of_ok hok]
        rcases hrest : process.retireKeys targets (service.removed target) with ⟨fault | retired, _⟩
        · rw [Fallible.bind_of_error hrest]
          rw [hrest] at hchanges hless hunwinds
          exact ⟨.head hchange hchanges, fun other found h => hfewer other found (hless other found h),
            nofun, hunwinds⟩
        · rw [Fallible.bind_of_ok hrest]
          rw [hrest] at hchanges hless hdone
          refine ⟨.head hchange hchanges, fun other found h => hfewer other found (hless other found h),
            fun _ _ other hother => ?_, nofun⟩
          rcases List.mem_cons.mp hother with rfl | hother
          · refine Option.eq_none_iff_forall_ne_some.mpr fun found hsome => ?_
            have hgone := hless other found hsome
            rw [hooks_removed, if_pos rfl] at hgone
            cases hgone
          · exact hdone retired rfl other hother
      · rw [Fallible.bind_of_error herror]
        exact ⟨.single hchange, hfewer, nofun, fun _ hfault => (Except.error.inj hfault).symm⟩

theorem retireKeys_returned (hreturns : ∀ target, process.retire target = .returned ())
    (hnodup : targets.Nodup)
    (hregistered : ∀ target ∈ targets, (service.hooks.get? target).isSome = true) :
    (process.retireKeys targets service).1 = .ok targets.length := by
  induction targets generalizing service with
  | nil => rfl
  | cons target targets ih =>
    obtain ⟨hnew, hnodup⟩ := List.nodup_cons.mp hnodup
    have hrest : (process.retireKeys targets (service.removed target)).1 = .ok targets.length := by
      refine ih hnodup fun other hother => ?_
      have hne : other ≠ target := fun heq => hnew (heq ▸ hother)
      rw [hooks_removed, if_neg hne]
      exact hregistered other (List.mem_cons_of_mem _ hother)
    obtain ⟨_, hget⟩ := Option.isSome_iff_exists.mp (hregistered target List.mem_cons_self)
    unfold retireKeys
    rw [Fallible.bind_apply, Fallible.read_apply]
    dsimp only
    rw [hget]
    have hentry : process.retireEntry target service = (.ok (), service.removed target) := by
      unfold retireEntry
      rw [hreturns target]
    dsimp only
    rw [Fallible.bind_of_ok hentry, Fallible.bind_apply]
    rcases hresult : process.retireKeys targets (service.removed target) with ⟨_ | _, _⟩
    · rw [hresult] at hrest
      cases hrest
    · rw [hresult] at hrest
      cases hrest
      rfl

end Process

end Nexus.InlineHooks
