import Nexus.HookRuns

namespace Nexus.InlineHooks

open Relation

variable {process : Process} {service next : InlineHookService} {allowed : OwnerToken → Prop}

open InlineHookService

namespace Process

theorem removeOne_changes {target : Nat}
    (hallowed : ∀ hook, service.hooks.get? target = some hook → allowed hook.owner) :
    Changes allowed service (process.removeOne target service).2 := by
  unfold removeOne
  rw [Fallible.bind_apply, Fallible.read_apply]
  dsimp only
  rcases hget : service.hooks.get? target with _ | hook
  · exact .refl
  · dsimp only
    generalize hguard : (if hook.detour.enabled = true then [target] else []) = guard
    have hchange (succeeded : Bool) :
        Change allowed service (service.toggled target hook false succeeded guard) := by
      refine .toggled false succeeded guard hget (hallowed hook hget) fun hne => ?_
      rw [← hguard, if_pos (eq_true_of_ne_false hne)]
      exact List.mem_singleton_self target
    rcases process.guardFor_cases guard with hok | ⟨fault, herror⟩
    · rw [Fallible.bind_of_ok hok]
      rcases process.toggleDetour_cases guard target hook false with hok | ⟨fault, herror⟩
      · rw [Fallible.bind_of_ok hok, Fallible.bind_apply, Fallible.read_apply]
        have hdisabled : (service.toggled target hook false true guard).hooks.get? target =
            some { hook with detour := { hook.detour with enabled := false } } := by
          rw [hooks_toggled, if_pos ⟨rfl, rfl⟩]
        dsimp only
        rw [hdisabled]
        have hremoved : Change allowed (service.toggled target hook false true guard)
            ((service.toggled target hook false true guard).removed target) :=
          .removed hdisabled (hallowed hook hget) rfl
        dsimp only
        rcases process.retireEntry_cases target with hentry | hentry
        · rw [hentry]
          exact .tail (.single (hchange true)) hremoved
        · rw [hentry]
          exact .tail (.single (hchange true)) hremoved
      · rw [Fallible.bind_of_error herror]
        exact .single (hchange false)
    · rw [Fallible.bind_of_error herror]

theorem changeOne_changes {target : Nat} {enable : Bool}
    (hallowed : ∀ hook, service.hooks.get? target = some hook → allowed hook.owner) :
    Changes allowed service (process.changeOne target enable service).2 := by
  unfold changeOne
  rw [Fallible.bind_apply, Fallible.read_apply]
  dsimp only
  rcases hget : service.hooks.get? target with _ | hook
  · exact .refl
  · dsimp only
    split
    next => exact .refl
    next =>
      have hchange (succeeded : Bool) :
          Change allowed service (service.toggled target hook enable succeeded [target]) :=
        .toggled enable succeeded [target] hget (hallowed hook hget) fun _ =>
          List.mem_singleton_self target
      rcases process.acquireGuard_cases [target] with hok | ⟨fault, herror⟩
      · rw [Fallible.bind_of_ok hok]
        rcases process.toggleDetour_cases [target] target hook enable with htoggle | ⟨fault, htoggle⟩
        · rw [htoggle]
          exact .single (hchange true)
        · rw [htoggle]
          exact .single (hchange false)
      · rw [Fallible.bind_of_error herror]

theorem changeMatching_changes {p : HookEntry → Bool} {enable : Bool}
    (hallowed : ∀ hook, p hook = true → allowed hook.owner) :
    Changes allowed service (process.changeMatching p enable service).2 := by
  unfold changeMatching
  rw [Fallible.bind_apply, Fallible.read_apply]
  dsimp only
  generalize htargets : process.order
    (service.targetsOf fun hook => p hook && hook.detour.enabled != enable) = targets
  have hmatching : ∀ target ∈ targets, ∀ hook, service.hooks.get? target = some hook →
      allowed hook.owner ∧ (hook.detour.enabled ≠ enable → target ∈ targets) := by
    intro target hmem hook hget
    refine ⟨hallowed hook ?_, fun _ => hmem⟩
    rw [← htargets, (process.order_perm _).mem_iff, mem_targetsOf] at hmem
    obtain ⟨_, hfound, hp⟩ := hmem
    cases hget.symm.trans hfound
    exact (Bool.and_eq_true_iff.mp hp).1
  rcases process.collectKeys_cases .targets targets with hok | ⟨_, herror⟩
  · rw [Fallible.bind_of_ok hok]
    split
    next => exact .refl
    next =>
      rcases process.acquireGuard_cases targets with hguard | ⟨_, herror⟩
      · rw [Fallible.bind_of_ok hguard]
        exact (toggleEach_spec targets enable targets hmatching).changes
      · rw [Fallible.bind_of_error herror]
  · rw [Fallible.bind_of_error herror]

theorem retirement_spec {p : HookEntry → Bool} {keys : List Nat}
    (hkeys : ∀ target, target ∈ keys ↔ target ∈ service.targetsOf p)
    (hallowed : ∀ hook, p hook = true → allowed hook.owner) :
    Toggles allowed false keys service (process.disableForRetirement keys service) ∧
      ∀ mid, process.disableForRetirement keys service = (.ok (), mid) →
        Retires allowed keys mid (process.retireKeys keys mid) := by
  have hmatching : ∀ target ∈ keys, ∀ hook, service.hooks.get? target = some hook →
      allowed hook.owner := by
    intro target hmem hook hget
    obtain ⟨found, hfound, hp⟩ := mem_targetsOf.mp ((hkeys target).mp hmem)
    cases hget.symm.trans hfound
    exact hallowed hook hp
  have htoggles : Toggles allowed false keys service (process.disableForRetirement keys service) :=
    disableForRetirement_spec hmatching
  refine ⟨htoggles, fun mid hdisabled => retireKeys_spec fun target hmem hook hget => ?_⟩
  rw [hdisabled] at htoggles
  have hsame := htoggles.identity target
  unfold identity? at hsame
  rw [hget] at hsame
  obtain ⟨found, hfound, hidentity⟩ := Option.map_eq_some_iff.mp hsame.symm
  refine ⟨?_, htoggles.done rfl target hmem hook hget⟩
  have howner : found.owner = hook.owner := congrArg Prod.fst hidentity
  exact howner ▸ hmatching target hmem found hfound

end Process

theorem requireInitialized_cases :
    service.initialized = true ∧ requireInitialized service = (.ok (), service) ∨
      service.initialized = false ∧
        requireInitialized service = (.error (.error mhErrorNotInitialized), service) := by
  unfold requireInitialized
  rw [Fallible.bind_apply, Fallible.read_apply]
  dsimp only
  rw [Fallible.ensure_apply]
  cases service.initialized <;> simp

/-- What a retirement that failed leaves for the next attempt. -/
structure Retryable (process : Process) (service next : InlineHookService) : Prop where
  initialized : next.initialized = service.initialized
  accounted : Accounted service next
  kept : (∀ target, process.retire target = .returned ()) →
    ∀ target, next.identity? target = service.identity? target

theorem Retryable.of_changes (hchanges : Changes allowed service next)
    (hkept : (∀ target, process.retire target = .returned ()) →
      ∀ target, next.identity? target = service.identity? target) :
    Retryable process service next :=
  ⟨initialized_of_changes hchanges, accounted_of_changes hchanges, hkept⟩

theorem Retryable.refl (process : Process) (service : InlineHookService) :
    Retryable process service service :=
  ⟨rfl, ⟨[], (List.append_nil _).symm, fun _ => by simp⟩, fun _ _ => rfl⟩

theorem mem_ordered {p : HookEntry → Bool} (target : Nat) :
    target ∈ process.order (service.targetsOf p) ↔ target ∈ service.targetsOf p :=
  (process.order_perm _).mem_iff

variable {target : Nat}

theorem isSome_of_identity? (hsame : next.identity? target = service.identity? target)
    (hregistered : (service.hooks.get? target).isSome = true) :
    (next.hooks.get? target).isSome = true := by
  unfold identity? at hsame
  rw [← Option.isSome_map (f := HookEntry.identity), hsame, Option.isSome_map]
  exact hregistered

theorem retireKeys_ordered {p : HookEntry → Bool}
    (hreturns : ∀ target, process.retire target = .returned ())
    (hsame : ∀ target, next.identity? target = service.identity? target) :
    (process.retireKeys (process.order (service.targetsOf p)) next).1 =
      .ok (process.order (service.targetsOf p)).length := by
  refine Process.retireKeys_returned hreturns
    ((process.order_perm _).nodup_iff.mpr (nodup_targetsOf p)) fun target hmem => ?_
  obtain ⟨_, hget, _⟩ := mem_targetsOf.mp ((mem_ordered target).mp hmem)
  exact isSome_of_identity? (hsame target) (by rw [hget]; rfl)

theorem uninitializeService_spec :
    Moves (fun _ => True) service (uninitializeService process service).2 ∧
      ((uninitializeService process service).1 ≠ .ok () →
        Retryable process service (uninitializeService process service).2) := by
  unfold uninitializeService
  rcases @requireInitialized_cases service with ⟨_, hinit⟩ | ⟨_, hinit⟩
  · rw [Fallible.bind_of_ok hinit, Fallible.bind_apply, Fallible.read_apply]
    dsimp only
    rcases process.collectKeys_cases .targets (process.order (service.targetsOf fun _ => true)) with
      hok | ⟨status, herror⟩
    · rw [Fallible.bind_of_ok hok]
      obtain ⟨htoggles, hretires⟩ := @Process.retirement_spec process service (fun _ => True)
        (fun _ => true) _ mem_ordered fun _ _ => trivial
      rcases hdisable : process.disableForRetirement
          (process.order (service.targetsOf fun _ => true)) service with ⟨fault | ⟨⟨⟩⟩, mid⟩
      · rw [Fallible.bind_of_error hdisable]
        rw [hdisable] at htoggles
        exact ⟨moves_of_changes htoggles.changes, fun _ =>
          .of_changes htoggles.changes fun _ => htoggles.identity⟩
      · rw [Fallible.bind_of_ok hdisable]
        rw [hdisable] at htoggles
        have hretired := hretires mid hdisable
        have hall := fun hreturns => @retireKeys_ordered process service mid (fun _ => true) hreturns
          htoggles.identity
        rcases hretire : process.retireKeys
            (process.order (service.targetsOf fun _ => true)) mid with ⟨fault | retired, final⟩
        · rw [Fallible.bind_of_error hretire]
          rw [hretire] at hretired hall
          have hchanges := htoggles.changes.trans hretired.changes
          exact ⟨moves_of_changes hchanges, fun _ =>
            .of_changes hchanges fun hreturns => nomatch hall hreturns⟩
        · rw [Fallible.bind_of_ok hretire, Fallible.bind_apply, Fallible.read_apply]
          rw [hretire] at hretired hall
          have hchanges := htoggles.changes.trans hretired.changes
          have hempty : final.hooks.toList = [] := by
            refine hooks_eq_nil fun target => Option.eq_none_iff_forall_ne_some.mpr fun hook hget => ?_
            have hmid := hretired.fewer target hook hget
            have hfound : (service.hooks.get? target).isSome = true :=
              isSome_of_identity? (htoggles.identity target).symm (by rw [hmid]; rfl)
            obtain ⟨found, hfound⟩ := Option.isSome_iff_exists.mp hfound
            have hgone := hretired.done retired rfl target
              ((mem_ordered target).mpr (mem_targetsOf.mpr ⟨found, hfound, rfl⟩))
            exact absurd (hgone.symm.trans hget) nofun
          dsimp only
          by_cases hcount : retired = (process.order (service.targetsOf fun _ => true)).length
          · rw [Fallible.ensure_true ⟨hcount, hempty⟩]
            exact ⟨(moves_of_changes hchanges).tail (.closed hempty), fun hne => absurd rfl hne⟩
          · rw [Fallible.ensure_false fun h => hcount h.1]
            exact ⟨moves_of_changes hchanges, fun _ => .of_changes hchanges fun hreturns =>
              absurd (Except.ok.inj (hall hreturns)) hcount⟩
    · rw [Fallible.bind_of_error herror]
      exact ⟨.refl, fun _ => .refl process service⟩
  · rw [Fallible.bind_of_error hinit]
    exact ⟨.refl, fun _ => .refl process service⟩

structure Cleaned (process : Process) (owner : OwnerToken) (service : InlineHookService)
    (result : Except (Fault CleanupError) CleanupReport × InlineHookService) : Prop where
  changes : Changes (· = owner) service result.2
  report : ∀ report, result.1 = .ok report → result.2.countOwner owner = 0
  stopped : ∀ error, result.1 = .error (.error error) →
    error.remaining = result.2.countOwner owner ∧
      error.retired + error.remaining = service.countOwner owner
  kept : (∃ fault, result.1 = .error fault) → (∀ target, process.retire target = .returned ()) →
    ∀ target, result.2.identity? target = service.identity? target

variable {owner : OwnerToken}

theorem Cleaned.unchanged (status : MinHookStatus) :
    Cleaned process owner service
      (.error (.error ⟨owner, status, 0, service.countOwner owner⟩), service) := by
  refine ⟨.refl, nofun, fun error herror => ?_, fun _ _ _ => rfl⟩
  cases herror
  exact ⟨rfl, Nat.zero_add _⟩

theorem countOwner_retired {mid final : InlineHookService} {retired : Nat}
    (hsame : ∀ target, mid.identity? target = service.identity? target)
    (hretires : Process.Retires (· = owner)
      (process.order (service.targetsOf fun hook => hook.owner = owner)) mid (.ok retired, final)) :
    final.countOwner owner = 0 := by
  refine countOwner_eq_zero.mpr fun target hook hget howner => ?_
  have hidentity := hsame target
  unfold identity? at hidentity
  rw [hretires.fewer target hook hget] at hidentity
  obtain ⟨found, hfound, hfoundIdentity⟩ := Option.map_eq_some_iff.mp hidentity.symm
  have hfoundOwner : found.owner = owner := (congrArg Prod.fst hfoundIdentity).trans howner
  have hgone := hretires.done retired rfl target
    ((mem_ordered target).mpr (mem_targetsOf.mpr ⟨found, hfound, decide_eq_true hfoundOwner⟩))
  exact absurd (hgone.symm.trans hget) nofun

theorem cleanupOwnerInner_spec (process : Process) (owner : OwnerToken)
    (service : InlineHookService) :
    Cleaned process owner service (process.cleanupOwnerInner owner service) := by
  unfold Process.cleanupOwnerInner
  rw [Fallible.bind_apply, Fallible.read_apply]
  dsimp only
  by_cases hnone : service.countOwner owner = 0
  · rw [if_pos hnone]
    exact ⟨.refl, fun _ _ => hnone, nofun, nofun⟩
  · rw [if_neg hnone]
    by_cases hopen : service.initialized = true
    · rw [Fallible.ensure_true hopen, Fallible.pure_bind', Fallible.bind_apply,
        Fallible.mapError_apply]
      rcases process.collectKeys_cases .targets
          (process.order (service.targetsOf fun hook => hook.owner = owner)) with
        hok | ⟨status, herror⟩
      · rw [hok]
        dsimp only [Except.mapError]
        rw [Fallible.bind_apply, Fallible.mapError_apply]
        obtain ⟨htoggles, hretires⟩ := @Process.retirement_spec process service (· = owner)
          (fun hook => hook.owner = owner) _ mem_ordered fun _ h => of_decide_eq_true h
        rcases hdisable : process.disableForRetirement
            (process.order (service.targetsOf fun hook => hook.owner = owner)) service with
          ⟨fault | ⟨⟨⟩⟩, mid⟩
        · rw [hdisable] at htoggles
          dsimp only [Except.mapError]
          refine ⟨htoggles.changes, nofun, fun error herror => ?_, fun _ _ => htoggles.identity⟩
          cases fault with
          | error =>
            cases herror
            exact ⟨(htoggles.count owner).symm, Nat.zero_add _⟩
          | unwound => cases herror
        · rw [hdisable] at htoggles
          have hretired := hretires mid hdisable
          have hall := fun hreturns => @retireKeys_ordered process service mid
            (fun hook => hook.owner = owner) hreturns htoggles.identity
          dsimp only [Except.mapError]
          rw [Fallible.bind_apply, Fallible.mapError_apply]
          rcases hretire : process.retireKeys
              (process.order (service.targetsOf fun hook => hook.owner = owner)) mid with
            ⟨fault | retired, final⟩
          · rw [hretire] at hretired hall
            cases hretired.unwinds fault rfl
            exact ⟨htoggles.changes.trans hretired.changes, nofun, nofun,
              fun _ hreturns => nomatch hall hreturns⟩
          · rw [hretire] at hretired
            have hgone := countOwner_retired htoggles.identity hretired
            dsimp only [Except.mapError]
            rw [Fallible.bind_apply, Fallible.read_apply]
            dsimp only
            rw [if_pos hgone]
            exact ⟨htoggles.changes.trans hretired.changes, fun _ _ => hgone, nofun, nofun⟩
      · rw [herror]
        exact .unchanged status
    · rw [Fallible.ensure_false hopen, Fallible.fail_bind]
      exact .unchanged mhErrorNotInitialized

theorem cleanupOwner_spec (process : Process) (owner : OwnerToken) (service : InlineHookService) :
    Moves (· = owner) (service.retireOwnerAdmission owner)
        (cleanupOwner process owner service).2 ∧
      (∀ report, (cleanupOwner process owner service).1 = .ok report →
        (cleanupOwner process owner service).2.countOwner owner = 0) ∧
      ∀ error, (cleanupOwner process owner service).1 = .error error →
        error.remaining = (cleanupOwner process owner service).2.countOwner owner ∧
          error.retired + error.remaining = service.countOwner owner ∧
          Retryable process service (cleanupOwner process owner service).2 := by
  have hspec := cleanupOwnerInner_spec process owner (service.retireOwnerAdmission owner)
  unfold cleanupOwner
  dsimp only
  generalize hresult : process.cleanupOwnerInner owner (service.retireOwnerAdmission owner) = result
    at hspec
  obtain ⟨result, final⟩ := result
  have haccounted : Accounted (service.retireOwnerAdmission owner) final :=
    accounted_of_changes hspec.changes
  have hinitialized : final.initialized = (service.retireOwnerAdmission owner).initialized :=
    initialized_of_changes hspec.changes
  have hretryable : (∃ fault, result = .error fault) → Retryable process service final :=
    fun hfault => ⟨hinitialized, haccounted, hspec.kept hfault⟩
  rcases result with (error | _) | report
  · refine ⟨moves_of_changes hspec.changes, nofun, fun found hfound => ?_⟩
    cases hfound
    obtain ⟨hremaining, hsum⟩ := hspec.stopped error rfl
    exact ⟨hremaining, hsum, hretryable ⟨_, rfl⟩⟩
  · refine ⟨moves_of_changes hspec.changes, nofun, fun found hfound => ?_⟩
    cases hfound
    refine ⟨rfl, Nat.sub_add_cancel ?_, hretryable ⟨_, rfl⟩⟩
    exact countOwner_le_of_changes hspec.changes owner
  · exact ⟨moves_of_changes hspec.changes, fun _ _ => hspec.report report rfl, nofun⟩

theorem retireKeys_singleton {target : Nat} {hook : HookEntry}
    (hget : service.hooks.get? target = some hook) :
    (process.retireKeys [target] service).2 = service.removed target := by
  unfold Process.retireKeys
  rw [Fallible.bind_apply, Fallible.read_apply]
  dsimp only
  rw [hget]
  dsimp only
  rcases process.retireEntry_cases target with hok | herror
  · rw [Fallible.bind_of_ok hok]
    rfl
  · rw [Fallible.bind_of_error herror]

/-- The registry, without what happened to the detours. -/
def SameRegistry (service next : InlineHookService) : Prop :=
  next.initialized = service.initialized ∧ next.hooks = service.hooks ∧
    next.retiredGenerations = service.retiredGenerations

structure Creates (owner : OwnerToken) (service : InlineHookService)
    (result : Except (Fault MinHookStatus) Unit × InlineHookService) : Prop where
  moves : Moves (· = owner) service result.2
  same : result.1 ≠ .ok () → SameRegistry service result.2

theorem Creates.failed {owner : OwnerToken} {fault : Fault MinHookStatus} :
    Creates owner service (.error fault, service) :=
  ⟨.refl, fun _ => ⟨rfl, rfl, rfl⟩⟩

theorem Creates.rolledBack {trampoline : Nat} {fault : Fault MinHookStatus}
    (hinserted : Move (· = owner) service (service.inserted target owner trampoline))
    (habsent : service.hooks.get? target = none) :
    Creates owner service
      (.error fault, (service.inserted target owner trampoline).removed target) := by
  have hget : (service.inserted target owner trampoline).hooks.get? target =
      some ⟨owner, ⟨trampoline, false⟩⟩ := by rw [hooks_inserted, if_pos rfl]
  refine ⟨.tail (.single hinserted) (.changed (.removed hget rfl rfl)), fun _ => ⟨rfl, ?_, rfl⟩⟩
  refine SortedMap.ext_get? fun other => ?_
  rw [hooks_removed, hooks_inserted]
  split
  next heq => rw [heq, habsent]
  next => rfl

theorem Creates.finished {owner : OwnerToken} {target trampoline : Nat}
    (hinserted : Move (· = owner) service (service.inserted target owner trampoline))
    (habsent : service.hooks.get? target = none) (status : MinHookStatus) :
    Creates owner service
      (finishPublication process target status (service.inserted target owner trampoline)) := by
  have hget : (service.inserted target owner trampoline).hooks.get? target =
      some ⟨owner, ⟨trampoline, false⟩⟩ := by rw [hooks_inserted, if_pos rfl]
  have hretired := @retireKeys_singleton process _ target _ hget
  unfold finishPublication
  split
  next => exact ⟨.single hinserted, fun hne => absurd rfl hne⟩
  next =>
    rcases hretire : process.retireKeys [target] (service.inserted target owner trampoline) with
      ⟨fault | retired, final⟩
    · rw [Fallible.bind_of_error hretire]
      rw [hretire] at hretired
      cases hretired
      exact .rolledBack hinserted habsent
    · rw [Fallible.bind_of_ok hretire]
      rw [hretire] at hretired
      cases hretired
      exact .rolledBack hinserted habsent

theorem createHookTransaction_spec (process : Process) (owner : OwnerToken) (target detour : Nat)
    (publish : Nat → Call MinHookStatus) (service : InlineHookService) :
    Creates owner service
      (createHookTransaction process owner target detour publish service) := by
  unfold createHookTransaction
  rcases @requireInitialized_cases service with ⟨hopen, hinit⟩ | ⟨_, hinit⟩
  · rw [Fallible.bind_of_ok hinit, Fallible.bind_apply, Fallible.read_apply]
    dsimp only
    by_cases htarget : target ≠ 0
    · rw [Fallible.ensure_true htarget, Fallible.pure_bind']
      by_cases hexecutable :
          process.isExecutable target = true ∧ process.isExecutable detour = true
      · rw [Fallible.ensure_true hexecutable, Fallible.pure_bind']
        by_cases hadmitted : service.ownerAdmissionRetired owner = false
        · rw [Fallible.ensure_true hadmitted, Fallible.pure_bind']
          by_cases habsent : service.hooks.get? target = none
          · rw [Fallible.ensure_true habsent, Fallible.pure_bind']
            by_cases hreserves : process.reserves .registry = true
            · rw [Fallible.ensure_true hreserves, Fallible.pure_bind']
              rcases process.newDetour with ⟨_ | trampoline⟩ | _
              · exact .failed
              · have hinserted : Move (· = owner) service
                    (service.inserted target owner trampoline) :=
                  .inserted trampoline hopen habsent hadmitted rfl
                dsimp only
                rw [Fallible.bind_apply, Fallible.modify_apply]
                exact .finished hinserted habsent _
              · exact .failed
            · rw [Fallible.ensure_false hreserves, Fallible.fail_bind]
              exact .failed
          · rw [Fallible.ensure_false habsent, Fallible.fail_bind]
            exact .failed
        · rw [Fallible.ensure_false hadmitted, Fallible.fail_bind]
          exact .failed
      · rw [Fallible.ensure_false hexecutable, Fallible.fail_bind]
        exact .failed
    · rw [Fallible.ensure_false htarget, Fallible.fail_bind]
      exact .failed
  · rw [Fallible.bind_of_error hinit]
    exact .failed

theorem withStatus_snd (operation : Hooking Unit) (service : InlineHookService) :
    (withStatus operation service).2 = (operation service).2 := by
  unfold withStatus
  split <;> simp [*]

variable {operation : Hooking Unit}

theorem withStatus_ne_ok (h : (withStatus operation service).1 ≠ mhOk) :
    (operation service).1 ≠ .ok () := by
  intro hok
  refine h ?_
  unfold withStatus
  rcases hresult : operation service with ⟨_ | ⟨⟨⟩⟩, _⟩
  · rw [hresult] at hok
    cases hok
  · rfl

theorem initializeService_moves :
    Moves allowed service (initializeService service).2 := by
  unfold initializeService
  rw [Fallible.bind_apply, Fallible.read_apply]
  dsimp only
  by_cases hclosed : service.initialized = false
  · rw [Fallible.ensure_true hclosed]
    exact .single .opened
  · rw [Fallible.ensure_false hclosed]
    exact .refl

theorem owned_changes
    (hoperation : (∀ hook, service.hooks.get? target = some hook → hook.owner = owner) →
      Changes (· = owner) service (operation service).2) :
    Changes (· = owner) service ((requireOwned owner target >>= fun _ => operation) service).2 := by
  unfold requireOwned
  rw [Fallible.bind_apply, Fallible.bind_apply, Fallible.read_apply]
  dsimp only
  by_cases howned : (service.hooks.get? target).any (·.owner = owner) = true
  · rw [Fallible.ensure_true howned]
    refine hoperation fun hook hget => ?_
    rw [hget] at howned
    exact of_decide_eq_true howned
  · rw [Fallible.ensure_false howned]
    exact .refl

theorem initialized_changes (hoperation : Changes allowed service (operation service).2) :
    Changes allowed service ((requireInitialized >>= fun _ => operation) service).2 := by
  rcases @requireInitialized_cases service with ⟨_, hinit⟩ | ⟨_, hinit⟩
  · rw [Fallible.bind_of_ok hinit]
    exact hoperation
  · rw [Fallible.bind_of_error hinit]

theorem targeted_changes {fault : Fault MinHookStatus}
    (hoperation : Changes allowed service (operation service).2) :
    Changes allowed service
      ((Fallible.ensure (target ≠ 0) fault >>= fun _ => operation) service).2 := by
  by_cases htarget : target ≠ 0
  · rw [Fallible.ensure_true htarget]
    exact hoperation
  · rw [Fallible.ensure_false htarget]
    exact .refl

theorem removeHook_changes (target : Nat) (hall : ∀ owner, allowed owner) :
    Changes allowed service (removeHook process target service).2 :=
  initialized_changes (targeted_changes (Process.removeOne_changes fun _ _ => hall _))

theorem removeOwnedHook_changes (owner : OwnerToken) (target : Nat) :
    Changes (· = owner) service (removeOwnedHook process owner target service).2 :=
  initialized_changes (targeted_changes (owned_changes fun howned => Process.removeOne_changes howned))

theorem changeHook_changes (target : Nat) (enable : Bool) (hall : ∀ owner, allowed owner) :
    Changes allowed service (changeHook process target enable service).2 := by
  unfold changeHook
  refine initialized_changes ?_
  split
  next => exact Process.changeMatching_changes fun hook _ => hall hook.owner
  next => exact Process.changeOne_changes fun hook _ => hall hook.owner

theorem changeOwnedHook_changes (owner : OwnerToken) (target : Nat) (enable : Bool) :
    Changes (· = owner) service (changeOwnedHook process owner target enable service).2 := by
  unfold changeOwnedHook
  refine initialized_changes ?_
  split
  next => exact Process.changeMatching_changes fun hook hp => of_decide_eq_true hp
  next => exact owned_changes fun howned => Process.changeOne_changes howned

namespace HookCall

def Allows (call : HookCall) (owner : OwnerToken) : Prop :=
  match call.owner? with
  | some caller => owner = caller
  | none => True

theorem run_moves (process : Process) (service : InlineHookService) (call : HookCall) :
    Moves call.Allows service (call.run process service).2 := by
  cases call with
  | initializeService => exact withStatus_snd .. ▸ initializeService_moves
  | uninitializeService => exact withStatus_snd .. ▸ uninitializeService_spec.1
  | createHookTransaction owner target detour publish =>
    exact withStatus_snd .. ▸
      (createHookTransaction_spec process owner target detour publish service).moves
  | removeHook target =>
    exact withStatus_snd .. ▸ moves_of_changes (removeHook_changes target fun _ => trivial)
  | removeOwnedHook owner target =>
    exact withStatus_snd .. ▸ moves_of_changes (removeOwnedHook_changes owner target)
  | enableHook target =>
    exact withStatus_snd .. ▸ moves_of_changes (changeHook_changes target true fun _ => trivial)
  | disableHook target =>
    exact withStatus_snd .. ▸ moves_of_changes (changeHook_changes target false fun _ => trivial)
  | enableOwnedHook owner target =>
    exact withStatus_snd .. ▸ moves_of_changes (changeOwnedHook_changes owner target true)
  | disableOwnedHook owner target =>
    exact withStatus_snd .. ▸ moves_of_changes (changeOwnedHook_changes owner target false)
  | cleanupOwner owner =>
    exact .head (.retired owner) (cleanupOwner_spec process owner service).1

end HookCall

theorem InlineHookService.Retired.runCalls (calls : List (Process × HookCall))
    (h : service.Retired owner) : Barred owner service (runCalls calls service) := by
  induction calls generalizing service with
  | nil => exact .refl owner service
  | cons call _ ih =>
    have hmoves := call.2.run_moves call.1 service
    exact (h.barred hmoves).trans (ih (h.moves hmoves))

theorem lawful_runCalls (calls : List (Process × HookCall)) (h : service.Lawful) :
    (runCalls calls service).Lawful := by
  induction calls generalizing service with
  | nil => exact h
  | cons call _ ih => exact ih (h.moves (call.2.run_moves call.1 service))

structure HookContract (service : InlineHookService) : Prop where
  lawful : service.Lawful
  owned : ∀ process call owner, HookCall.owner? call = some owner →
    ∀ target hook, hook.owner ≠ owner →
      ((call.run process service).2.hooks.get? target = some hook ↔
        service.hooks.get? target = some hook)
  created : ∀ process owner target detour publish next status, status ≠ mhOk →
    (HookCall.createHookTransaction owner target detour publish).run process service =
      (.status status, next) → SameRegistry service next
  uninitialized : ∀ process next status, status ≠ mhOk →
    HookCall.uninitializeService.run process service = (.status status, next) →
      Retryable process service next
  cleaned : ∀ process owner next error,
    (HookCall.cleanupOwner owner).run process service = (.cleanup (.error error), next) →
      error.remaining = next.countOwner owner ∧
        error.retired + error.remaining = service.countOwner owner ∧
        Retryable process service next
  barred : ∀ process owner result next,
    (HookCall.cleanupOwner owner).run process service = (result, next) → ∀ calls,
      (∃ events, (runCalls calls next).events = service.events ++ events ∧
        CreatesNone owner events) ∧
      ∀ report, result = .cleanup (.ok report) → (runCalls calls next).countOwner owner = 0

/-- In every state of every sequence of calls, whatever the process answers. -/
theorem hooks_owned_and_retired (calls : List (Process × HookCall)) :
    HookContract (runCalls calls new) := by
  generalize hservice : runCalls calls new = service
  refine ⟨hservice ▸ lawful_runCalls calls lawful_new, fun process call owner howner target hook
    hother => ?_, fun process owner target detour publish next status hne hrun => ?_,
    fun process next status hne hrun => ?_, fun process owner next error hrun => ?_,
    fun process owner result next hrun calls => ?_⟩
  · refine others_of_moves (call.run_moves process service) target hook fun hallowed => hother ?_
    unfold HookCall.Allows at hallowed
    rw [howner] at hallowed
    exact hallowed
  · have hspec := createHookTransaction_spec process owner target detour publish service
    have hstatus : (withStatus (createHookTransaction process owner target detour publish)
        service).1 = status := by injection congrArg Prod.fst hrun
    have hnext : _ = next := congrArg Prod.snd hrun
    have hsame := hspec.same (withStatus_ne_ok (hstatus ▸ hne))
    rw [← hnext]
    exact withStatus_snd .. ▸ hsame
  · have hstatus : (withStatus (uninitializeService process) service).1 = status := by
      injection congrArg Prod.fst hrun
    have hnext : _ = next := congrArg Prod.snd hrun
    have hretryable := uninitializeService_spec.2 (withStatus_ne_ok (hstatus ▸ hne))
    rw [← hnext]
    exact withStatus_snd .. ▸ hretryable
  · have hresult : (cleanupOwner process owner service).1 = .error error := by
      injection congrArg Prod.fst hrun
    have hnext : _ = next := congrArg Prod.snd hrun
    rw [← hnext]
    exact (cleanupOwner_spec process owner service).2.2 error hresult
  · obtain ⟨hmoves, hreport, _⟩ := cleanupOwner_spec process owner service
    have hretired := retired_retireOwnerAdmission service owner
    have hnext : (cleanupOwner process owner service).2 = next := congrArg Prod.snd hrun
    rw [hnext] at hmoves hreport
    have hbarred := (hretired.barred hmoves).trans ((hretired.moves hmoves).runCalls calls)
    refine ⟨hbarred.events, fun report hok => ?_⟩
    have hresult : (cleanupOwner process owner service).1 = .ok report := by
      injection (congrArg Prod.fst hrun).trans hok
    refine countOwner_eq_zero.mpr ?_
    exact ((hretired.moves hmoves).runCalls calls).absent owner ⟨rfl, Nat.le_refl _⟩
      (countOwner_eq_zero.mp (hreport report hresult))

end Nexus.InlineHooks
