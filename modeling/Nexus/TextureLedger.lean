import Nexus.Tally
import Nexus.TextureMoves

namespace Nexus.Textures

section Counts

variable (callback : Nat)

def PendingRequest.holds (pending : PendingRequest) : Nat :=
  pending.callbacks.countP fun registration => registration.callback = callback

def Completion.holds : Completion → Nat
  | .callback _ _ handler => if handler = callback then 1 else 0
  | .decoded .. => 0

def Activation.holds : Activation → Nat
  | .dispatching _ callbacks _ => callbacks.countP fun delivery => delivery.2 = callback
  | _ => 0

def Activation.notifies : Activation → Nat
  | .notifying _ _ _ handler => if handler = callback then 1 else 0
  | _ => 0

def Event.accepts : Event → Bool
  | .accepted handler _ _ => handler = callback
  | _ => false

def Event.enters : Event → Bool
  | .entered handler _ => handler = callback
  | _ => false

def Event.drops : Event → Bool
  | .removed handler _ => handler = callback
  | .excluded handler _ => handler = callback
  | _ => false

def stored (world : World) : Nat :=
  world.state.pending.total (PendingRequest.holds callback) +
    tally (Completion.holds callback) world.completions

def held (world : World) : Nat :=
  stored callback world + tally (Activation.holds callback) world.calls

/-- A callback of a call to come, or one that is yet to be accepted. -/
def unaccepted (world : World) : Nat :=
  tally (Activation.notifies callback) world.calls +
    if world.calls.length ≤ callback then 1 else 0

end Counts

/-- Every accepted callback waits, was entered or was dropped, and no callback is accepted twice. -/
structure Conserved (world : World) : Prop where
  balanced : ∀ callback, held callback world + world.log.countP (Event.enters callback) +
    world.log.countP (Event.drops callback) = world.log.countP (Event.accepts callback)
  once : ∀ callback,
    world.log.countP (Event.accepts callback) + unaccepted callback world ≤ 1

section Fields

variable (world : World) (events : List Event) (call : Nat) (activation : Activation)

@[simp] theorem record_log : (world.record events).log = events ++ world.log := rfl
@[simp] theorem record_state : (world.record events).state = world.state := rfl
@[simp] theorem record_work : (world.record events).work = world.work := rfl
@[simp] theorem record_downloads : (world.record events).downloads = world.downloads := rfl
@[simp] theorem record_completions : (world.record events).completions = world.completions := rfl
@[simp] theorem record_decodeWorker : (world.record events).decodeWorker = world.decodeWorker := rfl
@[simp] theorem record_downloadWorker :
    (world.record events).downloadWorker = world.downloadWorker := rfl
@[simp] theorem record_calls : (world.record events).calls = world.calls := rfl

@[simp] theorem begin_log : (world.begin activation).log = world.log := rfl
@[simp] theorem begin_state : (world.begin activation).state = world.state := rfl
@[simp] theorem begin_work : (world.begin activation).work = world.work := rfl
@[simp] theorem begin_downloads : (world.begin activation).downloads = world.downloads := rfl
@[simp] theorem begin_completions : (world.begin activation).completions = world.completions := rfl
@[simp] theorem begin_decodeWorker :
    (world.begin activation).decodeWorker = world.decodeWorker := rfl
@[simp] theorem begin_downloadWorker :
    (world.begin activation).downloadWorker = world.downloadWorker := rfl
@[simp] theorem begin_calls : (world.begin activation).calls = world.calls ++ [activation] := rfl

@[simp] theorem goOn_log : (world.goOn call activation).log = world.log := rfl
@[simp] theorem goOn_state : (world.goOn call activation).state = world.state := rfl
@[simp] theorem goOn_work : (world.goOn call activation).work = world.work := rfl
@[simp] theorem goOn_downloads : (world.goOn call activation).downloads = world.downloads := rfl
@[simp] theorem goOn_completions :
    (world.goOn call activation).completions = world.completions := rfl
@[simp] theorem goOn_decodeWorker :
    (world.goOn call activation).decodeWorker = world.decodeWorker := rfl
@[simp] theorem goOn_downloadWorker :
    (world.goOn call activation).downloadWorker = world.downloadWorker := rfl
@[simp] theorem goOn_calls :
    (world.goOn call activation).calls = world.calls.set call activation := rfl

end Fields

section Steps

variable {world next : World} {callback call : Nat} {before after : Activation}

theorem Turn.holds (h : Turn before after) : after.holds callback = before.holds callback := by
  cases h with
  | @dispatched _ continuation => cases continuation <;> rfl
  | _ => rfl

theorem Turn.notifies (h : Turn before after) :
    after.notifies callback ≤ before.notifies callback := by
  cases h with
  | @dispatched _ continuation => cases continuation <;> exact le_refl 0
  | refused => exact Nat.zero_le _
  | _ => exact le_refl 0

theorem Drops.holds {state : RegistryState} (h : Drops state before after) :
    after.holds callback = 0 ∧ before.holds callback = 0 := by
  cases h <;> exact ⟨rfl, rfl⟩

theorem Drops.notifies {state : RegistryState} (h : Drops state before after) :
    after.notifies callback = 0 ∧ before.notifies callback = 0 := by
  cases h <;> exact ⟨rfl, rfl⟩

variable (callback) in
theorem Numbered.countP_le {owner : RequestOwner} {before after : RegistryState}
    {registration attached : Option CallbackRegistration}
    (h : Numbered owner call before registration after)
    (hattached : attached = registration ∨ attached = none) :
    (attached.toList.countP fun found => found.callback = callback) ≤
      if callback = call then 1 else 0 := by
  rcases hattached with rfl | rfl
  · rcases attached with _ | found
    · exact Nat.zero_le _
    · rw [h.named found rfl, Option.toList_some, List.countP_singleton]
      by_cases hcall : call = callback
      · rw [if_pos (decide_eq_true hcall), if_pos hcall.symm]
      · rw [if_neg (by simpa using hcall)]
        exact Nat.zero_le _
  · exact Nat.zero_le _

end Steps

section Cleanup

variable {state : RegistryState} {target : RequestOwner} {callback : Nat} (target callback) in
theorem withoutOwner_holds (pending : PendingRequest) :
    (pending.withoutOwner target).holds callback +
      (pending.callbacks.filter fun registration => registration.owner = target).countP
        (fun registration => registration.callback = callback) = pending.holds callback := by
  unfold PendingRequest.withoutOwner PendingRequest.holds
  dsimp only
  induction pending.callbacks with
  | nil => rfl
  | cons registration =>
    by_cases howner : registration.owner = target
    · rw [List.filter_cons_of_neg (by simpa using howner),
        List.filter_cons_of_pos (by simpa using howner), List.countP_cons, List.countP_cons]
      omega
    · rw [List.filter_cons_of_pos (by simpa using howner),
        List.filter_cons_of_neg (by simpa using howner), List.countP_cons, List.countP_cons]
      omega

theorem forgetOwner_holds (target : RequestOwner) (state : RegistryState) :
    (forgetOwner target state).pending.total (PendingRequest.holds callback) +
      (ownedCallbacks target state).countP (fun registration => registration.callback = callback) =
      state.pending.total (PendingRequest.holds callback) := by
  unfold forgetOwner ownedCallbacks SortedMap.total SortedMap.values SortedMap.mapValues
  dsimp only
  induction state.pending.toList with
  | nil => rfl
  | cons item _ ih =>
    have hitem := withoutOwner_holds target callback item.2
    simp only [List.map_cons, List.sum_cons, List.flatMap_cons, List.countP_append] at ih ⊢
    omega

variable (callback) in
theorem abandoned_holds {pending : PendingRequest} (h : pending.isAbandoned = true) :
    pending.holds callback = 0 := by
  unfold PendingRequest.isAbandoned at h
  rw [Bool.and_eq_true, List.isEmpty_iff, List.isEmpty_iff] at h
  unfold PendingRequest.holds
  rw [h.2]
  rfl

theorem mem_abandoned {identifier : String} :
    identifier ∈ abandoned state ↔
      ∃ pending, state.pending.get? identifier = some pending ∧ pending.isAbandoned = true := by
  unfold abandoned
  rw [List.mem_map]
  constructor
  · rintro ⟨⟨found, pending⟩, hmem, rfl⟩
    rw [List.mem_filter] at hmem
    exact ⟨pending, SortedMap.mem_toList_iff.mp hmem.1, hmem.2⟩
  · rintro ⟨pending, hget, habandoned⟩
    exact ⟨(identifier, pending), List.mem_filter.mpr
      ⟨SortedMap.mem_toList_iff.mpr hget, habandoned⟩, rfl⟩

theorem cancelPending_get? (state : RegistryState) (identifier other : String) :
    (cancelPending state identifier).pending.get? other =
      if other = identifier then none else state.pending.get? other := by
  unfold cancelPending
  split
  next hnone =>
    split
    next hother => rw [hother, hnone]
    next => rfl
  next => exact SortedMap.get?_erase ..

theorem foldl_cancelPending_get? (order : List String) (state : RegistryState) (other : String) :
    (order.foldl cancelPending state).pending.get? other =
      if other ∈ order then none else state.pending.get? other := by
  induction order generalizing state with
  | nil => simp
  | cons identifier order ih =>
    rw [List.foldl_cons, ih, cancelPending_get?]
    by_cases hmem : other ∈ order
    · rw [if_pos hmem, if_pos (List.mem_cons_of_mem _ hmem)]
    · rw [if_neg hmem]
      by_cases hother : other = identifier
      · rw [if_pos hother, if_pos (hother ▸ List.mem_cons_self)]
      · rw [if_neg hother, if_neg fun h => (List.mem_cons.mp h).elim hother hmem]

variable {order : List String}

theorem cleanupPending_get? (hperm : order.Perm (abandoned (forgetOwner target state)))
    (identifier : String) :
    (cleanupPending target order state).pending.get? identifier =
      (state.pending.get? identifier).bind fun pending =>
        if (pending.withoutOwner target).isAbandoned then none
        else some (pending.withoutOwner target) := by
  unfold cleanupPending
  have hforget : (forgetOwner target state).pending.get? identifier =
      (state.pending.get? identifier).map (PendingRequest.withoutOwner target) :=
    SortedMap.get?_mapValues ..
  rw [foldl_cancelPending_get?, hforget]
  have hmem : identifier ∈ order ↔ ∃ pending, state.pending.get? identifier = some pending ∧
      (pending.withoutOwner target).isAbandoned = true := by
    rw [hperm.mem_iff, mem_abandoned, hforget]
    constructor
    · rintro ⟨found, hget, habandoned⟩
      obtain ⟨pending, hpending, rfl⟩ := Option.map_eq_some_iff.mp hget
      exact ⟨pending, hpending, habandoned⟩
    · rintro ⟨pending, hget, habandoned⟩
      exact ⟨_, by rw [hget]; rfl, habandoned⟩
  rcases hget : state.pending.get? identifier with _ | pending
  · split <;> rfl
  · rw [Option.map_some, Option.bind_some]
    by_cases habandoned : (pending.withoutOwner target).isAbandoned = true
    · rw [if_pos (hmem.mpr ⟨pending, hget, habandoned⟩), if_pos habandoned]
    · rw [if_neg, if_neg habandoned]
      rintro horder
      obtain ⟨found, hfound, h⟩ := hmem.mp horder
      cases hget.symm.trans hfound
      exact habandoned h

theorem foldl_cancelPending_holds (horder : order.Nodup)
    (h : ∀ identifier ∈ order, ∀ pending, state.pending.get? identifier = some pending →
      pending.isAbandoned = true) :
    (order.foldl cancelPending state).pending.total (PendingRequest.holds callback) =
      state.pending.total (PendingRequest.holds callback) := by
  induction order generalizing state with
  | nil => rfl
  | cons identifier _ ih =>
    obtain ⟨_, hnodup⟩ := List.nodup_cons.mp horder
    have hfirst : (cancelPending state identifier).pending.total (PendingRequest.holds callback) =
        state.pending.total (PendingRequest.holds callback) := by
      unfold cancelPending
      split
      · rfl
      next pending hget =>
        have hzero := abandoned_holds callback
          (h identifier List.mem_cons_self pending hget)
        have htotal := SortedMap.total_erase (PendingRequest.holds callback) hget
        dsimp only
        omega
    rw [List.foldl_cons, ih hnodup, hfirst]
    intro other hother pending hpending
    rw [cancelPending_get?] at hpending
    split at hpending
    · cases hpending
    · exact h other (List.mem_cons_of_mem _ hother) pending hpending

variable (callback) in
theorem cleanupPending_holds (hperm : order.Perm (abandoned (forgetOwner target state))) :
    (cleanupPending target order state).pending.total (PendingRequest.holds callback) +
      (ownedCallbacks target state).countP (fun registration => registration.callback = callback) =
      state.pending.total (PendingRequest.holds callback) := by
  have hnodup : order.Nodup := by
    rw [hperm.nodup_iff]
    exact (List.filter_sublist.map Prod.fst).nodup
      ((forgetOwner target state).pending.sorted.imp fun h => h.ne)
  unfold cleanupPending
  rw [foldl_cancelPending_holds hnodup]
  · exact forgetOwner_holds target state
  · intro identifier hmem pending hget
    obtain ⟨_, hfound, habandoned⟩ := mem_abandoned.mp (hperm.mem_iff.mp hmem)
    cases hget.symm.trans hfound
    exact habandoned

end Cleanup

end Nexus.Textures
