import Nexus.FontRuns
import Mathlib.Data.List.Nodup

namespace Nexus

namespace FontEntry

def HeldBy (entry : FontEntry) (owner : OwnerId) : Prop :=
  owner ∈ entry.ownerClaims ∨ ∃ subscriber ∈ entry.subscribers, subscriber.owner = owner

theorem isUnreferenced_iff (entry : FontEntry) :
    entry.isUnreferenced = true ↔ entry.ownerClaims = [] ∧ entry.subscribers = [] := by
  unfold isUnreferenced
  rw [Bool.and_eq_true, List.isEmpty_iff, List.isEmpty_iff]

theorem isUnreferenced_iff_not_held (entry : FontEntry) :
    entry.isUnreferenced = true ↔ ∀ owner, ¬entry.HeldBy owner := by
  rw [isUnreferenced_iff]
  constructor
  · rintro ⟨hclaims, hsubscribers⟩ owner (hclaim | ⟨subscriber, hmem, _⟩)
    · rw [hclaims] at hclaim
      cases hclaim
    · rw [hsubscribers] at hmem
      cases hmem
  · intro h
    refine ⟨List.eq_nil_iff_forall_not_mem.mpr fun owner hmem => h owner (Or.inl hmem), ?_⟩
    exact List.eq_nil_iff_forall_not_mem.mpr fun subscriber hmem =>
      h subscriber.owner (Or.inr ⟨subscriber, hmem, rfl⟩)

end FontEntry

namespace FontManager

def identifiers (manager : FontManager) : List String := manager.registry.map FontEntry.identifier

variable {manager : FontManager}

theorem mem_identifiers {entry : FontEntry} (h : entry ∈ manager.registry) :
    entry.identifier ∈ manager.identifiers :=
  List.mem_map_of_mem h

variable {identifier : String}

theorem find_none (h : manager.find identifier = none) : identifier ∉ manager.identifiers := by
  intro hmem
  obtain ⟨entry, hentry, rfl⟩ := List.mem_map.mp hmem
  exact absurd (List.find?_eq_none.mp h entry hentry) (by simp)

theorem eq_of_find (hnodup : manager.identifiers.Nodup) {entry other : FontEntry}
    (h : manager.find identifier = some entry) (hother : other ∈ manager.registry)
    (hid : other.identifier = identifier) : other = entry := by
  have hentry := List.mem_of_find?_eq_some h
  have hsame : entry.identifier = identifier := by simpa using List.find?_some h
  exact List.inj_on_of_nodup_map hnodup hother hentry (hid.trans hsame.symm)

theorem map_updateFirst {f : FontEntry → FontEntry}
    (hf : ∀ entry, (f entry).identifier = entry.identifier) (registry : List FontEntry) :
    (updateFirst identifier f registry).map FontEntry.identifier =
      registry.map FontEntry.identifier := by
  induction registry with
  | nil => rfl
  | cons _ _ ih =>
    simp only [updateFirst]
    split
    · rw [List.map_cons, List.map_cons, hf]
    · rw [List.map_cons, List.map_cons, ih]

variable {registry : List FontEntry}

theorem removeFirst_eq_filter (hnodup : (registry.map FontEntry.identifier).Nodup) :
    removeFirst identifier registry =
      registry.filter fun entry => entry.identifier ≠ identifier := by
  induction registry with
  | nil => rfl
  | cons first _ ih =>
    rw [List.map_cons, List.nodup_cons] at hnodup
    simp only [removeFirst]
    by_cases hid : first.identifier = identifier
    · rw [if_pos hid, List.filter_cons_of_neg (by simpa using hid)]
      refine (List.filter_eq_self.mpr fun entry hentry => ?_).symm
      refine decide_eq_true fun heq => hnodup.1 ?_
      rw [hid, ← heq]
      exact List.mem_map_of_mem hentry
    · rw [if_neg hid, List.filter_cons_of_pos (by simpa using hid), ih hnodup.2]

theorem map_publish {handles : List (Option FontHandle)} (h : handles.length = registry.length) :
    (publish registry handles).map FontEntry.identifier = registry.map FontEntry.identifier := by
  unfold publish
  rw [List.map_map]
  have hfirst := congrArg (List.map FontEntry.identifier)
    (List.map_fst_zip (Nat.le_of_eq h.symm))
  rw [List.map_map] at hfirst
  exact hfirst

theorem map_notifyCallbacks (notifyNull : Bool) (registry : List FontEntry) :
    (notifyCallbacks notifyNull registry).2.map FontEntry.identifier =
      registry.map FontEntry.identifier := by
  unfold notifyCallbacks
  rw [List.map_map]
  rfl

theorem map_invalidated (registry : List FontEntry) :
    (invalidated registry).map FontEntry.identifier = registry.map FontEntry.identifier := by
  unfold invalidated
  rw [List.map_map]
  exact map_notifyCallbacks true registry

theorem identifiers_advance (rebuild : List FontBuildRequest → RebuildResult)
    (manager : FontManager) :
    (advance rebuild manager).2.identifiers = manager.identifiers := by
  unfold advance identifiers
  split
  · rfl
  · dsimp only
    split
    · exact map_invalidated manager.registry
    · exact map_invalidated manager.registry
    next =>
      split
      · exact map_invalidated manager.registry
      next hcomplete =>
        rw [not_or, not_not] at hcomplete
        rw [map_notifyCallbacks, map_publish hcomplete.1, map_invalidated]

theorem identifiers_registerMemory (owner : OwnerId) (identifier : String) (size : FloatBits)
    (data : List UInt8) (config : FontConfig) (callback : Option FontCallback)
    (manager : FontManager) :
    (registerMemory owner identifier size data config callback manager).2.identifiers =
        manager.identifiers ∨
      identifier ∉ manager.identifiers ∧
        (registerMemory owner identifier size data config callback manager).2.identifiers =
          manager.identifiers ++ [identifier] := by
  unfold registerMemory
  split
  · exact Or.inl rfl
  · unfold registerOwned
    dsimp only
    split
    · refine Or.inl (map_updateFirst (fun entry => ?_) manager.registry)
      rfl
    · refine Or.inl (map_updateFirst (fun entry => ?_) manager.registry)
      unfold FontEntry.claim
      split <;> rfl
    next hfind => exact Or.inr ⟨find_none hfind, List.map_append ..⟩
    next hfind => exact Or.inr ⟨find_none hfind, List.map_append ..⟩

theorem identifiers_get (owner : OwnerId) (identifier : String) (callback : FontCallback)
    (manager : FontManager) :
    (get owner identifier callback manager).2.identifiers = manager.identifiers := by
  unfold get
  split
  · rfl
  · split
    · rfl
    · refine map_updateFirst (fun entry => ?_) manager.registry
      rfl

theorem identifiers_resize (identifier : String) (size : FloatBits) (manager : FontManager) :
    (resize identifier size manager).2.identifiers = manager.identifiers := by
  unfold resize
  split
  · rfl
  · split
    · rfl
    · split
      · rfl
      · refine map_updateFirst (fun entry => ?_) manager.registry
        rfl

theorem identifiers_cleanupOwnerCallbacks (owner : OwnerId) (manager : FontManager) :
    (cleanupOwnerCallbacks owner manager).2.identifiers = manager.identifiers := by
  unfold cleanupOwnerCallbacks identifiers
  rw [List.map_map]
  rfl

def ReleasesLast (identifier : String) (subscription : Nat) (entry : FontEntry) : Prop :=
  entry.identifier = identifier ∧
    (∃ subscriber ∈ entry.subscribers, subscriber.id = subscription) ∧
    (dropSubscription subscription entry).isUnreferenced = true

theorem length_dropSubscription_ne_iff (subscription : Nat) (entry : FontEntry) :
    entry.subscribers.length ≠ (dropSubscription subscription entry).subscribers.length ↔
      ∃ subscriber ∈ entry.subscribers, subscriber.id = subscription := by
  unfold dropSubscription
  rw [ne_comm, Ne, List.length_filter_eq_length_iff]
  simp

theorem identifiers_release (hnodup : manager.identifiers.Nodup) (identifier : String)
    (subscription : Nat) :
    (release identifier subscription manager).2.identifiers = manager.identifiers ∧
        (∀ entry ∈ manager.registry, ¬ReleasesLast identifier subscription entry) ∨
      (release identifier subscription manager).2.identifiers =
          manager.identifiers.filter (· ≠ identifier) ∧
        ∀ entry ∈ manager.registry, ReleasesLast identifier subscription entry ↔
          entry.identifier = identifier := by
  unfold release
  split
  next hfind =>
    refine Or.inl ⟨rfl, fun entry hentry hlast => find_none hfind ?_⟩
    rw [← hlast.1]
    exact mem_identifiers hentry
  next entry hfind =>
    have hremoved := length_dropSubscription_ne_iff subscription entry
    dsimp only
    split
    next hlast =>
      rw [Bool.and_eq_true, decide_eq_true_eq, hremoved] at hlast
      refine Or.inr ⟨?_, fun other hother => ⟨fun h => h.1, fun hid => ?_⟩⟩
      · unfold identifiers
        dsimp only
        rw [removeFirst_eq_filter hnodup, List.filter_map]
        rfl
      · rw [eq_of_find hnodup hfind hother hid]
        exact ⟨by simpa using List.find?_some hfind, hlast⟩
    next hkept =>
      rw [Bool.and_eq_true, decide_eq_true_eq, hremoved] at hkept
      refine Or.inl ⟨?_, fun other hother hlast => hkept ?_⟩
      · refine map_updateFirst (fun entry => ?_) manager.registry
        rfl
      · rw [← eq_of_find hnodup hfind hother hlast.1]
        exact hlast.2

theorem identifiers_cleanupOwnerResources (owner : OwnerId) (manager : FontManager) :
    (cleanupOwnerResources owner manager).2.identifiers =
      (manager.registry.filter fun entry => !(entry.unclaim owner).isUnreferenced).map
        FontEntry.identifier := by
  unfold cleanupOwnerResources identifiers
  dsimp only
  rw [List.filter_map, List.map_map]
  rfl

def OmitsLast (owner : OwnerId) (requests : List FontMemoryReplacement) (entry : FontEntry) : Prop :=
  owner ∈ entry.ownerClaims ∧ (∀ request ∈ requests, request.identifier ≠ entry.identifier) ∧
    (entry.unclaim owner).isUnreferenced = true

def keptEntry (owner : OwnerId) (requests : List FontMemoryReplacement) (entry : FontEntry) :
    Option FontEntry :=
  if requests.any fun request => entry.identifier = request.identifier then none
  else if decide (owner ∈ entry.ownerClaims) && (entry.unclaim owner).isUnreferenced then none
  else some (entry.unclaim owner)

theorem omitEntry_remaining (owner : OwnerId) (requests : List FontMemoryReplacement)
    (anchor : Nat) (state : Omitted) (item : FontEntry × Nat) :
    (omitEntry owner requests anchor state item).remaining =
      state.remaining ++ (keptEntry owner requests item.1).toList := by
  obtain ⟨_, _⟩ := item
  unfold omitEntry keptEntry
  dsimp only
  split
  · rw [Option.toList_none, List.append_nil]
  · split
    · rw [Option.toList_none, List.append_nil]
    · rfl

theorem foldl_omitEntry_remaining (owner : OwnerId) (requests : List FontMemoryReplacement)
    (anchor : Nat) (items : List (FontEntry × Nat)) (state : Omitted) :
    (items.foldl (omitEntry owner requests anchor) state).remaining =
      state.remaining ++ (items.map Prod.fst).filterMap (keptEntry owner requests) := by
  induction items generalizing state with
  | nil => exact (List.append_nil _).symm
  | cons item _ ih =>
    rw [List.foldl_cons, ih, omitEntry_remaining, List.append_assoc, List.map_cons]
    rcases hkept : keptEntry owner requests item.1 with _ | _
    · rw [List.filterMap_cons_none hkept]
      rfl
    · rw [List.filterMap_cons_some hkept]
      rfl

variable {requests : List FontMemoryReplacement}

theorem mem_keptEntries {owner : OwnerId} :
    identifier ∈ (registry.filterMap (keptEntry owner requests)).map FontEntry.identifier ↔
      ∃ entry ∈ registry, entry.identifier = identifier ∧
        (∀ request ∈ requests, request.identifier ≠ identifier) ∧
        ¬OmitsLast owner requests entry := by
  rw [List.mem_map]
  constructor
  · rintro ⟨kept, hmem, rfl⟩
    obtain ⟨entry, hentry, hkept⟩ := List.mem_filterMap.mp hmem
    unfold keptEntry at hkept
    split at hkept
    · cases hkept
    next hrequested =>
    split at hkept
    · cases hkept
    next hlast =>
    cases hkept
    rw [List.any_eq_true, not_exists] at hrequested
    have hfree : ∀ request ∈ requests, request.identifier ≠ entry.identifier :=
      fun request hrequest heq =>
        hrequested request ⟨hrequest, decide_eq_true heq.symm⟩
    refine ⟨entry, hentry, rfl, hfree, fun homits => hlast ?_⟩
    rw [Bool.and_eq_true, decide_eq_true_eq]
    exact ⟨homits.1, homits.2.2⟩
  · rintro ⟨entry, hentry, rfl, hfree, homits⟩
    refine ⟨entry.unclaim owner, List.mem_filterMap.mpr ⟨entry, hentry, ?_⟩, rfl⟩
    unfold keptEntry
    rw [if_neg, if_neg]
    · intro hlast
      rw [Bool.and_eq_true, decide_eq_true_eq] at hlast
      exact homits ⟨hlast.1, hfree, hlast.2⟩
    · intro hrequested
      obtain ⟨request, hrequest, heq⟩ := List.any_eq_true.mp hrequested
      exact hfree request hrequest (of_decide_eq_true heq).symm

theorem nodup_keptEntries {owner : OwnerId} (hnodup : (registry.map FontEntry.identifier).Nodup) :
    ((registry.filterMap (keptEntry owner requests)).map FontEntry.identifier).Nodup := by
  induction registry with
  | nil => exact hnodup
  | cons entry _ ih =>
    rw [List.map_cons, List.nodup_cons] at hnodup
    rcases hkept : keptEntry owner requests entry with _ | kept
    · rw [List.filterMap_cons_none hkept]
      exact ih hnodup.2
    · rw [List.filterMap_cons_some hkept, List.map_cons, List.nodup_cons]
      refine ⟨fun hmem => hnodup.1 ?_, ih hnodup.2⟩
      obtain ⟨_, hother, hid, _⟩ := mem_keptEntries.mp hmem
      have hsame : kept.identifier = entry.identifier := by
        unfold keptEntry at hkept
        split at hkept
        · cases hkept
        · split at hkept
          · cases hkept
          · cases hkept
            rfl
      rw [← hsame, ← hid]
      exact List.mem_map_of_mem hother

theorem desiredEntry_identifier (owner : OwnerId) (previous : List FontEntry)
    (request : FontMemoryReplacement) :
    (desiredEntry owner previous request).identifier = request.identifier := by
  unfold desiredEntry
  split <;> rfl

theorem checkRequests_nodup {index : Nat} {seen : List String}
    (h : checkRequests index seen requests = .ok ()) :
    (requests.map FontMemoryReplacement.identifier).Nodup ∧
      ∀ request ∈ requests, request.identifier ∉ seen := by
  induction requests generalizing index seen with
  | nil => exact ⟨List.nodup_nil, fun request hrequest => by cases hrequest⟩
  | cons request _ ih =>
    unfold checkRequests at h
    split at h
    · cases h
    · split at h
      · cases h
      next hfresh =>
        obtain ⟨hnodup, hseen⟩ := ih h
        refine ⟨List.nodup_cons.mpr ⟨fun hmem => ?_, hnodup⟩, fun other hother => ?_⟩
        · obtain ⟨other, hother, hid⟩ := List.mem_map.mp hmem
          refine hseen other hother ?_
          rw [hid]
          exact List.mem_append_right seen List.mem_cons_self
        · rcases List.mem_cons.mp hother with rfl | hother
          · exact hfresh
          · exact fun hmem => hseen other hother (List.mem_append_left [request.identifier] hmem)

def Accepts (manager : FontManager) (owner : OwnerId) (requests : List FontMemoryReplacement) :
    Prop :=
  checkRequests 0 [] requests = .ok () ∧ checkClaims manager owner 0 requests = .ok ()

/-- A refused replacement changes nothing; an accepted one has the requested entries in the place
of those that it takes. -/
theorem identifiers_replaceOwnerMemory (owner : OwnerId) (requests : List FontMemoryReplacement)
    (manager : FontManager) :
    (¬Accepts manager owner requests ∧
        (replaceOwnerMemory owner requests manager).2 = manager) ∨
      Accepts manager owner requests ∧
        (replaceOwnerMemory owner requests manager).2.identifiers.Perm
          ((manager.registry.filterMap (keptEntry owner requests)).map FontEntry.identifier ++
            requests.map FontMemoryReplacement.identifier) := by
  unfold replaceOwnerMemory Accepts
  split
  next hrequests =>
    refine Or.inl ⟨fun h => ?_, rfl⟩
    rw [hrequests] at h
    cases h.1
  next hrequests =>
  split
  next hclaims =>
    refine Or.inl ⟨fun h => ?_, rfl⟩
    rw [hclaims] at h
    cases h.2
  next hclaims =>
  refine Or.inr ⟨⟨hrequests, hclaims⟩, ?_⟩
  have hremaining := foldl_omitEntry_remaining owner requests (ownerAnchor owner manager.registry)
    manager.registry.zipIdx ⟨[], 0, ⟨requests.length, 0, 0, 0, 0, 0⟩⟩
  rw [List.nil_append, List.zipIdx_map_fst] at hremaining
  have hdesired : (requests.map (desiredEntry owner manager.registry)).map FontEntry.identifier =
      requests.map FontMemoryReplacement.identifier := by
    rw [List.map_map]
    exact List.map_congr_left fun request _ => desiredEntry_identifier owner _ request
  unfold identifiers
  dsimp only
  rw [hremaining, List.map_append, List.map_append, hdesired, List.append_assoc]
  refine (List.perm_append_comm.append_left _).trans ?_
  rw [← List.append_assoc, ← List.map_append, List.take_append_drop]

end FontManager

end Nexus
