import Nexus.FontRegistry

namespace Nexus

namespace FontManager

def Requested (requests : List FontMemoryReplacement) (entry : FontEntry) : Prop :=
  ∃ request ∈ requests, entry.identifier = request.identifier

def HeldAlone (owner : OwnerId) (entry : FontEntry) : Prop :=
  owner ∈ entry.ownerClaims ∧ (∀ other ∈ entry.ownerClaims, other = owner) ∧
    entry.subscribers = []

instance (requests : List FontMemoryReplacement) (entry : FontEntry) :
    Decidable (Requested requests entry) :=
  inferInstanceAs (Decidable (∃ request ∈ requests, entry.identifier = request.identifier))

instance (owner : OwnerId) (entry : FontEntry) : Decidable (HeldAlone owner entry) :=
  decidable_of_iff (owner ∈ entry.ownerClaims ∧ (∀ other ∈ entry.ownerClaims, other = owner) ∧
    entry.subscribers.isEmpty = true) (by unfold HeldAlone; rw [List.isEmpty_iff])

def Delivers (owner : OwnerId) (registry : List FontEntry) (request : FontMemoryReplacement)
    (entry : FontEntry) : Prop :=
  (∃ old ∈ registry, old.identifier = request.identifier ∧
    entry = { old with size := request.size, data := request.data, config := request.config }) ∨
  (∀ old ∈ registry, old.identifier ≠ request.identifier) ∧
    entry = ⟨request.identifier, request.size, request.data, request.config, none, [owner], []⟩

structure Replaces (owner : OwnerId) (requests : List FontMemoryReplacement)
    (manager : FontManager) (report : FontOwnerReplaceReport) (next : FontManager) : Prop where
  order : ∃ before block after, next.registry = before ++ block ++ after ∧
    before.length = ownerAnchor owner manager.registry ∧
    List.Forall₂ (Delivers owner manager.registry) requests block ∧
    before ++ after = (manager.registry.filter fun entry =>
      ¬Requested requests entry ∧ ¬HeldAlone owner entry).map fun entry => entry.unclaim owner
  distinct : next.identifiers.Nodup
  rest : next = { manager with registry := next.registry, atlasBuilt := false }
  report : report = {
    requested := requests.length
    created := requests.countP fun request =>
      ∀ entry ∈ manager.registry, entry.identifier ≠ request.identifier
    updated := requests.countP fun request =>
      ∃ entry ∈ manager.registry, entry.identifier = request.identifier
    removedClaims := manager.registry.countP fun entry =>
      ¬Requested requests entry ∧ owner ∈ entry.ownerClaims
    removedEntries := manager.registry.countP fun entry =>
      ¬Requested requests entry ∧ HeldAlone owner entry
    retainedOmitted := manager.registry.countP fun entry =>
      ¬Requested requests entry ∧ owner ∈ entry.ownerClaims ∧ ¬HeldAlone owner entry }

variable {owner : OwnerId} {requests : List FontMemoryReplacement}

theorem any_requested_iff (requests : List FontMemoryReplacement) (entry : FontEntry) :
    (requests.any fun request => entry.identifier = request.identifier) = true ↔
      Requested requests entry := by
  unfold Requested
  rw [List.any_eq_true]
  simp only [decide_eq_true_eq]

theorem heldAlone_iff (owner : OwnerId) (entry : FontEntry) :
    (decide (owner ∈ entry.ownerClaims) && (entry.unclaim owner).isUnreferenced) = true ↔
      HeldAlone owner entry := by
  unfold HeldAlone FontEntry.unclaim
  rw [Bool.and_eq_true, decide_eq_true_eq, FontEntry.isUnreferenced_iff, List.filter_eq_nil_iff]
  simp only [decide_eq_true_eq, not_not, ne_eq]

theorem keptEntry_eq (owner : OwnerId) (requests : List FontMemoryReplacement)
    (entry : FontEntry) : keptEntry owner requests entry =
      if ¬Requested requests entry ∧ ¬HeldAlone owner entry then some (entry.unclaim owner)
      else none := by
  unfold keptEntry
  by_cases hrequested : Requested requests entry
  · rw [if_pos ((any_requested_iff requests entry).mpr hrequested),
      if_neg fun hkept => hkept.1 hrequested]
  · rw [if_neg fun hany => hrequested ((any_requested_iff requests entry).mp hany)]
    by_cases halone : HeldAlone owner entry
    · rw [if_pos ((heldAlone_iff owner entry).mpr halone), if_neg fun hkept => hkept.2 halone]
    · rw [if_neg fun hboth => halone ((heldAlone_iff owner entry).mp hboth),
        if_pos ⟨hrequested, halone⟩]

theorem filterMap_keptEntry (owner : OwnerId) (requests : List FontMemoryReplacement)
    (registry : List FontEntry) : registry.filterMap (keptEntry owner requests) =
      (registry.filter fun entry => ¬Requested requests entry ∧ ¬HeldAlone owner entry).map
        fun entry => entry.unclaim owner := by
  induction registry with
  | nil => rfl
  | cons entry _ ih =>
    by_cases hkept : ¬Requested requests entry ∧ ¬HeldAlone owner entry
    · rw [List.filterMap_cons_some (by rw [keptEntry_eq, if_pos hkept]),
        List.filter_cons_of_pos (by simpa using hkept), List.map_cons, ih]
    · rw [List.filterMap_cons_none (by rw [keptEntry_eq, if_neg hkept]),
        List.filter_cons_of_neg (by simpa using hkept), ih]

theorem omitEntry_counts (anchor : Nat) (state : Omitted) (item : FontEntry × Nat) :
    (omitEntry owner requests anchor state item).insertionIndex = state.insertionIndex +
      (if (¬Requested requests item.1 ∧ ¬HeldAlone owner item.1) ∧ item.2 < anchor then 1 else 0) ∧
    (omitEntry owner requests anchor state item).report = { state.report with
      removedClaims := state.report.removedClaims +
        if ¬Requested requests item.1 ∧ owner ∈ item.1.ownerClaims then 1 else 0
      removedEntries := state.report.removedEntries +
        if ¬Requested requests item.1 ∧ HeldAlone owner item.1 then 1 else 0
      retainedOmitted := state.report.retainedOmitted +
        if ¬Requested requests item.1 ∧ owner ∈ item.1.ownerClaims ∧ ¬HeldAlone owner item.1 then 1
        else 0 } := by
  obtain ⟨entry, _⟩ := item
  unfold omitEntry
  dsimp only
  by_cases hrequested : Requested requests entry
  · rw [if_pos ((any_requested_iff requests entry).mpr hrequested)]
    simp [hrequested]
  · rw [if_neg fun hany => hrequested ((any_requested_iff requests entry).mp hany)]
    by_cases halone : HeldAlone owner entry
    · rw [if_pos ((heldAlone_iff owner entry).mpr halone)]
      simp [hrequested, halone, halone.1]
    · rw [if_neg fun hboth => halone ((heldAlone_iff owner entry).mp hboth)]
      by_cases hclaimed : owner ∈ entry.ownerClaims
      · simp [hrequested, halone, hclaimed]
      · simp [hrequested, halone, hclaimed]

theorem foldl_omitEntry_insertionIndex (anchor : Nat) (items : List (FontEntry × Nat))
    (state : Omitted) :
    (items.foldl (omitEntry owner requests anchor) state).insertionIndex =
      state.insertionIndex + items.countP fun item =>
        (¬Requested requests item.1 ∧ ¬HeldAlone owner item.1) ∧ item.2 < anchor := by
  induction items generalizing state with
  | nil => rfl
  | cons item _ ih =>
    rw [List.foldl_cons, ih, (omitEntry_counts anchor state item).1, List.countP_cons]
    simp only [decide_eq_true_eq]
    omega

theorem foldl_omitEntry_report (anchor : Nat) (items : List (FontEntry × Nat)) (state : Omitted) :
    (items.foldl (omitEntry owner requests anchor) state).report = { state.report with
      removedClaims := state.report.removedClaims + (items.map Prod.fst).countP fun entry =>
        ¬Requested requests entry ∧ owner ∈ entry.ownerClaims
      removedEntries := state.report.removedEntries + (items.map Prod.fst).countP fun entry =>
        ¬Requested requests entry ∧ HeldAlone owner entry
      retainedOmitted := state.report.retainedOmitted + (items.map Prod.fst).countP fun entry =>
        ¬Requested requests entry ∧ owner ∈ entry.ownerClaims ∧ ¬HeldAlone owner entry } := by
  induction items generalizing state with
  | nil => rfl
  | cons item _ ih =>
    rw [List.foldl_cons, ih, (omitEntry_counts anchor state item).2, List.map_cons,
      List.countP_cons, List.countP_cons, List.countP_cons]
    simp only [decide_eq_true_eq, FontOwnerReplaceReport.mk.injEq, true_and]
    omega

variable {manager : FontManager} {index : Nat}

theorem checkClaims_ok (h : checkClaims manager owner index requests = .ok ()) :
    ∀ request ∈ requests, ∀ entry, manager.find request.identifier = some entry →
      owner ∈ entry.ownerClaims := by
  induction requests generalizing index with
  | nil => exact nofun
  | cons _ _ ih =>
    unfold checkClaims at h
    split at h
    next => cases h
    next hfree =>
      intro request hrequest entry hfind
      rcases List.mem_cons.mp hrequest with rfl | hlater
      · rw [hfind] at hfree
        simpa using hfree
      · exact ih h request hlater entry hfind

theorem claimed_of_requested (hdistinct : manager.identifiers.Nodup)
    (h : checkClaims manager owner index requests = .ok ()) {entry : FontEntry}
    (hentry : entry ∈ manager.registry) (hrequested : Requested requests entry) :
    owner ∈ entry.ownerClaims := by
  obtain ⟨request, hrequest, hid⟩ := hrequested
  rcases hfind : manager.find request.identifier with _ | found
  · exact absurd (hid ▸ mem_identifiers hentry) (find_none hfind)
  · rw [eq_of_find hdistinct hfind hentry hid]
    exact checkClaims_ok h request hrequest found hfind

variable {registry : List FontEntry}

theorem filter_before_anchor
    (hclaimed : ∀ entry ∈ registry, Requested requests entry → owner ∈ entry.ownerClaims) :
    (registry.take (ownerAnchor owner registry)).filter (fun entry =>
      ¬Requested requests entry ∧ ¬HeldAlone owner entry) =
      registry.take (ownerAnchor owner registry) := by
  refine List.filter_eq_self.mpr fun entry hentry => ?_
  have hfree : owner ∉ entry.ownerClaims := by
    obtain ⟨i, hi, rfl⟩ := List.getElem_of_mem hentry
    rw [List.length_take] at hi
    have hlt : i < registry.findIdx fun entry => owner ∈ entry.ownerClaims := by
      exact Nat.lt_of_lt_of_le hi (Nat.min_le_left _ _)
    have hnot := List.not_of_lt_findIdx hlt
    rw [List.getElem_take]
    simpa using hnot
  have hkept : ¬Requested requests entry ∧ ¬HeldAlone owner entry :=
    ⟨fun hrequested => hfree (hclaimed entry (List.mem_of_mem_take hentry) hrequested),
      fun halone => hfree halone.1⟩
  exact decide_eq_true hkept

theorem ownerAnchor_le (owner : OwnerId) (registry : List FontEntry) :
    ownerAnchor owner registry ≤ registry.length := List.findIdx_le_length

theorem insertionIndex_eq
    (hclaimed : ∀ entry ∈ registry, Requested requests entry → owner ∈ entry.ownerClaims) :
    (registry.zipIdx.countP fun item => (¬Requested requests item.1 ∧ ¬HeldAlone owner item.1) ∧
      item.2 < ownerAnchor owner registry) = ownerAnchor owner registry := by
  have hlength : (registry.take (ownerAnchor owner registry)).length =
      ownerAnchor owner registry := by
    rw [List.length_take]
    exact Nat.min_eq_left (ownerAnchor_le owner registry)
  have hsplit := List.take_append_drop (ownerAnchor owner registry) registry
  have hzip : registry.zipIdx = (registry.take (ownerAnchor owner registry)).zipIdx ++
      (registry.drop (ownerAnchor owner registry)).zipIdx (ownerAnchor owner registry) := by
    conv_lhs => rw [← hsplit]
    rw [List.zipIdx_append, hlength, Nat.zero_add]
  rw [hzip, List.countP_append]
  have hfront : ((registry.take (ownerAnchor owner registry)).zipIdx.countP fun item =>
      (¬Requested requests item.1 ∧ ¬HeldAlone owner item.1) ∧
        item.2 < ownerAnchor owner registry) = ownerAnchor owner registry := by
    rw [List.countP_eq_length.mpr, List.length_zipIdx, hlength]
    rintro ⟨entry, place⟩ hmem
    have hentry : entry ∈ registry.take (ownerAnchor owner registry) :=
      List.fst_mem_of_mem_zipIdx hmem
    have hplace : place < 0 + (registry.take (ownerAnchor owner registry)).length :=
      List.snd_lt_add_of_mem_zipIdx hmem
    have hkept := List.filter_eq_self.mp (filter_before_anchor hclaimed) entry hentry
    rw [Nat.zero_add, hlength] at hplace
    exact decide_eq_true ⟨of_decide_eq_true hkept, hplace⟩
  have hback : ((registry.drop (ownerAnchor owner registry)).zipIdx
      (ownerAnchor owner registry)).countP (fun item =>
      (¬Requested requests item.1 ∧ ¬HeldAlone owner item.1) ∧
        item.2 < ownerAnchor owner registry) = 0 := by
    refine List.countP_eq_zero.mpr ?_
    rintro ⟨entry, place⟩ hmem hcounted
    have hplace : ownerAnchor owner registry ≤ place := List.le_snd_of_mem_zipIdx hmem
    exact absurd (of_decide_eq_true hcounted).2 (Nat.not_lt_of_le hplace)
  rw [hfront, hback, Nat.add_zero]

theorem desiredEntry_delivers (request : FontMemoryReplacement) :
    Delivers owner registry request (desiredEntry owner registry request) := by
  unfold desiredEntry
  split
  next entry hfind =>
    have hentry := List.mem_reverse.mp (List.mem_of_find?_eq_some hfind)
    have hid : entry.identifier = request.identifier := by simpa using List.find?_some hfind
    refine Or.inl ⟨entry, hentry, hid, ?_⟩
    rw [← hid]
  next hfind =>
    refine Or.inr ⟨fun old hold hid => ?_, rfl⟩
    exact List.find?_eq_none.mp hfind old (List.mem_reverse.mpr hold) (decide_eq_true hid)

theorem forall₂_map_desiredEntry (registry : List FontEntry)
    (requests : List FontMemoryReplacement) :
    List.Forall₂ (Delivers owner registry) requests
      (requests.map (desiredEntry owner registry)) := by
  induction requests with
  | nil => exact .nil
  | cons request _ ih => exact .cons (desiredEntry_delivers request) ih

theorem created_eq (registry : List FontEntry) (requests : List FontMemoryReplacement) :
    requests.length - requests.countP (fun request =>
      registry.any fun entry => entry.identifier = request.identifier) =
    requests.countP fun request => ∀ entry ∈ registry, entry.identifier ≠ request.identifier := by
  have hsum := List.length_eq_countP_add_countP (fun request : FontMemoryReplacement =>
    registry.any fun entry => decide (entry.identifier = request.identifier)) (l := requests)
  have hother : (requests.countP fun request : FontMemoryReplacement =>
      ¬(registry.any fun entry => decide (entry.identifier = request.identifier)) = true) =
      requests.countP fun request =>
        ∀ entry ∈ registry, entry.identifier ≠ request.identifier := by
    refine List.countP_congr fun request _ => ?_
    simp
  omega

theorem updated_eq (registry : List FontEntry) (requests : List FontMemoryReplacement) :
    (requests.countP fun request =>
      registry.any fun entry => entry.identifier = request.identifier) =
    requests.countP fun request => ∃ entry ∈ registry, entry.identifier = request.identifier := by
  refine List.countP_congr fun request _ => ?_
  simp

theorem replaceOwnerMemory_accepted (hdistinct : manager.identifiers.Nodup)
    (haccepts : Accepts manager owner requests) :
    ∃ report next, replaceOwnerMemory owner requests manager = (.ok report, next) ∧
      Replaces owner requests manager report next := by
  obtain ⟨hrequests, hclaims⟩ := haccepts
  have hclaimed : ∀ entry ∈ manager.registry, Requested requests entry →
      owner ∈ entry.ownerClaims := fun entry hentry =>
    claimed_of_requested hdistinct hclaims hentry
  have hremaining := foldl_omitEntry_remaining owner requests (ownerAnchor owner manager.registry)
    manager.registry.zipIdx ⟨[], 0, ⟨requests.length, 0, 0, 0, 0, 0⟩⟩
  have hindex := @foldl_omitEntry_insertionIndex owner requests
    (ownerAnchor owner manager.registry) manager.registry.zipIdx
    ⟨[], 0, ⟨requests.length, 0, 0, 0, 0, 0⟩⟩
  have hreport := @foldl_omitEntry_report owner requests (ownerAnchor owner manager.registry)
    manager.registry.zipIdx ⟨[], 0, ⟨requests.length, 0, 0, 0, 0, 0⟩⟩
  rw [List.nil_append, List.zipIdx_map_fst, filterMap_keptEntry] at hremaining
  rw [insertionIndex_eq hclaimed, Nat.zero_add] at hindex
  rw [List.zipIdx_map_fst] at hreport
  have hids := identifiers_replaceOwnerMemory owner requests manager
  unfold replaceOwnerMemory at hids ⊢
  rw [hrequests, hclaims] at hids ⊢
  dsimp only at hids ⊢
  rw [hremaining, hindex] at hids ⊢
  refine ⟨_, _, rfl, ?_, ?_, rfl, ?_⟩
  · refine ⟨_, _, _, rfl, ?_, forall₂_map_desiredEntry manager.registry requests,
      List.take_append_drop _ _⟩
    have hsplit := List.take_append_drop (ownerAnchor owner manager.registry) manager.registry
    rw [List.length_take, List.length_map]
    refine Nat.min_eq_left ?_
    conv_rhs => rw [← hsplit]
    rw [List.filter_append, filter_before_anchor hclaimed, List.length_append, List.length_take,
      Nat.min_eq_left (ownerAnchor_le owner manager.registry)]
    exact Nat.le_add_right _ _
  · rcases hids with ⟨hrefused, _⟩ | ⟨_, hperm⟩
    · exact absurd ⟨hrequests, hclaims⟩ hrefused
    · refine hperm.nodup_iff.mpr (List.nodup_append.mpr ⟨nodup_keptEntries hdistinct,
        (checkRequests_nodup hrequests).1, fun identifier hkept other hother heq => ?_⟩)
      obtain ⟨_, _, _, hfree, _⟩ := mem_keptEntries.mp hkept
      obtain ⟨request, hrequest, hid⟩ := List.mem_map.mp hother
      exact hfree request hrequest (hid.trans heq.symm)
  · rw [hreport, created_eq, updated_eq]
    simp only [Nat.zero_add]

/-- A replacement that fails changes nothing; one that succeeds puts the requested fonts in their
order at the place of the owner's first font, keeps what others hold, and counts what it did. -/
theorem replace_owner_memory_atomic {manager : FontManager}
    (hdistinct : manager.identifiers.Nodup) (owner : OwnerId)
    (requests : List FontMemoryReplacement) :
    (∀ error next, replaceOwnerMemory owner requests manager = (.error error, next) →
      next = manager) ∧
    ∀ report next, replaceOwnerMemory owner requests manager = (.ok report, next) →
      Replaces owner requests manager report next := by
  by_cases haccepts : Accepts manager owner requests
  · obtain ⟨report, next, hresult, hreplaces⟩ := replaceOwnerMemory_accepted hdistinct haccepts
    refine ⟨fun error after hafter => ?_, fun other after hafter => ?_⟩
    · cases hresult.symm.trans hafter
    · cases hresult.symm.trans hafter
      exact hreplaces
  · unfold replaceOwnerMemory
    unfold Accepts at haccepts
    split
    next => exact ⟨fun error next h => (Prod.mk.inj h).2.symm, nofun⟩
    next hrequests =>
      split
      next => exact ⟨fun error next h => (Prod.mk.inj h).2.symm, nofun⟩
      next hclaims => exact absurd ⟨hrequests, hclaims⟩ haccepts

def sharedFonts : FontManager where
  registry := [⟨"host", 0x41500000, [1], .default, none, [⟨0, 0⟩], []⟩,
    ⟨"addon", 0x41500000, [2], .default, none, [⟨7, 1⟩], []⟩,
    ⟨"shared", 0x41500000, [3], .default, none, [⟨7, 1⟩, ⟨8, 1⟩], []⟩]
  atlasBuilt := true
  nextSubscription := 0
  rebuilds := []

/-- The owner keeps one of its fonts, adds one and leaves a shared one to the other owner. -/
theorem replace_owner_memory_shared : ∃ report next,
    replaceOwnerMemory ⟨7, 1⟩ [⟨"new", 0x41800000, [4], .default⟩, ⟨"addon", 0x41800000, [5], .default⟩]
      sharedFonts = (.ok report, next) ∧
    next.identifiers = ["host", "new", "addon", "shared"] ∧
    Replaces ⟨7, 1⟩ [⟨"new", 0x41800000, [4], .default⟩, ⟨"addon", 0x41800000, [5], .default⟩]
      sharedFonts report next := by
  have hdistinct : sharedFonts.identifiers.Nodup := by decide
  exact ⟨_, _, rfl, rfl, (replace_owner_memory_atomic hdistinct _ _).2 _ _ rfl⟩

end FontManager

end Nexus
