import Mathlib.Algebra.Order.BigOperators.Group.List
import Nexus.QuickAccessRuns

namespace Nexus.UiHost

def QuickAccessVisibility.isVisible (isGameplay isInCombat : Bool) : QuickAccessVisibility → Bool
  | alwaysShow => true
  | gameplay => isGameplay
  | outOfCombat => isGameplay && !isInCombat
  | inCombat => isGameplay && isInCombat
  | hide => false

structure ContextMenuItemSnapshot where
  id : String
  target : String
  owner : OwnerGeneration
  callback : CallbackSlot
  deriving DecidableEq

structure ShortcutSnapshot where
  owner : OwnerGeneration
  id : String
  texture : String
  hoverTexture : String
  inputBind : String
  tooltip : String
  suppressed : Bool
  contextItems : List ContextMenuItemSnapshot
  notifications : List String
  deriving DecidableEq

structure QuickAccessSnapshot where
  revision : Nat
  settings : QuickAccessSettings
  globallyVisible : Bool
  shortcuts : List ShortcutSnapshot
  deriving DecidableEq

def Shortcut.snapshot (shortcut : Shortcut) : ShortcutSnapshot where
  owner := shortcut.owner.identity
  id := shortcut.id
  texture := shortcut.texture
  hoverTexture := shortcut.hoverTexture
  inputBind := shortcut.inputBind
  tooltip := shortcut.tooltip
  suppressed := shortcut.suppressed
  contextItems := shortcut.contextItems.values.map fun item =>
    ⟨item.id, item.target, item.owner, item.callback⟩
  notifications := shortcut.notifications.map Notification.key

namespace QuickAccess

def snapshot (qa : QuickAccess) (isGameplay isInCombat : Bool) : QuickAccessSnapshot where
  revision := qa.revision
  settings := qa.settings
  globallyVisible := qa.settings.visibility.isVisible isGameplay isInCombat
  shortcuts := qa.shortcuts.values.map Shortcut.snapshot

def lastRevision : Nat := 2 ^ 64 - 1

/-- What a call does to the revision: it takes the next one, or nothing that a snapshot shows is
changed. -/
def Noted (qa next : QuickAccess) : Prop :=
  next.revision = min (qa.revision + 1) lastRevision ∨
    next.revision = qa.revision ∧ next.shortcuts = qa.shortcuts ∧ next.settings = qa.settings

variable {qa next : QuickAccess}

theorem Noted.same (qa : QuickAccess) : Noted qa qa := Or.inr ⟨rfl, rfl, rfl⟩

theorem Noted.bump (h : next.revision = qa.revision) : Noted qa next.bump := by
  refine Or.inl ?_
  show min (next.revision + 1) _ = _
  rw [h]
  rfl

theorem revision_orphan (qa : QuickAccess) (entry : String × ContextItem) :
    (qa.orphan entry).revision = qa.revision := by
  unfold orphan
  split <;> rfl

theorem revision_foldl_orphan (entries : List (String × ContextItem)) (qa : QuickAccess) :
    (entries.foldl orphan qa).revision = qa.revision := by
  induction entries generalizing qa with
  | nil => rfl
  | cons entry _ ih => exact (ih (qa.orphan entry)).trans (revision_orphan qa entry)

theorem revision_dropShortcut (qa : QuickAccess) (entry : String × Shortcut) :
    (qa.dropShortcut entry).revision = qa.revision := revision_foldl_orphan _ _

theorem revision_foldl_dropShortcut (entries : List (String × Shortcut)) (qa : QuickAccess) :
    (entries.foldl dropShortcut qa).revision = qa.revision := by
  rw [foldl_dropShortcut]
  exact revision_foldl_orphan _ _

theorem revision_adopt (state : Nat × QuickAccess) (id : String) :
    (adopt state id).2.revision = state.2.revision := by
  unfold adopt
  split
  · rfl
  · dsimp only
    split
    · rfl
    · split <;> rfl

theorem revision_reparentOrphans (qa : QuickAccess) :
    qa.reparentOrphans.2.revision = qa.revision := by
  suffices h : ∀ (ids : List String) (state : Nat × QuickAccess),
      (ids.foldl adopt state).2.revision = state.2.revision from h _ (0, qa)
  intro ids
  induction ids with
  | nil => exact fun _ => rfl
  | cons id _ ih => exact fun state => (ih (adopt state id)).trans (revision_adopt state id)

theorem revision_insertShortcut {config : QuickAccessConfig} {owner : OwnerHandle}
    {id texture hoverTexture inputBind tooltip : String} {outcome : ShortcutRegistrationOutcome}
    (h : insertShortcut config owner id texture hoverTexture inputBind tooltip qa =
      .ok (outcome, next)) : next.revision = qa.revision := by
  unfold insertShortcut at h
  split at h
  · cases h
    rfl
  · split at h
    · cases h
    · cases h
      rfl

theorem revision_placeItem (qa : QuickAccess) (item : ContextItem) :
    (qa.placeItem item).2.revision = qa.revision := by
  unfold placeItem
  split <;> rfl

theorem frame_foldl_deactivate (items : List ContextItem) (qa : QuickAccess) :
    (items.foldl deactivate qa).revision = qa.revision ∧
      (items.foldl deactivate qa).settings = qa.settings := by
  rw [(foldl_deactivate items qa).1]
  exact ⟨rfl, rfl⟩

theorem revision_takeItems (removes : ContextItem → Bool) (id : String) (qa : QuickAccess) :
    (qa.takeItems removes id).revision = qa.revision := (frame_foldl_deactivate _ qa).1

theorem settings_takeItems (removes : ContextItem → Bool) (id : String) (qa : QuickAccess) :
    (qa.takeItems removes id).settings = qa.settings := (frame_foldl_deactivate _ qa).2

theorem revision_dropOwnerItems (owner : OwnerGeneration) (qa : QuickAccess) :
    (qa.dropOwnerItems owner).revision = qa.revision := (frame_foldl_deactivate _ qa).1

theorem settings_dropOwnerItems (owner : OwnerGeneration) (qa : QuickAccess) :
    (qa.dropOwnerItems owner).settings = qa.settings := (frame_foldl_deactivate _ qa).2

theorem mapValues_eq {change : Shortcut → Shortcut} {shortcuts : SortedMap String Shortcut}
    (h : ∀ shortcut ∈ shortcuts.values, change shortcut = shortcut) :
    shortcuts.mapValues change = shortcuts := by
  refine SortedMap.ext_get? fun id => ?_
  rw [SortedMap.get?_mapValues]
  cases hget : shortcuts.get? id with
  | none => rfl
  | some shortcut =>
    rw [Option.map_some, h shortcut (SortedMap.mem_values_iff.mpr ⟨id, hget⟩)]

theorem keepItems_eq {keeps : String → ContextItem → Bool} {shortcut : Shortcut}
    (h : ∀ key item, shortcut.contextItems.get? key = some item → keeps key item = true) :
    shortcut.keepItems keeps = shortcut := by
  have hitems : shortcut.contextItems.filter keeps = shortcut.contextItems := by
    refine SortedMap.ext_get? fun key => ?_
    rw [SortedMap.get?_filter]
    cases hget : shortcut.contextItems.get? key with
    | none => rfl
    | some item => rw [Option.filter_some, if_pos (h key item hget)]
  unfold Shortcut.keepItems
  rw [hitems]

theorem shortcuts_takeItems {removes : ContextItem → Bool} {id : String}
    (h : qa.takenItems removes id = []) : (qa.takeItems removes id).shortcuts = qa.shortcuts := by
  refine mapValues_eq fun shortcut hshortcut => keepItems_eq fun key item hget => ?_
  have hattached := (List.append_eq_nil_iff.mp h).1
  rw [List.filterMap_eq_nil_iff] at hattached
  have hnone := hattached shortcut hshortcut
  by_cases hkey : key = id
  · subst hkey
    rw [hget, Option.filter_some] at hnone
    have hkept : removes item = false := by simpa using hnone
    simp [hkept]
  · simp [hkey]

theorem length_withoutOwner_le (owner : OwnerGeneration) (shortcut : Shortcut) :
    (shortcut.withoutOwner owner).notifications.length ≤ shortcut.notifications.length :=
  List.length_filter_le ..

theorem shortcuts_dropOwnerItems {owner : OwnerGeneration}
    (hitems : (qa.shortcuts.values.map fun shortcut =>
      shortcut.contextItems.values.countP fun item => item.owner = owner).sum = 0)
    (hnotifications : qa.notificationCount - (qa.dropOwnerItems owner).notificationCount = 0) :
    (qa.dropOwnerItems owner).shortcuts = qa.shortcuts := by
  refine mapValues_eq fun shortcut hshortcut => ?_
  have hcount := List.sum_eq_zero_iff_forall_eq_nat.mp hitems _ (List.mem_map_of_mem hshortcut)
  rw [List.countP_eq_zero] at hcount
  have hkeeps : (shortcut.keepItems fun _ item => item.owner ≠ owner) = shortcut := by
    refine keepItems_eq fun key item hget => ?_
    simpa using hcount item (SortedMap.mem_values_iff.mpr ⟨key, hget⟩)
  have hlength : (shortcut.withoutOwner owner).notifications.length =
      shortcut.notifications.length := by
    have hsums : (qa.shortcuts.values.map fun shortcut => shortcut.notifications.length).sum ≤
        (qa.shortcuts.values.map fun shortcut =>
          (shortcut.withoutOwner owner).notifications.length).sum := by
      have hdropped : (qa.dropOwnerItems owner).notificationCount =
          (qa.shortcuts.values.map fun shortcut =>
            (shortcut.withoutOwner owner).notifications.length).sum := by
        show ((SortedMap.values (qa.shortcuts.mapValues _)).map _).sum = _
        unfold SortedMap.values SortedMap.mapValues
        rw [List.map_map, List.map_map, List.map_map]
        rfl
      rw [← hdropped]
      exact Nat.sub_eq_zero_iff_le.mp hnotifications
    by_contra hne
    have hlt := lt_of_le_of_ne (length_withoutOwner_le owner shortcut) hne
    refine absurd hsums (not_le.mpr ?_)
    exact List.sum_lt_sum _ _ (fun other _ => length_withoutOwner_le owner other)
      ⟨shortcut, hshortcut, hlt⟩
  have hkept : shortcut.notifications.filter (fun notification => notification.owner ≠ owner) =
      shortcut.notifications := List.filter_sublist.eq_of_length hlength
  unfold Shortcut.withoutOwner
  rw [hkeeps, hkept]

theorem noted_addShortcut (config : QuickAccessConfig) (entered : Bool) (owner : OwnerHandle)
    (id texture hoverTexture inputBind tooltip : String) (qa : QuickAccess) :
    Noted qa (addShortcut config entered owner id texture hoverTexture inputBind tooltip qa).2 := by
  unfold addShortcut
  split
  · exact .same qa
  · split
    · exact .same qa
    · split
      · exact .same qa
      next inserted hinserted =>
        exact .bump ((revision_reparentOrphans inserted).trans (revision_insertShortcut hinserted))

theorem noted_removeShortcut (config : QuickAccessConfig) (id : String) (qa : QuickAccess) :
    Noted qa (removeShortcut config id qa).2 := by
  unfold removeShortcut
  split
  · exact .same qa
  · split
    · exact .bump rfl
    · exact .bump (revision_dropShortcut qa _)

theorem noted_removeShortcutForOwner (config : QuickAccessConfig) (entered : Bool)
    (owner : OwnerHandle) (id : String) (qa : QuickAccess) :
    Noted qa (removeShortcutForOwner config entered owner id qa).2 := by
  unfold removeShortcutForOwner
  split
  · exact .same qa
  · split
    · exact .same qa
    · split
      · exact .same qa
      · split
        · exact .bump (revision_dropShortcut qa _)
        · exact .same qa

theorem noted_addContextItem (config : QuickAccessConfig) (entered : Bool) (id target : String)
    (callback : UiCallback) (qa : QuickAccess) :
    Noted qa (addContextItem config entered id target callback qa).2 := by
  unfold addContextItem
  split
  · exact .same qa
  · split
    · exact .same qa
    · split
      · exact .bump rfl
      · split
        · exact .same qa
        · exact .bump (revision_placeItem _ _)

theorem noted_removeContextItem (config : QuickAccessConfig) (id : String) (qa : QuickAccess) :
    Noted qa (removeContextItem config id qa).2 := by
  unfold removeContextItem
  split
  · exact .same qa
  · exact .bump (revision_takeItems _ id qa)

theorem noted_removeContextItemForOwner (config : QuickAccessConfig) (entered : Bool)
    (owner : OwnerHandle) (id : String) (qa : QuickAccess) :
    Noted qa (removeContextItemForOwner config entered owner id qa).2 := by
  unfold removeContextItemForOwner
  split
  · exact .same qa
  · split
    · exact .same qa
    · dsimp only
      split
      · exact .bump (revision_takeItems _ id qa)
      next hnone =>
        have htaken : qa.takenItems (·.ownedBy owner) id = [] :=
          List.length_eq_zero_iff.mp (Nat.eq_zero_of_not_pos hnone)
        exact Or.inr ⟨revision_takeItems _ id qa, shortcuts_takeItems htaken,
          settings_takeItems _ id qa⟩

theorem noted_pushNotification (config : QuickAccessConfig) (entered : Bool) (owner : OwnerHandle)
    (shortcutId key : String) (qa : QuickAccess) :
    Noted qa (pushNotification config entered owner shortcutId key qa).2 := by
  unfold pushNotification
  split
  · exact .same qa
  · split
    · exact .same qa
    · split
      · exact .same qa
      · split
        · exact .same qa
        · split
          · exact .same qa
          · exact .bump rfl

theorem noted_popNotification (config : QuickAccessConfig) (shortcutId key : String)
    (qa : QuickAccess) : Noted qa (popNotification config shortcutId key qa).2 := by
  unfold popNotification
  split
  · exact .same qa
  · split
    · exact .same qa
    · split
      · exact .same qa
      · exact .bump rfl

theorem noted_setSuppressed (config : QuickAccessConfig) (id : String) (suppressed : Bool)
    (qa : QuickAccess) : Noted qa (setSuppressed config id suppressed qa).2 := by
  unfold setSuppressed
  split
  · exact .same qa
  · split
    · exact .same qa
    · dsimp only
      split
      · exact .bump rfl
      · exact .bump rfl

theorem noted_cleanupOwnerGeneration (owner : OwnerGeneration) (qa : QuickAccess) :
    Noted qa (cleanupOwnerGeneration owner qa).2 := by
  have hrevision : ((qa.dropOwnerItems owner).ownedShortcuts owner |>.foldl dropShortcut
      (qa.dropOwnerItems owner)).revision = qa.revision :=
    (revision_foldl_dropShortcut _ _).trans (revision_dropOwnerItems owner qa)
  unfold cleanupOwnerGeneration
  dsimp only
  split
  next hreport =>
    obtain ⟨howned, hitems, _, hnotifications⟩ := QuickAccessCleanup.mk.inj hreport
    have hnone := List.length_eq_zero_iff.mp howned
    refine Or.inr ⟨hrevision, ?_, ?_⟩
    · rw [hnone]
      exact shortcuts_dropOwnerItems hitems (Nat.eq_zero_of_add_eq_zero hnotifications).1
    · rw [hnone]
      exact settings_dropOwnerItems owner qa
  next => exact .bump hrevision

theorem noted_step (config : QuickAccessConfig) (op : QuickAccessOp) (qa : QuickAccess) :
    Noted qa (op.step config qa) := by
  cases op with
  | addShortcut entered owner id texture hoverTexture inputBind tooltip =>
    exact noted_addShortcut config entered owner id texture hoverTexture inputBind tooltip qa
  | removeShortcut id => exact noted_removeShortcut config id qa
  | removeShortcutForOwner entered owner id =>
    exact noted_removeShortcutForOwner config entered owner id qa
  | addContextItem entered id target callback =>
    exact noted_addContextItem config entered id target callback qa
  | removeContextItem id => exact noted_removeContextItem config id qa
  | removeContextItemForOwner entered owner id =>
    exact noted_removeContextItemForOwner config entered owner id qa
  | pushNotification entered owner shortcutId key =>
    exact noted_pushNotification config entered owner shortcutId key qa
  | popNotification shortcutId key => exact noted_popNotification config shortcutId key qa
  | setSuppressed id suppressed => exact noted_setSuppressed config id suppressed qa
  | setSettings => exact .bump rfl
  | cleanupOwnerGeneration owner => exact noted_cleanupOwnerGeneration owner qa

/-- What two states of one run have in common: the counter stays within its word and does not fall,
and while it stands, below the last revision, the snapshots are the same. -/
structure Follows (qa next : QuickAccess) : Prop where
  ordered : qa.revision ≤ next.revision
  same : next.revision = qa.revision → qa.revision < lastRevision →
    next.shortcuts = qa.shortcuts ∧ next.settings = qa.settings

theorem Noted.follows (h : Noted qa next) (hlast : qa.revision ≤ lastRevision) :
    Follows qa next ∧ next.revision ≤ lastRevision := by
  rcases h with hnext | ⟨hsame, hshortcuts, hsettings⟩
  · refine ⟨⟨?_, fun heq hlt => ?_⟩, ?_⟩
    · rw [hnext]
      exact le_min (Nat.le_succ _) hlast
    · omega
    · rw [hnext]
      exact min_le_right ..
  · exact ⟨⟨hsame.ge, fun _ _ => ⟨hshortcuts, hsettings⟩⟩, hsame.trans_le hlast⟩

theorem Follows.trans {last : QuickAccess} (h : Follows qa next) (h' : Follows next last) :
    Follows qa last := by
  refine ⟨h.ordered.trans h'.ordered, fun heq hlt => ?_⟩
  have hle := h.ordered
  have hle' := h'.ordered
  have hfirst := h.same (by omega) hlt
  have hsecond := h'.same (by omega) (by omega)
  exact ⟨hsecond.1.trans hfirst.1, hsecond.2.trans hfirst.2⟩

theorem follows_foldl (config : QuickAccessConfig) (ops : List QuickAccessOp) {qa : QuickAccess}
    (hlast : qa.revision ≤ lastRevision) :
    Follows qa (ops.foldl (fun qa op => op.step config qa) qa) ∧
      (ops.foldl (fun qa op => op.step config qa) qa).revision ≤ lastRevision := by
  induction ops generalizing qa with
  | nil => exact ⟨⟨le_rfl, fun _ _ => ⟨rfl, rfl⟩⟩, hlast⟩
  | cons op _ ih =>
    obtain ⟨hstep, hstepLast⟩ := (noted_step config op qa).follows hlast
    obtain ⟨hrest, hrestLast⟩ := ih hstepLast
    exact ⟨hstep.trans hrest, hrestLast⟩

theorem snapshot_eq (hrevision : next.revision = qa.revision) (hshortcuts : next.shortcuts = qa.shortcuts)
    (hsettings : next.settings = qa.settings) (isGameplay isInCombat : Bool) :
    next.snapshot isGameplay isInCombat = qa.snapshot isGameplay isInCombat := by
  unfold snapshot
  rw [hrevision, hshortcuts, hsettings]

end QuickAccess

namespace QuickAccessOp

open QuickAccess

theorem run_append (config : QuickAccessConfig) (slots : CallbackSlots)
    (ops more : List QuickAccessOp) :
    run config slots (ops ++ more) = more.foldl (step config) (run config slots ops) :=
  List.foldl_append

theorem follows_run (config : QuickAccessConfig) (slots : CallbackSlots) (ops : List QuickAccessOp)
    {m n : Nat} (h : m ≤ n) :
    Follows (run config slots (ops.take m)) (run config slots (ops.take n)) := by
  have hsplit : ops.take n = ops.take m ++ (ops.take n).drop m := by
    conv_lhs => rw [← List.take_append_drop m (ops.take n), List.take_take, Nat.min_eq_left h]
  have hzero : (QuickAccess.new slots).revision ≤ lastRevision := Nat.zero_le _
  have hstart : (run config slots (ops.take m)).revision ≤ lastRevision :=
    (follows_foldl config (ops.take m) hzero).2
  rw [hsplit, run_append]
  exact (follows_foldl config _ hstart).1

def snapshotAt (config : QuickAccessConfig) (slots : CallbackSlots) (ops : List QuickAccessOp)
    (n : Nat) (isGameplay isInCombat : Bool) : QuickAccessSnapshot :=
  (run config slots (ops.take n)).snapshot isGameplay isInCombat

/-- In every run the revision never decreases, and two snapshots with the same flags and the same
revision, below the last one, are equal. -/
theorem revision_detects_changes (config : QuickAccessConfig) (slots : CallbackSlots)
    (ops : List QuickAccessOp) (isGameplay isInCombat : Bool) (m n : Nat) :
    (m ≤ n → (snapshotAt config slots ops m isGameplay isInCombat).revision ≤
      (snapshotAt config slots ops n isGameplay isInCombat).revision) ∧
    ((snapshotAt config slots ops m isGameplay isInCombat).revision =
        (snapshotAt config slots ops n isGameplay isInCombat).revision →
      (snapshotAt config slots ops m isGameplay isInCombat).revision < lastRevision →
      snapshotAt config slots ops m isGameplay isInCombat =
        snapshotAt config slots ops n isGameplay isInCombat) := by
  refine ⟨fun h => (follows_run config slots ops h).ordered, fun heq hlt => ?_⟩
  unfold snapshotAt at heq hlt ⊢
  rcases Nat.le_total m n with h | h
  · obtain ⟨hshortcuts, hsettings⟩ := (follows_run config slots ops h).same heq.symm hlt
    exact (snapshot_eq heq.symm hshortcuts hsettings isGameplay isInCombat).symm
  · obtain ⟨hshortcuts, hsettings⟩ := (follows_run config slots ops h).same heq
      (lt_of_eq_of_lt heq.symm hlt)
    exact snapshot_eq heq hshortcuts hsettings isGameplay isInCombat

def refusedRemoval : List QuickAccessOp :=
  [.addShortcut true ⟨⟨1, 1⟩, 1⟩ "a" "" "" "" "", .removeShortcutForOwner true ⟨⟨2, 1⟩, 2⟩ "a"]

theorem refused_removal_unseen :
    (snapshotAt .default .empty refusedRemoval 1 true false).revision = 1 ∧
      snapshotAt .default .empty refusedRemoval 1 true false =
        snapshotAt .default .empty refusedRemoval 2 true false :=
  ⟨by decide +kernel, (revision_detects_changes .default .empty refusedRemoval true false 1 2).2
    (by decide +kernel) (by decide +kernel)⟩

end QuickAccessOp

end Nexus.UiHost
